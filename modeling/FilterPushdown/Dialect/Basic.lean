import FilterPushdown.Text.Blank

/-!
Dialects: how one SQL engine quotes identifiers and string literals.  A dialect is built from
options that are checked in a fixed order, and what is checked is kept in the type: the name and
the engine are not blank, the identifier quote is one character, and the sequence that stands for
that character inside a quoted identifier is not empty.  Nothing is trimmed.
-/

namespace FilterPushdown

/-- `ISqlDialect`: the quoting rules of one SQL engine. -/
structure Dialect where
  /-- The name shown to people. -/
  name : String
  /-- The engine that a dataset must belong to. -/
  engine : String
  /-- The character before and after an identifier. -/
  identifierQuote : Char
  /-- What stands for the identifier quote inside a quoted identifier. -/
  escapedIdentifierQuote : String
  /-- What stands for an apostrophe inside a string literal. -/
  escapedStringQuote : String
  /-- Whether a backslash in a string literal has to be doubled. -/
  backslashEscapes : Bool
  name_visible : Text.allBlank name = false
  engine_visible : Text.allBlank engine = false
  escape_nonempty : escapedIdentifierQuote ≠ ""
  deriving DecidableEq

namespace Dialect

/-- What a dialect is asked to be.  Options that are not given are filled in. -/
structure Options where
  name : String
  engine : String
  identifierQuote : String
  escapedIdentifierQuote : Option String := none
  escapedStringQuote : Option String := none
  backslashEscapes : Option Bool := none
  deriving DecidableEq, Repr

/-- `DialectConfigurationError`: why options do not make a dialect. -/
inductive OptionsError where
  | blankName
  | blankEngine (name : String)
  | quoteNotSingle (name quote : String)
  | emptyEscape (name : String)
  deriving DecidableEq, Repr

/-- The text of an options error. -/
def OptionsError.message : OptionsError → String
  | blankName => "Dialect name must not be empty"
  | blankEngine name => "Dialect " ++ name ++ " must declare an engine"
  | quoteNotSingle name quote =>
    "Dialect " ++ name ++ " identifier quote must be a single character, got \"" ++ quote ++ "\""
  | emptyEscape name => "Dialect " ++ name ++ " escape sequence must not be empty"

/-- The character of a text that is one character long. -/
def singleChar? (text : String) : Option Char :=
  match text.toList with
  | [c] => some c
  | _ => none

/-- `createDialect`: checks the name, the engine, the quote and the escape sequence, in this order.
The escape sequence defaults to the quote doubled, that of string literals to two apostrophes. -/
def ofOptions (options : Options) : Except OptionsError Dialect :=
  if nameBlank : Text.allBlank options.name = true then .error .blankName
  else if engineBlank : Text.allBlank options.engine = true then
    .error (.blankEngine options.name)
  else
    match singleChar? options.identifierQuote with
    | none => .error (.quoteNotSingle options.name options.identifierQuote)
    | some quote =>
      let escaped := options.escapedIdentifierQuote.getD (String.ofList [quote, quote])
      if escapeEmpty : escaped = "" then .error (.emptyEscape options.name)
      else
        .ok {
          name := options.name
          engine := options.engine
          identifierQuote := quote
          escapedIdentifierQuote := escaped
          escapedStringQuote := options.escapedStringQuote.getD "''"
          backslashEscapes := options.backslashEscapes.getD false
          name_visible := by simpa using nameBlank
          engine_visible := by simpa using engineBlank
          escape_nonempty := escapeEmpty }

/-- The options that spell out every rule of a dialect. -/
def options (dialect : Dialect) : Options where
  name := dialect.name
  engine := dialect.engine
  identifierQuote := String.singleton dialect.identifierQuote
  escapedIdentifierQuote := some dialect.escapedIdentifierQuote
  escapedStringQuote := some dialect.escapedStringQuote
  backslashEscapes := some dialect.backslashEscapes

/-- `BIGQUERY_DIALECT`, which is GoogleSQL: backticks around identifiers, backslash escapes
throughout. -/
def bigQuery : Dialect where
  name := "BigQuery"
  engine := "bigquery"
  identifierQuote := '\x60'
  escapedIdentifierQuote := "\\`"
  escapedStringQuote := "\\'"
  backslashEscapes := true
  name_visible := by decide +kernel
  engine_visible := by decide +kernel
  escape_nonempty := by decide

/-- `ANSI_DIALECT`, which is standard SQL: double quotes around identifiers, quotes doubled, no
backslash escapes. -/
def ansi : Dialect where
  name := "ANSI"
  engine := "ansi"
  identifierQuote := '"'
  escapedIdentifierQuote := "\"\""
  escapedStringQuote := "''"
  backslashEscapes := false
  name_visible := by decide +kernel
  engine_visible := by decide +kernel
  escape_nonempty := by decide

/-- `MYSQL_DIALECT`: backticks around identifiers, quotes doubled, backslash escapes in literals. -/
def mySql : Dialect where
  name := "MySQL"
  engine := "mysql"
  identifierQuote := '\x60'
  escapedIdentifierQuote := "``"
  escapedStringQuote := "''"
  backslashEscapes := true
  name_visible := by decide +kernel
  engine_visible := by decide +kernel
  escape_nonempty := by decide

end Dialect

end FilterPushdown
