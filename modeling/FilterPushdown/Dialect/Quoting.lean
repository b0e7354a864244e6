import FilterPushdown.Dialect.Basic
import FilterPushdown.Text.Utf16

/-!
Quoted text: identifiers between a dialect's quotes, and string literals between apostrophes.
Identifiers are escaped unit by unit, so that a quote outside the basic plane is found wherever its
two halves stand next to each other.
-/

namespace FilterPushdown

namespace Identifier

/-- `createIdentifierQualifier`: an identifier between two quotes, exactly as it is. -/
def quoted (quote identifier : String) : String := quote ++ identifier ++ quote

/-- `escapeIdentifierQuotes`: an identifier, given by its units, with every quote in it replaced by
the escape sequence. -/
def escaped (quote escape identifier : List UInt16) : List UInt16 :=
  Text.replace quote escape identifier

/-- Among texts, a quote of one character is replaced character by character. -/
theorem escaped_encode (quote : Char) (escape identifier : List Char) :
    escaped (Text.Utf16.ofChar quote) (Text.Utf16.encode escape) (Text.Utf16.encode identifier) =
      Text.Utf16.encode (Text.replaceLetter quote escape identifier) :=
  Text.Utf16.replace_encode ..

end Identifier

namespace Dialect

/-- `SqlExpressionFactory.qualify`: an identifier between the dialect's quotes, exactly as it is. -/
def quoteIdentifier (dialect : Dialect) (identifier : String) : String :=
  Identifier.quoted (String.singleton dialect.identifierQuote) identifier

/-- `escapeIdentifierQuotes` with the quote and the sequence of a dialect, from text to text. -/
def escapeIdentifier (dialect : Dialect) (identifier : String) : String :=
  String.ofList (Text.Utf16.decode (Identifier.escaped (Text.Utf16.ofChar dialect.identifierQuote)
    (Text.Utf16.encode dialect.escapedIdentifierQuote.toList)
    (Text.Utf16.encode identifier.toList)))

/-- The quote is one character, and is replaced wherever that character stands. -/
theorem escapeIdentifier_toList (dialect : Dialect) (identifier : String) :
    (dialect.escapeIdentifier identifier).toList =
      Text.replaceLetter dialect.identifierQuote dialect.escapedIdentifierQuote.toList
        identifier.toList := by
  rw [escapeIdentifier, String.toList_ofList, Identifier.escaped_encode, Text.Utf16.decode_encode]

/-- An identifier without the quote needs no escaping. -/
theorem escapeIdentifier_of_not_mem {dialect : Dialect} {identifier : String}
    (absent : dialect.identifierQuote ∉ identifier.toList) :
    dialect.escapeIdentifier identifier = identifier := by
  apply String.toList_injective
  rw [escapeIdentifier_toList, Text.replaceLetter_of_not_mem absent]

/-- The letters between the apostrophes of a string literal: backslashes are doubled first where
the dialect asks for it, then apostrophes are replaced by the sequence that stands for them. -/
def literalBody (dialect : Dialect) (value : List Char) : List Char :=
  let doubled :=
    if dialect.backslashEscapes then Text.replaceLetter '\\' ['\\', '\\'] value else value
  Text.replaceLetter '\'' dialect.escapedStringQuote.toList doubled

/-- `quoteString`: a string literal that denotes a text. -/
def quoteString (dialect : Dialect) (value : String) : String :=
  "'" ++ String.ofList (dialect.literalBody value.toList) ++ "'"

end Dialect

end FilterPushdown
