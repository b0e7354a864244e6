import FilterPushdown.Filter.Condition
import FilterPushdown.Text.Position
import FilterPushdown.Value

/-!
Nodes: what a reader of filter texts hands over before anything is known of it.  Operators are
letters, literals are values of any shape, and there may be nodes of other types than those below.
`FilterParser.convert` makes a condition of a node and refuses what it does not know: an operator
that is not in its map, a value that is no scalar, an expression that is no literal, and a node of
another type.  The leftmost fault of a node is reported.
-/

namespace FilterPushdown.Filter

/-- A form of term that stands for no literal. -/
inductive TermForm where
  | missing
  | regex
  | range
  deriving DecidableEq, Repr

/-- The name of a form in error texts. -/
def TermForm.name : TermForm → String
  | missing => "EmptyExpression"
  | regex => "RegexExpression"
  | range => "RangeExpression"

/-- Why a filter text does not make a condition. -/
inductive ReadError where
  /-- No filter text goes on like this; the place is the one after the offending letter. -/
  | unexpected (position : Text.Position)
  /-- The text stops where some longer text would be a filter. -/
  | unfinished
  | ambiguous
  | empty
  | unnamedTag
  | unsupportedTerm (column : String) (form : TermForm)
  | unsupportedOperator (letters : List Char)
  | unsupportedValue (type : String)
  | unsupportedNode
  deriving DecidableEq, Repr

/-- The text of a read error. -/
def ReadError.message : ReadError → String
  | unexpected position =>
    "Syntax error at line " ++ toString position.line ++ " column " ++ toString position.column
  | unfinished => "Found no parsings."
  | ambiguous => "Ambiguous results."
  | empty => "Filter is empty"
  | unnamedTag => "Filter terms must name a column"
  | unsupportedTerm column form =>
    "Unsupported expression for column " ++ column ++ ": " ++ form.name
  | unsupportedOperator letters => "Unsupported operator: " ++ String.ofList letters
  | unsupportedValue type => "Unsupported value type: " ++ type
  | unsupportedNode => "Unsupported filter syntax"

/-- What a tag asks for: a literal, or an expression of another form. -/
inductive Expression where
  | literal (value : Value)
  | other (form : TermForm)

/-- A node of a filter. -/
inductive Node where
  /-- Nothing between parentheses, or in the whole text. -/
  | empty
  | tag (field : Option String) (operator : List Char) (expression : Expression)
  | logical (operator : List Char) (left right : Node)
  | unary (operand : Node)
  | parenthesized (expression : Node)
  | other

/-- The letters of the operators that tags may have. -/
def operatorMap : List (List Char × Operator) :=
  [([':'], .equal), ([':', '='], .equal), ([':', '>'], .greater),
    ([':', '>', '='], .greaterOrEqual), ([':', '<'], .less), ([':', '<', '='], .lessOrEqual)]

/-- `convertOperator`: the comparison that the letters of an operator ask for. -/
def operator? (letters : List Char) : Except ReadError Operator :=
  match operatorMap.lookup letters with
  | some operator => .ok operator
  | none => .error (.unsupportedOperator letters)

/-- `convertValue`: the literal that a value is. -/
def literal? : Value → Except ReadError Literal
  | .text value => .ok (.text value)
  | .number value => .ok (.number value)
  | .boolean value => .ok (.boolean value)
  | .null => .ok .null
  | .list items => .error (.unsupportedValue (Value.list items).typeName)
  | .record members => .error (.unsupportedValue (Value.record members).typeName)

/-- Whether a text holds a wildcard. -/
def hasWildcard (text : String) : Bool := text.toList.any fun c => c == '*' || c == '?'

/-- The comparison of a column with a literal.  Equality with a text that holds a wildcard is a
comparison of patterns. -/
def comparisonBy (column : String) (operator : Operator) (value : Literal) : Condition :=
  match operator, value with
  | .equal, .text pattern =>
    .comparison column (if hasWildcard pattern then .like else .equal) (.text pattern)
  | operator, value => .comparison column operator value

/-- `FilterParser.convert`: the condition that a node means.  Parentheses leave no trace. -/
def Node.condition? : Node → Except ReadError Condition
  | empty => .error .empty
  | tag none _ _ => .error .unnamedTag
  | tag (some column) _ (.other form) => .error (.unsupportedTerm column form)
  | tag (some column) letters (.literal value) => do
    let operator ← operator? letters
    let literal ← literal? value
    return comparisonBy column operator literal
  | logical letters left right => do
    let leftCondition ← left.condition?
    let rightCondition ← right.condition?
    return .junction (if letters = ['O', 'R'] then .or else .and) leftCondition rightCondition
  | unary operand => do
    let condition ← operand.condition?
    return .negation condition
  | parenthesized expression => expression.condition?
  | other => .error .unsupportedNode

end FilterPushdown.Filter
