import FilterPushdown.Filter.Reading

/-!
Fragments: the outcome of compiling a reference or a condition.  A valid fragment is SQL text that
can be spliced into a statement; an invalid one carries no SQL, only the reason why there is none.
-/

namespace FilterPushdown

/-- Why there is no SQL text. -/
inductive Reason where
  | unsupportedRelation
  | missingColumn (column : String)
  | embeddedQuote (identifier quote : String)
  | orderWithNull (operator : Operator)
  | patternNotText
  | missingOperand (connective : Connective)
  | unreadableFilter (fault : Filter.ReadError)
  /-- A reason given in words. -/
  | other (text : String) (nonempty : text.isEmpty = false)
  deriving DecidableEq, Repr

/-- The text of a reason. -/
def Reason.message : Reason → String
  | unsupportedRelation => "relation is of unsupported kind"
  | missingColumn column => "Column " ++ column ++ " is not present in dataset"
  | embeddedQuote identifier quote =>
    "Identifier " ++ identifier ++ " contains the quote character " ++ quote
  | orderWithNull operator => "Operator " ++ operator.symbol ++ " cannot be used with null"
  | patternNotText => "LIKE requires a string pattern"
  | missingOperand connective => connective.symbol ++ " requires two operands"
  | unreadableFilter fault => "Failed to parse filter: " ++ fault.message
  | other text _ => text

/-- `CompiledExpression`: SQL text, or the reason why there is none. -/
inductive Fragment where
  | valid (sql : String)
  | invalid (reason : Reason)
  deriving DecidableEq, Repr

namespace Fragment

/-- The attempt to make an invalid fragment without a reason. -/
inductive ReasonError where
  | empty
  deriving DecidableEq, Repr

/-- The text of a refused reason. -/
def ReasonError.message : ReasonError → String
  | empty => "An invalid expression requires a validation error"

/-- `invalidExpression`: an invalid fragment for a reason given in words. -/
def ofReason (text : String) : Except ReasonError Fragment :=
  match nonempty : text.isEmpty with
  | true => .error .empty
  | false => .ok (invalid (.other text nonempty))

/-- Whether a fragment has SQL text. -/
def isValid : Fragment → Bool
  | valid _ => true
  | invalid _ => false

/-- `extract`: the SQL text of a valid fragment. -/
def sql? : Fragment → Option String
  | valid sql => some sql
  | invalid _ => none

/-- `getValidationError`: the reason of an invalid fragment. -/
def reason? : Fragment → Option Reason
  | valid _ => none
  | invalid reason => some reason

/-- A fragment as it is shown to people. -/
def display : Fragment → String
  | valid sql => sql
  | invalid reason => "InvalidExpression(" ++ reason.message ++ ")"

end Fragment

end FilterPushdown
