import FilterPushdown.Number.Text

/-!
Conditions: comparisons of columns with literals, joined by connectives.  Conditions are handed
over by callers as well as read from filter texts, so a connective may lack its second operand and
a negation may carry one, which means nothing.
-/

namespace FilterPushdown

/-- `FilterComparisonOperator`: how a column is compared. -/
inductive Operator where
  | equal
  | greater
  | greaterOrEqual
  | less
  | lessOrEqual
  | like
  deriving DecidableEq, Repr

namespace Operator

/-- The operator as a condition shows it. -/
def symbol : Operator → String
  | equal => "=="
  | greater => ">"
  | greaterOrEqual => ">="
  | less => "<"
  | lessOrEqual => "<="
  | like => "LIKE"

/-- `SQL_OPERATORS`: the operator in SQL. -/
def sql : Operator → String
  | equal => "="
  | greater => ">"
  | greaterOrEqual => ">="
  | less => "<"
  | lessOrEqual => "<="
  | like => "LIKE"

end Operator

/-- `FilterValue`: what a column is compared with. -/
inductive Literal where
  | text (value : String)
  | number (value : Number.Double)
  | boolean (value : Bool)
  | null
  deriving DecidableEq, Repr

/-- What joins two conditions. -/
inductive Connective where
  | and
  | or
  deriving DecidableEq, Repr

/-- The connective as a condition and as SQL show it. -/
def Connective.symbol : Connective → String
  | and => "AND"
  | or => "OR"

/-- `FilterExpression`: a condition on the rows of a relation. -/
inductive Condition where
  | comparison (column : String) (operator : Operator) (value : Literal)
  | junction (connective : Connective) (left right : Condition)
  /-- A connective whose second operand is missing. -/
  | halfJunction (connective : Connective) (left : Condition)
  | negation (operand : Condition)
  /-- A negation with a second operand, which means nothing. -/
  | overfullNegation (operand ignored : Condition)
  deriving DecidableEq, Repr

end FilterPushdown
