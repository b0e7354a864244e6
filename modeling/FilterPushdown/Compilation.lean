import FilterPushdown.Target
import FilterPushdown.Wildcard

/-!
Compilation of conditions into SQL text.  Operands are compiled from left to right and the first
failure is the result; every column goes through the target, so a condition sees a relation only
through the columns that it exposes.
-/

namespace FilterPushdown

/-- `FilterCompiler.formatValue`: the SQL text of a literal other than null. -/
def Dialect.literal (dialect : Dialect) : Literal → String
  | .text value => dialect.quoteString value
  | .number value => value.text
  | .boolean true => "true"
  | .boolean false => "false"
  | .null => "NULL"

namespace Target

/-- `compileComparison`, once the column has its name: the comparison of a quoted column with a
literal.  Null is compared by equality only, and patterns are texts. -/
def comparison (target : Target) (column : String) (operator : Operator) (value : Literal) :
    Fragment :=
  match operator, value with
  | .equal, .null => .valid (column ++ " IS NULL")
  | operator, .null => .invalid (.orderWithNull operator)
  | .like, .text pattern =>
    .valid (column ++ " LIKE " ++ target.dialect.quoteString (Wildcard.sqlPattern pattern))
  | .like, _ => .invalid .patternNotText
  | operator, value =>
    .valid (column ++ " " ++ operator.sql ++ " " ++ target.dialect.literal value)

/-- Continues with the SQL text of a fragment, if it has one. -/
def andThen (fragment : Fragment) (next : String → Logged Value.Indescribable Fragment) :
    Logged Value.Indescribable Fragment :=
  match fragment with
  | .valid sql => next sql
  | .invalid reason => pure (.invalid reason)

/-- `compileNotNull` and what `compileLogical` does without it: the negation of an operand with the
given SQL text.  The negated comparison with null has a form of its own, for which the column is
looked up once more. -/
def negation (target : Target) (relation : Relation) (operand : Condition) (sql : String) :
    Logged Value.Indescribable Fragment :=
  match operand with
  | .comparison column .equal .null => do
    andThen (← target.columnName relation column) fun name =>
      pure (.valid (name ++ " IS NOT NULL"))
  | _ => pure (.valid ("NOT (" ++ sql ++ ")"))

/-- `compileExpression`, with `compileComparison` and `compileLogical`: the SQL text of a condition
on the rows of a relation. -/
def compile (target : Target) (relation : Relation) :
    Condition → Logged Value.Indescribable Fragment
  | .comparison column operator value => do
    andThen (← target.columnName relation column) fun name =>
      pure (target.comparison name operator value)
  | .junction connective left right => do
    andThen (← target.compile relation left) fun leftSql => do
      andThen (← target.compile relation right) fun rightSql =>
        pure (.valid ("(" ++ leftSql ++ ") " ++ connective.symbol ++ " (" ++ rightSql ++ ")"))
  | .halfJunction connective left => do
    andThen (← target.compile relation left) fun _ =>
      pure (.invalid (.missingOperand connective))
  | .negation operand => do
    andThen (← target.compile relation operand) fun sql =>
      target.negation relation operand sql
  | .overfullNegation operand _ => do
    andThen (← target.compile relation operand) fun sql =>
      target.negation relation operand sql

/-- `FilterCompiler.compile`: the SQL text of a filter text on the rows of a relation. -/
def compileFilter (target : Target) (relation : Relation) (filter : String) :
    Logged Value.Indescribable Fragment :=
  match Filter.condition? filter with
  | .ok condition => target.compile relation condition
  | .error fault => pure (.invalid (.unreadableFilter fault))

end Target

end FilterPushdown
