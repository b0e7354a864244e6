import FilterPushdown.Fragment

/-!
Statements put together from literal SQL, fragments and parameters.  Fragments are spliced in as
they are and never disturb the numbering of the parameters; one invalid fragment leaves no
statement at all.
-/

namespace FilterPushdown

/-- `DrizzleTranslationError`: the attempt to use an invalid fragment. -/
structure SpliceError where
  reason : Reason
  deriving DecidableEq, Repr

/-- The text of a splice error. -/
def SpliceError.message (failure : SpliceError) : String :=
  "Failed to translate expression: " ++ failure.reason.message

/-- What `DrizzleExpressionTranslator.translate` splices in: the SQL text of a fragment that is to
be used. -/
def Fragment.spliced : Fragment → Except SpliceError String
  | .valid sql => .ok sql
  | .invalid reason => .error ⟨reason⟩

/-- A piece of a statement. -/
inductive Part where
  | text (sql : String)
  | fragment (fragment : Fragment)
  | parameter (value : Literal)
  deriving DecidableEq, Repr

/-- SQL text with the values of its numbered parameters. -/
structure Statement where
  sql : String
  parameters : List Literal
  deriving DecidableEq, Repr

namespace Statement

/-- `DrizzleExpressionTranslator.translate`: the statement that consists of one fragment. -/
def ofFragment (fragment : Fragment) : Except SpliceError Statement := do
  let sql ← fragment.spliced
  return ⟨sql, []⟩

/-- Writes parts one after another, the next parameter having the given number. -/
def ofPartsFrom (number : Nat) : List Part → Except SpliceError Statement
  | [] => .ok ⟨"", []⟩
  | .text sql :: parts => do
    let rest ← ofPartsFrom number parts
    return ⟨sql ++ rest.sql, rest.parameters⟩
  | .fragment fragment :: parts => do
    let sql ← fragment.spliced
    let rest ← ofPartsFrom number parts
    return ⟨sql ++ rest.sql, rest.parameters⟩
  | .parameter value :: parts => do
    let rest ← ofPartsFrom (number + 1) parts
    return ⟨"$" ++ toString number ++ rest.sql, value :: rest.parameters⟩

/-- The statement of a list of parts; its parameters are numbered from one. -/
def ofParts (parts : List Part) : Except SpliceError Statement := ofPartsFrom 1 parts

end Statement

end FilterPushdown
