/-!
What is known of the trees that a grammar gives one word: that there is none, that there is
exactly one, or that there are several.  A reader that keeps every derivation never needs more:
which trees an ambiguous word has is not part of any answer, only that it has two.
-/

namespace FilterPushdown.Parsing

/-- The set of trees of one word, told apart up to "at least two". -/
inductive Readings (α : Type) where
  | none
  | one (tree : α)
  | many
  deriving DecidableEq, Repr

namespace Readings

variable {α β γ : Type}

/-- The trees of either of two sets.  Equal trees are one tree. -/
def union [DecidableEq α] : Readings α → Readings α → Readings α
  | none, second => second
  | first, none => first
  | one a, one b => if a = b then one a else many
  | one _, many => many
  | many, one _ => many
  | many, many => many

/-- The trees after relabelling by a function that keeps different trees different. -/
def map (f : α → β) : Readings α → Readings β
  | none => none
  | one a => one (f a)
  | many => many

/-- The trees put together from one tree of each set, where a different part gives a different
whole. -/
def combine (f : α → β → γ) : Readings α → Readings β → Readings γ
  | none, _ => none
  | one _, none => none
  | many, none => none
  | one a, one b => one (f a b)
  | one _, many => many
  | many, one _ => many
  | many, many => many

/-- The trees without a refused one, for a word that has no second tree. -/
def refuse (refused : α → Bool) : Readings α → Readings α
  | none => none
  | one a => if refused a then none else one a
  | many => many

end Readings

end FilterPushdown.Parsing
