import FilterPushdown.Parsing.Readings

/-!
A trail records one pass over a text: entry `k` holds the readings of the first `k` letters, and
the trail ends where no longer beginning of the text can be completed to a word.  Its length
therefore marks the first letter that cannot be consumed, and the empty trail belongs to a grammar
without words.
-/

namespace FilterPushdown.Parsing

/-- The readings of each beginning of a text, up to the last one that some word starts with. -/
abbrev Trail (α : Type) := List (Readings α)

namespace Trail

variable {α β : Type}

/-- The trail of a choice between two grammars: it reaches as far as the farther of the two. -/
def union [DecidableEq α] : Trail α → Trail α → Trail α
  | [], second => second
  | first, [] => first
  | a :: first, b :: second => a.union b :: union first second

/-- The same trail with every tree relabelled. -/
def map (f : α → β) (trail : Trail α) : Trail β :=
  List.map (Readings.map f) trail

/-- The same trail without the words whose only tree is refused.  A refused word may still be the
beginning of another one, so the trail keeps its length. -/
def refuse (refused : α → Bool) (trail : Trail α) : Trail α :=
  List.map (Readings.refuse refused) trail

end Trail

end FilterPushdown.Parsing
