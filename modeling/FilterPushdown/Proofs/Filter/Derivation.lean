import FilterPushdown.Filter.Exact.Phrases
import FilterPushdown.Filter.Reading

/-!
Induction over the derivations of filter texts.  Groups, operands and chains are built from each
other, so a property of phrases is proved for all of them at once: it has to hold of the phrases
that have no parts, and to pass from the parts of a phrase to the phrase.  What stands between two
parts is given only as far as every connective allows it.
-/

namespace FilterPushdown.Filter.Grammar

/-- What stands between two phrases that are joined: a connective with any spaces, or spaces alone,
which count as AND. -/
inductive Glue : Connective → List Char → Prop where
  | symbol (connective : Connective) (before : Spaces left) (after : Spaces right) :
      Glue connective (left ++ (connective.symbol.toList ++ right))
  | spaces (between : SomeSpaces gap) : Glue .and gap

/-- A property of words and their trees that passes from the parts of a phrase to the phrase. -/
structure PhraseProperty (P : List Char → Tree → Prop) : Prop where
  nothing : Spaces word → P ('(' :: (word ++ [')'])) (.group .empty)
  tag : IsTag word tree → P word tree
  dash : IsTag word tree → P ('-' :: word) (.negated .dash tree)
  not : SomeSpaces gap → P word tree → P (['N', 'O', 'T'] ++ (gap ++ word)) (.negated .word tree)
  group : Spaces left → P word tree → Spaces right →
    P ('(' :: (left ++ (word ++ (right ++ [')'])))) (.group tree)
  joined {connective : Connective} : P left first → Glue connective glue → P right second →
    P (left ++ (glue ++ right)) (.logical connective first second)

namespace PhraseProperty

variable {P : List Char → Tree → Prop} {word : List Char} {tree : Tree}

/-- Every chain has the property. -/
theorem of_isChain (passes : PhraseProperty P) (inside : IsChain word tree) : P word tree := by
  -- What stands beside a connective is a phrase and the spaces between them.
  refine @IsChain.rec (fun word tree _ => P word tree) (fun word tree _ => P word tree)
    (fun word tree _ => P word tree)
    (fun word tree _ => ∃ left gap, word = left ++ gap ∧ Spaces gap ∧ P left tree)
    (fun word tree _ => ∃ gap right, word = gap ++ right ∧ Spaces gap ∧ P right tree)
    (fun word tree _ => P word tree)
    ?group ?smallGroup ?nothing ?inGroup ?notGroup ?notTag ?dash ?tag ?beforeSpaced ?beforeGroup
    ?afterSpaced ?afterGroup ?operand ?linked ?spaced ?groupSpaced ?spacedGroup
    ?groupSpacedGroup word tree inside
  case group =>
    intro _ _ _ _ before _ after inner
    exact passes.group before inner after
  case smallGroup =>
    intro _ _ _ _ before _ after inner
    exact passes.group before inner after
  case nothing =>
    intro _ between
    exact passes.nothing between
  case inGroup =>
    intro _ _ _ inner
    exact inner
  case notGroup =>
    intro _ _ _ between _ inner
    exact passes.not between inner
  case notTag =>
    intro _ _ _ between inner
    exact passes.not between (passes.tag inner)
  case dash =>
    intro _ _ inner
    exact passes.dash inner
  case tag =>
    intro _ _ inner
    exact passes.tag inner
  case beforeSpaced =>
    intro _ _ _ _ between left
    exact ⟨_, _, rfl, between.2, left⟩
  case beforeGroup =>
    intro _ _ _ left
    exact ⟨_, [], (List.append_nil _).symm, spaces_nil, left⟩
  case afterSpaced =>
    intro _ _ _ between _ right
    exact ⟨_, _, rfl, between.2, right⟩
  case afterGroup =>
    intro _ _ _ right
    exact ⟨[], _, rfl, spaces_nil, right⟩
  case operand =>
    intro _ _ _ single
    exact single
  case linked =>
    rintro _ _ _ _ connective _ _ ⟨left, gap, rfl, spacesLeft, first⟩
      ⟨gap', right, rfl, spacesRight, second⟩
    have whole := passes.joined first (.symbol connective spacesLeft spacesRight) second
    simpa only [List.append_assoc] using whole
  case spaced =>
    intro _ _ _ _ _ _ between _ left right
    exact passes.joined left (.spaces between) right
  case groupSpaced =>
    intro _ _ _ _ _ _ between _ left right
    exact passes.joined left (.spaces between) right
  case spacedGroup =>
    intro _ _ _ _ _ _ between _ left right
    exact passes.joined left (.spaces between) right
  case groupSpacedGroup =>
    intro _ _ _ _ _ _ between _ left right
    exact passes.joined left (.spaces between) right

end PhraseProperty

end FilterPushdown.Filter.Grammar
