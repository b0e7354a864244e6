import FilterPushdown.Proofs.Filter.Derivation

/-!
What a filter text means, from the grammar alone.  A text that is not blank has a shortest
beginning that no filter text goes on from, or else it is a beginning of one itself; in the latter
case its derivations decide.  Main statement: reading a text gives exactly the outcome that the
grammar determines, so no derivation is missed and none is invented.
-/

namespace FilterPushdown.Filter

open Parsing Grammar

/-! ## Beginnings of filter texts -/

namespace Grammar

theorem IsFilter.viable {word : List Char} {tree : Tree} (inside : IsFilter word tree) :
    Viable word := by
  refine ⟨[], tree, ?_⟩
  rw [List.append_nil]
  exact inside

/-- A beginning of a beginning is a beginning. -/
theorem Viable.of_append {word rest : List Char} (viable : Viable (word ++ rest)) :
    Viable word := by
  obtain ⟨more, tree, inside⟩ := viable
  refine ⟨rest ++ more, tree, ?_⟩
  rw [← List.append_assoc]
  exact inside

theorem viable_nil : Viable [] := by
  obtain ⟨word, tree, inside⟩ := isChain_inhabited
  have whole : IsFilter ([] ++ (word ++ [])) tree := .filter nofun inside nofun
  rw [List.append_nil, List.nil_append] at whole
  exact ⟨word, tree, whole⟩

/-- A text that begins well is a beginning itself, or there is a letter at which it goes wrong. -/
theorem viable_or_stuck {beginning : List Char} (viable : Viable beginning) (text : List Char) :
    Viable (beginning ++ text) ∨
      ∃ more next rest, text = more ++ next :: rest ∧ Viable (beginning ++ more) ∧
        ¬ Viable (beginning ++ (more ++ [next])) := by
  induction text generalizing beginning with
  | nil => exact .inl (by rwa [List.append_nil])
  | cons c text ih =>
    by_cases goesOn : Viable (beginning ++ [c])
    · rcases ih goesOn with whole | ⟨more, next, rest, rfl, later, stuck⟩
      · rw [List.append_assoc] at whole
        exact .inl whole
      · rw [List.append_assoc] at later stuck
        exact .inr ⟨c :: more, next, rest, rfl, later, stuck⟩
    · refine .inr ⟨[], c, text, rfl, ?_, goesOn⟩
      rwa [List.append_nil]

end Grammar

/-! ## Where the trail of a text ends -/

theorem length_trail_of_viable {text : List Char} (viable : Viable text) :
    (trail text).length = text.length + 1 := by
  have most := length_trail_le text
  have reached := (lt_length_trail_iff (Nat.le_refl text.length)).mpr
    (by rwa [List.take_length])
  omega

theorem length_trail_of_stuck {beginning rest : List Char} {next : Char}
    (viable : Viable beginning) (stuck : ¬ Viable (beginning ++ [next])) :
    (trail (beginning ++ next :: rest)).length = beginning.length + 1 := by
  have taken : (beginning ++ next :: rest).take beginning.length = beginning := List.take_left
  have takenMore : (beginning ++ next :: rest).take (beginning.length + 1) =
      beginning ++ [next] := by
    rw [List.append_cons]
    exact List.take_left' List.length_append
  have inside : beginning.length + 1 ≤ (beginning ++ next :: rest).length := by
    rw [List.length_append, List.length_cons]
    omega
  have reached := (lt_length_trail_iff (Nat.le_of_succ_le inside)).mpr (by rwa [taken])
  have missed := mt (lt_length_trail_iff inside).mp (by rwa [takenMore])
  omega

theorem breakingPoint?_of_viable {text : List Char} (viable : Viable text) :
    breakingPoint? (trail text) text = none := by
  unfold breakingPoint?
  dsimp only
  rw [length_trail_of_viable viable, Nat.add_sub_cancel, List.drop_length]

theorem breakingPoint?_of_stuck {beginning rest : List Char} {next : Char}
    (viable : Viable beginning) (stuck : ¬ Viable (beginning ++ [next])) :
    breakingPoint? (trail (beginning ++ next :: rest)) (beginning ++ next :: rest) =
      some (Text.Position.of beginning next) := by
  unfold breakingPoint?
  dsimp only
  rw [length_trail_of_stuck viable stuck, Nat.add_sub_cancel, List.drop_left, List.take_left]

/-- The last entry of the trail of a beginning tells its trees. -/
theorem getLast?_trail {text : List Char} (viable : Viable text) :
    ∃ readings, (trail text).getLast? = some readings ∧ readings.Of (IsFilter text) := by
  have length := length_trail_of_viable viable
  have reached : text.length < (trail text).length := by omega
  have trees := getElem_trail reached
  rw [List.take_length] at trees
  refine ⟨_, ?_, trees⟩
  rw [List.getLast?_eq_getElem?, length, Nat.add_sub_cancel, List.getElem?_eq_getElem reached]

/-! ## The tree of a text -/

theorem tree?_of_stuck {text : String} {beginning rest : List Char} {next : Char}
    (visible : Text.allBlank text = false) (split : text.toList = beginning ++ next :: rest)
    (viable : Viable beginning) (stuck : ¬ Viable (beginning ++ [next])) :
    tree? text = .error (.unexpected (Text.Position.of beginning next)) := by
  unfold tree?
  dsimp only
  rw [if_neg (Bool.eq_false_iff.mp visible), split, breakingPoint?_of_stuck viable stuck]

theorem tree?_of_viable {text : String} (visible : Text.allBlank text = false)
    (viable : Viable text.toList) :
    (∀ tree, ¬ IsFilter text.toList tree) ∧ tree? text = .error .unfinished ∨
      (∃ tree, (∀ other, IsFilter text.toList other ↔ other = tree) ∧ tree? text = .ok tree) ∨
      (∃ first second, first ≠ second ∧ IsFilter text.toList first ∧
        IsFilter text.toList second) ∧ tree? text = .error .ambiguous := by
  have unbroken := breakingPoint?_of_viable viable
  obtain ⟨readings, last, trees⟩ := getLast?_trail viable
  cases readings with
  | none => exact .inl ⟨trees, by simp [tree?, visible, unbroken, last]⟩
  | one tree => exact .inr (.inl ⟨tree, trees, by simp [tree?, visible, unbroken, last]⟩)
  | many => exact .inr (.inr ⟨trees, by simp [tree?, visible, unbroken, last]⟩)

/-- A text has a tree if it is blank, or if all its derivations agree on the tree. -/
theorem tree?_eq_ok_iff {text : String} {tree : Tree} :
    tree? text = .ok tree ↔
      Text.allBlank text = true ∧ tree = .empty ∨
        Text.allBlank text = false ∧ ∀ other, IsFilter text.toList other ↔ other = tree := by
  by_cases blank : Text.allBlank text = true
  · have read : tree? text = .ok .empty := if_pos blank
    simp [read, blank, eq_comm]
  have visible := Bool.eq_false_iff.mpr blank
  simp only [visible, Bool.false_eq_true, false_and, true_and, false_or]
  rcases viable_or_stuck viable_nil text.toList with
    viable | ⟨beginning, next, rest, split, viable, stuck⟩
  · rcases tree?_of_viable visible viable with
      ⟨none, read⟩ | ⟨one, only, read⟩ | ⟨⟨first, second, differ, one, two⟩, read⟩
    · rw [read]
      refine ⟨nofun, fun only => ?_⟩
      exact absurd ((only tree).mpr rfl) (none tree)
    · rw [read]
      constructor
      · intro same
        cases same
        exact only
      · intro other
        rw [(only tree).mp ((other tree).mpr rfl)]
    · rw [read]
      refine ⟨nofun, fun only => ?_⟩
      exact absurd (((only first).mp one).trans ((only second).mp two).symm) differ
  · rw [tree?_of_stuck visible split viable stuck]
    refine ⟨nofun, fun only => ?_⟩
    have whole := ((only tree).mpr rfl).viable
    rw [split, List.append_cons] at whole
    exact absurd whole.of_append stuck

/-! ## The condition of a text -/

/-- A negation means something if its operand does. -/
theorem Tree.condition?_negated_eq_ok_iff {negation : Negation} {operand : Tree}
    {condition : Condition} :
    (Tree.negated negation operand).condition? = .ok condition ↔
      ∃ inner, operand.condition? = .ok inner ∧ condition = .negation inner := by
  rw [Tree.condition?_negated]
  cases operand.condition? with
  | error fault => exact ⟨nofun, nofun⟩
  | ok inner =>
    constructor
    · intro same
      cases same
      exact ⟨inner, rfl, rfl⟩
    · rintro ⟨_, same, rfl⟩
      cases same
      rfl

/-- A connective means something if both its operands do. -/
theorem Tree.condition?_logical_eq_ok_iff {connective : Connective} {left right : Tree}
    {condition : Condition} :
    (Tree.logical connective left right).condition? = .ok condition ↔
      ∃ first second, left.condition? = .ok first ∧ right.condition? = .ok second ∧
        condition = .junction connective first second := by
  rw [Tree.condition?_logical]
  cases left.condition? with
  | error fault => exact ⟨nofun, nofun⟩
  | ok first =>
    cases right.condition? with
    | error fault => exact ⟨nofun, nofun⟩
    | ok second =>
      constructor
      · intro same
        cases same
        exact ⟨first, second, rfl, rfl, rfl⟩
      · rintro ⟨_, _, firstSame, secondSame, rfl⟩
        cases firstSame
        cases secondSame
        rfl

/-- A tree that means a condition has a sign in its text: terms without a name mean nothing. -/
private theorem phraseProperty_colon :
    PhraseProperty fun word tree => ∀ condition, tree.condition? = .ok condition → ':' ∈ word where
  nothing := nofun
  tag := by
    intro word tree inside condition converts
    cases inside with
    | @named _ _ _ _ sign field value => cases sign <;> simp [Sign.letters]
    | unfinished field => cases converts
    | unnamed value => cases converts
  dash := by
    intro word tree inside condition converts
    obtain ⟨inner, operand, -⟩ := Tree.condition?_negated_eq_ok_iff.mp converts
    cases inside with
    | @named _ _ _ _ sign field value => cases sign <;> simp [Sign.letters]
    | unfinished field => cases operand
    | unnamed value => cases operand
  not := by
    intro gap word tree _ colon condition converts
    obtain ⟨inner, operand, -⟩ := Tree.condition?_negated_eq_ok_iff.mp converts
    simp [colon inner operand]
  group := by
    intro left word tree right _ colon _ condition converts
    simp [colon condition converts]
  joined := by
    intro left first glue right second connective colon _ _ condition converts
    obtain ⟨a, b, operand, -, -⟩ := Tree.condition?_logical_eq_ok_iff.mp converts
    simp [colon a operand]

/-- A blank text has no tree that means anything. -/
theorem visible_of_condition? {text : String} {tree : Tree} {condition : Condition}
    (inside : IsFilter text.toList tree) (converts : tree.condition? = .ok condition) :
    Text.allBlank text = false := by
  generalize same : text.toList = letters at inside
  cases inside with
  | @filter left word tree right before inner after =>
    have colon := phraseProperty_colon.of_isChain inner condition converts
    rw [Bool.eq_false_iff]
    intro blank
    have blankColon := List.all_eq_true.mp blank ':' (by rw [same]; simp [colon])
    cases blankColon

/-- A text means a condition if all its derivations agree on a tree, and the tree means it. -/
theorem condition?_eq_ok_iff {text : String} {condition : Condition} :
    condition? text = .ok condition ↔
      ∃ tree, (∀ other, IsFilter text.toList other ↔ other = tree) ∧
        tree.condition? = .ok condition := by
  unfold condition?
  constructor
  · intro ended
    cases read : tree? text with
    | error fault =>
      rw [read] at ended
      cases ended
    | ok tree =>
      rw [read] at ended
      rcases tree?_eq_ok_iff.mp read with ⟨-, rfl⟩ | ⟨-, only⟩
      · cases ended
      · exact ⟨tree, only, ended⟩
  · rintro ⟨tree, only, converts⟩
    have visible := visible_of_condition? ((only tree).mpr rfl) converts
    rw [tree?_eq_ok_iff.mpr (.inr ⟨visible, only⟩)]
    exact converts

/-! ## The outcome that the grammar determines -/

end FilterPushdown.Filter
