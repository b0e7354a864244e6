import FilterPushdown.Proofs.Filter.Meaning

/-!
The conditions that trees mean.  A tag means one comparison, of patterns only where equality is
asked of a text with a wildcard in it.  So a condition that is read has all its operands, and no
condition that is read compares anything but a text as a pattern.
-/

namespace FilterPushdown

/-- Whether a literal is a text with a wildcard in it. -/
def Literal.HoldsWildcard : Literal → Prop
  | .text value => '*' ∈ value.toList ∨ '?' ∈ value.toList
  | _ => False

instance (value : Literal) : Decidable value.HoldsWildcard :=
  match value with
  | .text value => inferInstanceAs (Decidable ('*' ∈ value.toList ∨ '?' ∈ value.toList))
  | .number _ => isFalse id
  | .boolean _ => isFalse id
  | .null => isFalse id

/-- A condition in which every connective has both operands and every negation one, and in which
equality with a text that holds a wildcard is the only comparison of patterns. -/
def Condition.Regular : Condition → Prop
  | .comparison _ operator value => operator = .like → value.HoldsWildcard
  | .junction _ left right => left.Regular ∧ right.Regular
  | .halfJunction _ _ => False
  | .negation operand => operand.Regular
  | .overfullNegation _ _ => False

namespace Filter

theorem hasWildcard_iff {value : String} :
    hasWildcard value = true ↔ (Literal.text value).HoldsWildcard := by
  simp only [hasWildcard, List.any_eq_true, Bool.or_eq_true, beq_iff_eq, Literal.HoldsWildcard]
  constructor
  · rintro ⟨c, member, rfl | rfl⟩
    · exact .inl member
    · exact .inr member
  · rintro (star | mark)
    · exact ⟨_, star, .inl rfl⟩
    · exact ⟨_, mark, .inr rfl⟩

/-- The comparison of a tag, with its operator spelled out. -/
theorem comparison_eq (column : String) (sign : Sign) (value : Literal) :
    comparison column sign value =
      .comparison column
        (if sign.operator = .equal ∧ value.HoldsWildcard then .like else sign.operator) value := by
  unfold comparison comparisonBy
  cases value with
  | text pattern =>
    by_cases equal : sign.operator = .equal
    · simp [equal, hasWildcard_iff]
    · simp [equal]
  | number | boolean | null => simp [Literal.HoldsWildcard]

/-- A tag means the comparison with its literal, if its term is one. -/
theorem Tree.condition?_tag_eq_ok_iff {name : Name} {sign : Sign} {term : Term}
    {condition : Condition} :
    (Tree.tag (some (name, sign)) term).condition? = .ok condition ↔
      ∃ value, term.literal? = .ok value ∧ condition = comparison name.text sign value := by
  rw [Tree.condition?_tag]
  cases term.literal? with
  | error form => simp
  | ok value => simp [eq_comm]

/-- What a tree means is regular, by induction on the tree. -/
theorem regular_of_condition? {tree : Tree} {condition : Condition}
    (converts : tree.condition? = .ok condition) : condition.Regular := by
  induction tree generalizing condition with
  | empty => cases converts
  | tag field term =>
    cases field with
    | none => cases converts
    | some field =>
      obtain ⟨value, -, rfl⟩ := Tree.condition?_tag_eq_ok_iff.mp converts
      rw [comparison_eq]
      intro pattern
      by_cases asked : field.2.operator = .equal ∧ value.HoldsWildcard
      · exact asked.2
      · rw [if_neg asked] at pattern
        cases sign : field.2 <;> simp [sign, Sign.operator] at pattern
  | logical connective left right ihLeft ihRight =>
    obtain ⟨first, second, leftMeans, rightMeans, rfl⟩ :=
      Tree.condition?_logical_eq_ok_iff.mp converts
    exact ⟨ihLeft leftMeans, ihRight rightMeans⟩
  | negated negation operand ih =>
    obtain ⟨inner, means, rfl⟩ := Tree.condition?_negated_eq_ok_iff.mp converts
    have regular : inner.Regular := ih means
    exact regular
  | group inner ih => exact ih converts

/-- Every condition that is read from a text is regular. -/
theorem regular_of_read {text : String} {condition : Condition}
    (read : condition? text = .ok condition) : condition.Regular := by
  obtain ⟨tree, -, converts⟩ := condition?_eq_ok_iff.mp read
  exact regular_of_condition? converts

/-! ## What a tree is never refused for -/

/-- The faults of nodes that no tree has: an operator that is not mapped, a value that is no scalar,
and a node of another type. -/
inductive ReadError.BeyondGrammar : ReadError → Prop where
  | operator {letters : List Char} : BeyondGrammar (.unsupportedOperator letters)
  | value {type : String} : BeyondGrammar (.unsupportedValue type)
  | node : BeyondGrammar .unsupportedNode

private theorem error_of_bind {α β ε : Type} {first : Except ε α} {next : α → Except ε β}
    {fault : ε} (fails : first >>= next = .error fault) :
    first = .error fault ∨ ∃ a, next a = .error fault := by
  cases first with
  | error own =>
    cases fails
    exact .inl rfl
  | ok a => exact .inr ⟨a, fails⟩

/-- A tree has no such fault, by induction on the tree. -/
theorem not_beyondGrammar_of_condition? {tree : Tree} {fault : ReadError}
    (fails : tree.condition? = .error fault) : ¬ fault.BeyondGrammar := by
  induction tree with
  | empty =>
    cases fails
    nofun
  | tag field term =>
    cases field with
    | none =>
      rw [Tree.condition?_unnamed] at fails
      cases fails
      nofun
    | some field =>
      rw [Tree.condition?_tag] at fails
      cases term <;> cases fails <;> nofun
  | logical connective left right ihLeft ihRight =>
    rw [Tree.condition?_logical] at fails
    rcases error_of_bind fails with inLeft | ⟨_, later⟩
    · exact ihLeft inLeft
    rcases error_of_bind later with inRight | ⟨_, joined⟩
    · exact ihRight inRight
    · cases joined
  | negated negation operand ih =>
    rw [Tree.condition?_negated] at fails
    rcases error_of_bind fails with inner | ⟨_, negates⟩
    · exact ih inner
    · cases negates
  | group inner ih => exact ih fails

/-- No filter text is refused for an operator, a value or a node that the grammar lacks. -/
theorem not_beyondGrammar_of_read {text : String} {fault : ReadError}
    (fails : condition? text = .error fault) : ¬ fault.BeyondGrammar := by
  unfold condition? at fails
  cases read : tree? text with
  | ok tree =>
    rw [read] at fails
    exact not_beyondGrammar_of_condition? fails
  | error own =>
    rw [read] at fails
    cases fails
    unfold tree? at read
    dsimp only at read
    split at read
    · cases read
    split at read
    · cases read
      nofun
    split at read <;> cases read <;> nofun

end Filter

end FilterPushdown
