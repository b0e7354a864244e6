import FilterPushdown.Proofs.Filter.LastWord

/-!
The last operand of a chain.  Which parenthesis the last one closes is a matter of the scan, so
every derivation of a chain that is balanced around its last parentheses finds the same ones; the
derivations differ only in what they make of the letters before them.
-/

namespace FilterPushdown.Filter

open Grammar

/-! ## The last operand of a chain -/

/-- What may stand before the last operand of a chain, and what becomes of the operand's tree. -/
inductive Lead : List Char → (Tree → Tree) → Prop where
  | nothing : Lead [] id
  | linked {left : List Char} {first : Tree} {gap : List Char} (connective : Connective)
      (before : BeforeConnective left first) (between : Spaces gap) :
      Lead (left ++ (connective.symbol.toList ++ gap)) (.logical connective first)
  | spaced {left : List Char} {first : Tree} {gap : List Char} (before : IsChain left first)
      (between : SomeSpaces gap) :
      Lead (left ++ gap) (.logical .and first)

/-- Every chain is its last operand and what leads to it. -/
theorem isChain_lead {word : List Char} {tree : Tree} (inside : IsChain word tree) :
    ∃ lead around right operand,
      word = lead ++ right ∧ Lead lead around ∧ IsOperand right operand ∧
        tree = around operand := by
  cases inside with
  | operand single => exact ⟨[], id, _, _, rfl, .nothing, single, rfl⟩
  | @linked _ _ _ _ connective before after =>
    cases after with
    | spaced between right =>
      exact ⟨_, _, _, _, by simp only [List.append_assoc], .linked connective before between.2,
        right, rfl⟩
    | group right =>
      exact ⟨_, _, _, _, by simp only [List.append_assoc, List.nil_append],
        .linked connective before spaces_nil, .group (isSmallGroup_isGroup right), rfl⟩
  | spaced before between after =>
    exact ⟨_, _, _, _, (List.append_assoc ..).symm, .spaced before between, after, rfl⟩
  | groupSpaced before between after =>
    exact ⟨_, _, _, _, (List.append_assoc ..).symm, .spaced (.operand (.group before)) between,
      after, rfl⟩
  | spacedGroup before between after =>
    exact ⟨_, _, _, _, (List.append_assoc ..).symm, .spaced before between,
      .group (isSmallGroup_isGroup after), rfl⟩
  | groupSpacedGroup before between after =>
    exact ⟨_, _, _, _, (List.append_assoc ..).symm, .spaced (.operand (.group before)) between,
      .group (isSmallGroup_isGroup after), rfl⟩

/-- An operand that ends in a parenthesis: what stands before the parenthesis that the last one
closes, what stands between the two, and the tree. -/
inductive Closing : List Char → List Char → Tree → Prop where
  | nothing {inner : List Char} (between : Spaces inner) : Closing [] inner (.group .empty)
  | group {inner : List Char} {tree : Tree} (inside : IsFilter inner tree) :
      Closing [] inner (.group tree)
  | negated {gap inner : List Char} {tree : Tree} (between : SomeSpaces gap)
      (inside : IsFilter inner tree) :
      Closing (['N', 'O', 'T'] ++ gap) inner (.negated .word (.group tree))

/-- Tags end otherwise, so such an operand is a group, negated or not. -/
theorem isOperand_closing {u : List Char} {tree : Tree}
    (inside : IsOperand (u ++ [')']) tree) :
    ∃ mark inner, u ++ [')'] = mark ++ '(' :: (inner ++ [')']) ∧ Closing mark inner tree := by
  generalize same : u ++ [')'] = word at inside
  cases inside with
  | nothing between => exact ⟨[], _, rfl, .nothing between⟩
  | group group =>
    obtain ⟨inner, _, rfl, rfl, inside⟩ := isGroup_inner group
    exact ⟨[], inner, rfl, .group inside⟩
  | @notGroup gap _ _ between group =>
    obtain ⟨inner, _, rfl, rfl, inside⟩ := isGroup_inner group
    exact ⟨['N', 'O', 'T'] ++ gap, inner, (List.append_assoc ..).symm, .negated between inside⟩
  | @notTag gap word tree between tag =>
    obtain ⟨v, c, rfl, -⟩ := (isTag_ends tag).last
    rw [← List.append_assoc, ← List.append_assoc] at same
    cases List.append_inj_right' same rfl
    exact absurd rfl (isTag_not_closing tag)
  | @dash word tree tag =>
    obtain ⟨v, c, rfl, -⟩ := (isTag_ends tag).last
    rw [← List.cons_append] at same
    cases List.append_inj_right' same rfl
    exact absurd rfl (isTag_not_closing tag)
  | tag tag => exact absurd same.symm (isTag_not_closing tag)

/-- A chain that ends in a parenthesis, taken apart at the parenthesis that the last one closes. -/
theorem isChain_closing {u : List Char} {tree : Tree} (inside : IsChain (u ++ [')']) tree) :
    ∃ lead around mark inner operand,
      u ++ [')'] = (lead ++ mark) ++ '(' :: (inner ++ [')']) ∧ Lead lead around ∧
        Closing mark inner operand ∧ tree = around operand := by
  obtain ⟨lead, around, right, operand, same, leads, last, rfl⟩ := isChain_lead inside
  obtain ⟨v, c, rfl, -⟩ := (isOperand_ends last).last
  have apart := same
  rw [← List.append_assoc] at apart
  cases List.append_inj_right' apart rfl
  obtain ⟨mark, inner, split, closing⟩ := isOperand_closing last
  refine ⟨lead, around, mark, inner, operand, ?_, leads, closing, rfl⟩
  rw [same, split, List.append_assoc]

/-! ## The last operand of a balanced chain -/

private theorem Scanned.balanced_or_astray {word : List Char} {tree : Tree}
    (scanned : Scanned word tree) : Balanced word ∨ Astray word :=
  scanned.imp_right And.left

theorem Lead.balanced_or_astray {lead : List Char} {around : Tree → Tree}
    (leads : Lead lead around) : Balanced lead ∨ Astray lead := by
  have followed {left rest : List Char} {first : Tree} (scanned : Scanned left first)
      (plain : Balanced rest) : Balanced (left ++ rest) ∨ Astray (left ++ rest) := by
    rcases scanned.balanced_or_astray with balanced | astray
    · exact .inl (balanced.append plain)
    · exact .inr (astray.append rest)
  cases leads with
  | nothing => exact .inl balanced_nil
  | linked connective before between =>
    have plain := (balanced_symbol connective).append (balanced_of_spaces between)
    cases before with
    | spaced left gap =>
      rw [List.append_assoc]
      exact followed (scanned_of_isChain left) ((balanced_of_spaces gap.2).append plain)
    | group left => exact followed (scanned_of_isChain (.operand (.group left))) plain
  | spaced before between =>
    exact followed (scanned_of_isChain before) (balanced_of_spaces between.2)

theorem Closing.balanced_or_astray {mark inner : List Char} {tree : Tree}
    (closing : Closing mark inner tree) :
    Balanced mark ∧ (Balanced inner ∨ Astray inner) := by
  cases closing with
  | nothing between => exact ⟨balanced_nil, .inl (balanced_of_spaces between)⟩
  | group inside => exact ⟨balanced_nil, (scanned_of_isFilter inside).balanced_or_astray⟩
  | negated between inside =>
    exact ⟨balanced_not.append (balanced_of_spaces between.2),
      (scanned_of_isFilter inside).balanced_or_astray⟩

/-- All derivations of a chain that is balanced around its last parentheses find these. -/
theorem isChain_last_parentheses {before inner : List Char} {tree : Tree}
    (balanced : Balanced before) (balancedInner : Balanced inner)
    (inside : IsChain (before ++ '(' :: (inner ++ [')'])) tree) :
    ∃ lead around mark operand, before = lead ++ mark ∧ Lead lead around ∧
      Closing mark inner operand ∧ tree = around operand := by
  have ending : before ++ '(' :: (inner ++ [')']) = (before ++ '(' :: inner) ++ [')'] := by
    simp only [List.append_assoc, List.cons_append]
  rw [ending] at inside
  obtain ⟨lead, around, mark, inner', operand, same, leads, closing, rfl⟩ := isChain_closing inside
  rw [← ending] at same
  have whole := balanced.append balancedInner.parentheses
  obtain ⟨balancedMark, scannedInner⟩ := closing.balanced_or_astray
  rw [same] at whole
  have balancedLead : Balanced lead := by
    rcases leads.balanced_or_astray with balancedLead | astray
    · exact balancedLead
    · rw [List.append_assoc] at whole
      exact absurd (astray.append _) whole.not_astray
  have balancedBefore := balancedLead.append balancedMark
  have balancedInner' : Balanced inner' := by
    rcases scannedInner with balancedInner' | astray
    · exact balancedInner'
    · exact absurd (balancedBefore.append_astray (astray.parentheses _)) whole.not_astray
  obtain ⟨rfl, rfl⟩ :=
    last_parentheses_unique balanced balancedInner balancedBefore balancedInner' same
  exact ⟨lead, around, mark, operand, rfl, leads, closing, rfl⟩

end FilterPushdown.Filter
