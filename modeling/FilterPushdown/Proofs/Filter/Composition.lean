import FilterPushdown.Proofs.Filter.LastOperand

/-!
Filter texts in parentheses, joined by connectives.  What stands before the last operand of such a
text can only be what joins it to the chain of the operands before, and that chain has one tree by
induction.  Main statement: a joined text means the conditions of its parts, joined from the left.
-/

namespace FilterPushdown.Filter

open Grammar

/-! ## Parts and joints -/

/-- A filter text that means a condition, to be written in parentheses. -/
structure Part where
  filter : String
  condition : Condition
  reads : condition? filter = .ok condition
  /-- Whether NOT stands before the parentheses. -/
  negated : Bool

namespace Part

/-- A part as it is written. -/
def text (part : Part) : String := (if part.negated then "NOT (" else "(") ++ part.filter ++ ")"

/-- What a part means. -/
def meaning (part : Part) : Condition :=
  if part.negated then .negation part.condition else part.condition

/-- What stands before the parentheses. -/
def mark (part : Part) : List Char := if part.negated then ['N', 'O', 'T', ' '] else []

/-- The tree of a part, from the tree between its parentheses. -/
def wrap (part : Part) (inner : Tree) : Tree :=
  if part.negated then .negated .word (.group inner) else .group inner

theorem text_toList (part : Part) :
    part.text.toList = part.mark ++ '(' :: (part.filter.toList ++ [')']) := by
  unfold text mark
  rw [String.toList_append, String.toList_append]
  cases part.negated
  · rfl
  · rfl

theorem balanced_mark (part : Part) : Balanced part.mark := by
  unfold mark
  cases part.negated
  · exact balanced_nil
  · exact balanced_of_plain (by simp [marks])

end Part

/-- What stands between two parts. -/
inductive Joint where
  | and
  | or
  | space
  deriving DecidableEq, Repr

namespace Joint

/-- A joint as it is written. -/
def text : Joint → String
  | and => " AND "
  | or => " OR "
  | space => " "

/-- The connective that a joint stands for. -/
def connective : Joint → Connective
  | and => .and
  | or => .or
  | space => .and

theorem balanced_text (joint : Joint) : Balanced joint.text.toList := by
  cases joint <;> exact balanced_of_plain (by simp [marks, text])

/-- A joint is its connective between two spaces, or one space. -/
theorem text_toList (joint : Joint) :
    joint.text.toList = [' '] ++ (joint.connective.symbol.toList ++ [' ']) ∨
      joint.text.toList = [' '] ∧ joint.connective = .and := by
  cases joint with
  | and => exact .inl rfl
  | or => exact .inl rfl
  | space => exact .inr ⟨rfl, rfl⟩

end Joint

/-- Parts one after another, with a joint before each but the first. -/
def joinedText (first : Part) (rest : List (Joint × Part)) : String :=
  rest.foldl (fun text (joint, part) => text ++ joint.text ++ part.text) first.text

/-- The meanings of parts, joined from the left. -/
def joinedMeaning (first : Part) (rest : List (Joint × Part)) : Condition :=
  rest.foldl (fun condition (joint, part) => .junction joint.connective condition part.meaning)
    first.meaning

/-! ## What is between the parentheses of a part -/

theorem isBlank_of_isSpace {c : Char} (space : isSpace c = true) : Text.isBlank c = true := by
  simp only [isSpace, Bool.or_eq_true, beq_iff_eq] at space
  rcases space with (((rfl | rfl) | rfl) | rfl) | rfl <;> rfl

namespace Part

/-- The text of a part has one tree, and the tree means the condition of the part. -/
theorem exists_tree (part : Part) :
    ∃ tree, (∀ other, IsFilter part.filter.toList other ↔ other = tree) ∧
      tree.condition? = .ok part.condition :=
  condition?_eq_ok_iff.mp part.reads

variable {part : Part} {tree : Tree}

theorem balanced_filter (part : Part) : Balanced part.filter.toList := by
  obtain ⟨tree, only, converts⟩ := part.exists_tree
  rcases scanned_of_isFilter ((only tree).mpr rfl) with balanced | ⟨-, nothing⟩
  · exact balanced
  · exact absurd converts (nothing part.condition)

theorem not_spaces (part : Part) : ¬ Spaces part.filter.toList := by
  intro spaces
  obtain ⟨tree, only, converts⟩ := part.exists_tree
  have visible := visible_of_condition? ((only tree).mpr rfl) converts
  have blank : Text.allBlank part.filter = true :=
    List.all_eq_true.mpr fun c member => isBlank_of_isSpace (spaces c member)
  rw [blank] at visible
  cases visible

theorem condition?_wrap (converts : tree.condition? = .ok part.condition) :
    (part.wrap tree).condition? = .ok part.meaning := by
  unfold wrap meaning
  cases part.negated
  · exact converts
  · exact Tree.condition?_negated_eq_ok_iff.mpr ⟨part.condition, converts, rfl⟩

/-- A part is an operand. -/
theorem isOperand_text (inside : IsFilter part.filter.toList tree) :
    IsOperand part.text.toList (part.wrap tree) := by
  have group := isGroup_of_isFilter inside
  rw [text_toList]
  unfold mark wrap
  cases part.negated
  · exact .group group
  · exact .notGroup someSpaces_single group

end Part

/-! ## What may stand before a part -/

/-- Among spaces there is no letter that is none. -/
private theorem trailing_aligned {x gap gap' : List Char} {c d : Char}
    (same : c :: gap = x ++ d :: gap') (visible : isSpace d = false) (spaces : Spaces gap) :
    x = [] ∧ c = d ∧ gap = gap' := by
  cases x with
  | nil =>
    obtain ⟨letter, rest⟩ := List.cons.inj same
    exact ⟨rfl, letter, rest⟩
  | cons e x =>
    have space := spaces d (by rw [(List.cons.inj same).2]; simp)
    rw [visible] at space
    cases space

/-- The last letter before the spaces at the end of a text is in one place. -/
private theorem trailing_unique {u v gap gap' : List Char} {c d : Char}
    (same : u ++ c :: gap = v ++ d :: gap') (visible : isSpace c = false)
    (visible' : isSpace d = false) (spaces : Spaces gap) (spaces' : Spaces gap') :
    u = v ∧ c = d ∧ gap = gap' := by
  rcases List.append_eq_append_iff.mp same with ⟨x, longer, rest⟩ | ⟨x, longer, rest⟩
  · obtain ⟨rfl, letter, after⟩ := trailing_aligned rest visible' spaces
    exact ⟨by rw [longer, List.append_nil], letter, after⟩
  · obtain ⟨rfl, letter, after⟩ := trailing_aligned rest visible spaces'
    exact ⟨by rw [longer, List.append_nil], letter.symm, after.symm⟩

/-- A chain before spaces ends where the last letter before them is. -/
private theorem isChain_before_gap {u left gap gap' : List Char} {c : Char} {tree : Tree}
    (chain : IsChain left tree) (between : SomeSpaces gap')
    (same : u ++ c :: gap = left ++ gap') (visible : isSpace c = false) (spaces : Spaces gap) :
    left = u ++ [c] := by
  obtain ⟨v, d, rfl, visible'⟩ := (isChain_ends chain).last
  rw [List.append_assoc] at same
  obtain ⟨rfl, rfl, -⟩ := trailing_unique same visible visible' spaces between.2
  rfl

/-- A connective before the spaces at the end of a text, up to its last letter. -/
private theorem symbol_trailing (u gap : List Char) (connective : Connective) :
    ∃ v c, u ++ (connective.symbol.toList ++ gap) = v ++ c :: gap ∧ isSpace c = false ∧
      c ≠ 'T' ∧ c ≠ ')' := by
  cases connective with
  | and => exact ⟨u ++ ['A', 'N'], 'D', by simp [Connective.symbol], rfl, by decide, by decide⟩
  | or => exact ⟨u ++ ['O'], 'R', by simp [Connective.symbol], rfl, by decide, by decide⟩

/-- The connective before the spaces at the end of a text is one and in one place. -/
private theorem symbol_unique {u v gap gap' : List Char} {first second : Connective}
    (same : u ++ (first.symbol.toList ++ gap) = v ++ (second.symbol.toList ++ gap'))
    (spaces : Spaces gap) (spaces' : Spaces gap') : u = v ∧ first = second := by
  have and (w rest : List Char) : w ++ (Connective.and.symbol.toList ++ rest) =
      (w ++ ['A', 'N']) ++ 'D' :: rest := by simp [Connective.symbol]
  have or (w rest : List Char) : w ++ (Connective.or.symbol.toList ++ rest) =
      (w ++ ['O']) ++ 'R' :: rest := by simp [Connective.symbol]
  have d : isSpace 'D' = false := rfl
  have r : isSpace 'R' = false := rfl
  cases first with
  | and =>
    cases second with
    | and =>
      rw [and, and] at same
      obtain ⟨init, -, -⟩ := trailing_unique same d d spaces spaces'
      exact ⟨(List.append_left_inj _).mp init, rfl⟩
    | or =>
      rw [and, or] at same
      obtain ⟨-, last, -⟩ := trailing_unique same d r spaces spaces'
      cases last
  | or =>
    cases second with
    | and =>
      rw [and, or] at same
      obtain ⟨-, last, -⟩ := trailing_unique same r d spaces spaces'
      cases last
    | or =>
      rw [or, or] at same
      obtain ⟨init, -, -⟩ := trailing_unique same r r spaces spaces'
      exact ⟨(List.append_left_inj _).mp init, rfl⟩

/-- A text after which one operand is read in one way only. -/
structure OnlyLead (before : List Char) (around : Tree → Tree) : Prop where
  joins : ∀ right operand, IsOperand right operand → IsChain (before ++ right) (around operand)
  only : ∀ other, Lead before other → other = around
  balanced : Balanced before
  starts : before = [] ∨ ∃ c rest, before = c :: rest ∧ isSpace c = false
  /-- Spaces end it, and they come after a letter that is not the last one of NOT. -/
  ends : before = [] ∨ ∃ u c gap, before = u ++ c :: gap ∧ SomeSpaces gap ∧ isSpace c = false ∧
    c ≠ 'T'

theorem lead_nil {around : Tree → Tree} (leads : Lead [] around) : around = id := by
  generalize same : [] = lead at leads
  cases leads with
  | nothing => rfl
  | linked connective before between =>
    obtain ⟨v, c, split, -⟩ := symbol_trailing _ _ connective
    rw [split] at same
    simp at same
  | spaced before between =>
    exact absurd (List.append_eq_nil_iff.mp same.symm).2 between.1

/-- The first part has nothing before it. -/
theorem onlyLead_nil : OnlyLead [] id where
  joins _ _ inside := .operand inside
  only _ := lead_nil
  balanced := balanced_nil
  starts := .inl rfl
  ends := .inl rfl

/-- No chain goes on after NOT and a space as after an operand: NOT would have to be one. -/
private theorem not_lead_not {before : List Char} {around other : Tree → Tree}
    (sole : OnlyLead before around) : ¬ Lead (before ++ ['N', 'O', 'T', ' ']) other := by
  intro leads
  generalize same : before ++ ['N', 'O', 'T', ' '] = lead at leads
  have apart : before ++ ['N', 'O', 'T', ' '] = (before ++ ['N', 'O']) ++ 'T' :: [' '] := by simp
  rw [apart] at same
  have space : Spaces [' '] := someSpaces_single.2
  have letter : isSpace 'T' = false := rfl
  cases leads with
  | nothing => simp at same
  | @linked left _ gap connective first between =>
    obtain ⟨v, c, split, visible, other, -⟩ := symbol_trailing left gap connective
    rw [split] at same
    obtain ⟨-, last, -⟩ := trailing_unique same letter visible space between
    exact other last.symm
  | @spaced left _ gap chain between =>
    have whole := isChain_before_gap chain between same letter space
    rw [whole] at chain
    apply (isChain_ends chain).free
    have notLast : lastWord (before ++ ['N', 'O'] ++ ['T']) = ['N', 'O', 'T'] := by
      rcases sole.ends with rfl | ⟨v, d, gap', rfl, between', -⟩
      · rfl
      · have whole : v ++ d :: gap' ++ ['N', 'O'] ++ ['T'] =
            (v ++ [d]) ++ (gap' ++ ['N', 'O', 'T']) := by simp
        rw [whole, lastWord_after_gap between']
        rfl
    rw [notLast]
    decide

/-- Before the parentheses of a part stands what leads to the part, and NOT if it is negated. -/
private theorem last_operand {before lead mark : List Char} {around other : Tree → Tree}
    {part : Part} {tree operand : Tree} (sole : OnlyLead before around)
    (only : ∀ other, IsFilter part.filter.toList other ↔ other = tree) (leads : Lead lead other)
    (closing : Closing mark part.filter.toList operand)
    (same : before ++ part.mark = lead ++ mark) :
    lead = before ∧ operand = part.wrap tree := by
  unfold Part.mark at same
  unfold Part.wrap
  cases closing with
  | nothing between => exact absurd between part.not_spaces
  | group inside =>
    cases (only _).mp inside
    rw [List.append_nil] at same
    cases negated : part.negated with
    | false =>
      simp only [negated, Bool.false_eq_true, if_false, List.append_nil] at same ⊢
      exact ⟨same.symm, trivial⟩
    | true =>
      simp only [negated, if_true] at same
      rw [← same] at leads
      exact absurd leads (not_lead_not sole)
  | @negated gap _ _ between inside =>
    cases (only _).mp inside
    have letter : isSpace 'T' = false := rfl
    have apart : lead ++ (['N', 'O', 'T'] ++ gap) = (lead ++ ['N', 'O']) ++ 'T' :: gap := by simp
    rw [apart] at same
    cases negated : part.negated with
    | false =>
      simp only [negated, Bool.false_eq_true, if_false, List.append_nil] at same
      rcases sole.ends with rfl | ⟨u, c, gap', rfl, between', visible, other⟩
      · simp at same
      · obtain ⟨-, last, -⟩ := trailing_unique same visible letter between'.2 between.2
        exact absurd last other
    | true =>
      simp only [negated, if_true] at same ⊢
      have split : before ++ ['N', 'O', 'T', ' '] = (before ++ ['N', 'O']) ++ 'T' :: [' '] := by
        simp
      rw [split] at same
      obtain ⟨init, -, -⟩ :=
        trailing_unique same letter letter someSpaces_single.2 between.2
      exact ⟨((List.append_left_inj _).mp init).symm, trivial⟩

/-! ## Composed texts -/

/-- A chain with one tree that begins with a letter and ends in a parenthesis. -/
structure Composed (text : List Char) (tree : Tree) : Prop where
  only : ∀ other, IsChain text other ↔ other = tree
  balanced : Balanced text
  starts : ∃ c rest, text = c :: rest ∧ isSpace c = false
  ends : ∃ u, text = u ++ [')']

/-- A part after a text that leads to it in one way only. -/
theorem OnlyLead.composed {before : List Char} {around : Tree → Tree} {part : Part} {tree : Tree}
    (sole : OnlyLead before around)
    (only : ∀ other, IsFilter part.filter.toList other ↔ other = tree) :
    Composed (before ++ part.text.toList) (around (part.wrap tree)) where
  only := by
    intro other
    constructor
    · intro inside
      rw [Part.text_toList, ← List.append_assoc] at inside
      obtain ⟨lead, around', mark, operand, same, leads, closing, rfl⟩ :=
        isChain_last_parentheses (sole.balanced.append part.balanced_mark) part.balanced_filter
          inside
      obtain ⟨rfl, rfl⟩ := last_operand sole only leads closing same
      rw [sole.only around' leads]
    · rintro rfl
      exact sole.joins _ _ (Part.isOperand_text ((only tree).mpr rfl))
  balanced := by
    rw [Part.text_toList, ← List.append_assoc]
    exact (sole.balanced.append part.balanced_mark).append part.balanced_filter.parentheses
  starts := by
    rcases sole.starts with rfl | ⟨c, rest, rfl, visible⟩
    · rw [Part.text_toList]
      unfold Part.mark
      cases part.negated
      · exact ⟨'(', _, rfl, rfl⟩
      · exact ⟨'N', _, rfl, rfl⟩
    · exact ⟨c, rest ++ part.text.toList, rfl, visible⟩
  ends := by
    refine ⟨before ++ (part.mark ++ '(' :: part.filter.toList), ?_⟩
    rw [Part.text_toList]
    simp only [List.append_assoc, List.cons_append]

/-- Before a connective and after a composed text there is one tree. -/
private theorem Composed.beforeConnective {text : List Char} {tree other : Tree}
    (composed : Composed text tree) (inside : BeforeConnective (text ++ [' ']) other) :
    other = tree := by
  generalize same : text ++ [' '] = word at inside
  obtain ⟨u, ending⟩ := composed.ends
  have letter : isSpace ')' = false := rfl
  cases inside with
  | spaced chain between =>
    rw [ending, List.append_assoc] at same
    have whole := isChain_before_gap chain between same letter someSpaces_single.2
    rw [whole, ← ending] at chain
    exact (composed.only other).mp chain
  | group group =>
    obtain ⟨⟨v, c, rfl, visible⟩, -⟩ := isGroup_ends group
    cases List.append_inj_right' same rfl
    cases visible

/-- What leads on over a space is AND. -/
private theorem Composed.lead_space {text : List Char} {tree : Tree} {other : Tree → Tree}
    (composed : Composed text tree) (leads : Lead (text ++ [' ']) other) :
    other = .logical .and tree := by
  generalize same : text ++ [' '] = lead at leads
  obtain ⟨u, ending⟩ := composed.ends
  have letter : isSpace ')' = false := rfl
  cases leads with
  | nothing => simp at same
  | @linked left _ gap connective before between =>
    obtain ⟨v, c, split, visible, -, other⟩ := symbol_trailing left gap connective
    rw [ending, List.append_assoc, split] at same
    obtain ⟨-, last, -⟩ := trailing_unique same letter visible someSpaces_single.2 between
    exact absurd last.symm other
  | @spaced left first gap chain between =>
    rw [ending, List.append_assoc] at same
    have whole := isChain_before_gap chain between same letter someSpaces_single.2
    rw [whole, ← ending] at chain
    rw [(composed.only first).mp chain]

/-- What leads on over a connective between spaces is that connective. -/
private theorem Composed.lead_symbol {text : List Char} {tree : Tree} {other : Tree → Tree}
    (composed : Composed text tree) {connective : Connective}
    (leads : Lead ((text ++ [' ']) ++ (connective.symbol.toList ++ [' '])) other) :
    other = .logical connective tree := by
  generalize same : (text ++ [' ']) ++ (connective.symbol.toList ++ [' ']) = lead at leads
  have space : Spaces [' '] := someSpaces_single.2
  cases leads with
  | nothing => simp at same
  | @linked left first gap connective' before between =>
    obtain ⟨rfl, rfl⟩ := symbol_unique same space between
    rw [composed.beforeConnective before]
  | @spaced left _ gap chain between =>
    -- The connective would be the last word of a chain.
    obtain ⟨w, d, split, visible, -⟩ := symbol_trailing (text ++ [' ']) [] connective
    have apart : (text ++ [' ']) ++ (connective.symbol.toList ++ [' ']) = w ++ d :: [' '] := by
      have longer := congrArg (· ++ [' ']) split
      simpa only [List.append_assoc, List.append_nil, List.cons_append, List.nil_append]
        using longer
    rw [apart] at same
    have whole := isChain_before_gap chain between same visible space
    rw [whole, ← split, List.append_nil, List.append_assoc] at chain
    have free := (isChain_ends chain).free
    rw [lastWord_after_gap someSpaces_single] at free
    cases connective <;> exact absurd (by decide) free

theorem Composed.onlyLead {text : List Char} {tree : Tree} (composed : Composed text tree)
    (joint : Joint) :
    OnlyLead (text ++ joint.text.toList) (.logical joint.connective tree) where
  joins := by
    intro right operand inside
    have chain := (composed.only tree).mpr rfl
    have before : BeforeConnective (text ++ [' ']) tree := .spaced chain someSpaces_single
    rcases joint.text_toList with written | ⟨written, same⟩
    · have whole := @IsChain.linked _ _ _ _ joint.connective before
        (.spaced someSpaces_single inside)
      rw [written]
      simpa only [List.append_assoc] using whole
    · rw [written, same, List.append_assoc]
      exact .spaced chain someSpaces_single inside
  only := by
    intro other leads
    rcases joint.text_toList with written | ⟨written, same⟩
    · rw [written, ← List.append_assoc] at leads
      exact composed.lead_symbol leads
    · rw [written] at leads
      rw [same]
      exact composed.lead_space leads
  balanced := composed.balanced.append joint.balanced_text
  starts := by
    obtain ⟨c, rest, rfl, visible⟩ := composed.starts
    exact .inr ⟨c, rest ++ joint.text.toList, rfl, visible⟩
  ends := by
    obtain ⟨u, rfl⟩ := composed.ends
    rcases joint.text_toList with written | ⟨written, same⟩
    · obtain ⟨v, c, split, visible, other, -⟩ :=
        symbol_trailing (u ++ [')'] ++ [' ']) [' '] joint.connective
      refine .inr ⟨v, c, [' '], ?_, someSpaces_single, visible, other⟩
      rw [written, ← split, List.append_assoc (u ++ [')'])]
    · refine .inr ⟨u, ')', [' '], ?_, someSpaces_single, rfl, by decide⟩
      rw [written, List.append_assoc, List.singleton_append]

/-! ## What joined texts mean -/

/-- Spaces around a composed text would change its first letter or its last. -/
private theorem Composed.isFilter_iff {text : List Char} {tree : Tree}
    (composed : Composed text tree) (other : Tree) : IsFilter text other ↔ other = tree := by
  constructor
  · intro inside
    generalize same : text = letters at inside
    cases inside with
    | @filter left word _ right before chain after =>
      obtain ⟨c, rest, starts, visible⟩ := composed.starts
      obtain ⟨u, ends⟩ := composed.ends
      have noLeft : left = [] := by
        cases left with
        | nil => rfl
        | cons d left =>
          have space := before d List.mem_cons_self
          rw [starts] at same
          rw [← (List.cons.inj same).1, visible] at space
          cases space
      have noRight : right = [] := by
        rcases List.eq_nil_or_concat right with none | ⟨more, d, last⟩
        · exact none
        · rw [List.concat_eq_append] at last
          have space := after d (by rw [last]; simp)
          rw [ends, last, ← List.append_assoc, ← List.append_assoc] at same
          cases List.append_inj_right' same rfl
          cases space
      rw [noLeft, noRight, List.append_nil, List.nil_append] at same
      rw [← same] at chain
      exact (composed.only other).mp chain
  · rintro rfl
    have whole : IsFilter ([] ++ (text ++ [])) other :=
      .filter spaces_nil ((composed.only other).mpr rfl) spaces_nil
    rwa [List.append_nil] at whole

/-- A composed text whose tree means a condition. -/
def Composes (text : String) (condition : Condition) : Prop :=
  ∃ tree, Composed text.toList tree ∧ tree.condition? = .ok condition

theorem condition?_of_composes {text : String} {condition : Condition}
    (composes : Composes text condition) : condition? text = .ok condition := by
  obtain ⟨tree, composed, converts⟩ := composes
  exact condition?_eq_ok_iff.mpr ⟨tree, composed.isFilter_iff, converts⟩

theorem composes_first (part : Part) : Composes part.text part.meaning := by
  obtain ⟨tree, only, converts⟩ := part.exists_tree
  exact ⟨part.wrap tree, onlyLead_nil.composed only, Part.condition?_wrap converts⟩

/-- One more part joins what stands before it, whatever that was made of. -/
theorem composes_step {text : String} {condition : Condition} (composes : Composes text condition)
    (joint : Joint) (part : Part) :
    Composes (text ++ joint.text ++ part.text)
      (.junction joint.connective condition part.meaning) := by
  obtain ⟨left, composed, convertsLeft⟩ := composes
  obtain ⟨right, only, convertsRight⟩ := part.exists_tree
  refine ⟨.logical joint.connective left (part.wrap right), ?_, ?_⟩
  · rw [String.toList_append, String.toList_append]
    exact (composed.onlyLead joint).composed only
  · exact Tree.condition?_logical_eq_ok_iff.mpr
      ⟨condition, part.meaning, convertsLeft, Part.condition?_wrap convertsRight, rfl⟩

theorem composes_joined (first : Part) (rest : List (Joint × Part)) :
    Composes (joinedText first rest) (joinedMeaning first rest) := by
  suffices general : ∀ text condition, Composes text condition →
      Composes (rest.foldl (fun text (joint, part) => text ++ joint.text ++ part.text) text)
        (rest.foldl (fun condition (joint, part) =>
          .junction joint.connective condition part.meaning) condition) from
    general first.text first.meaning (composes_first first)
  induction rest with
  | nil =>
    intro text condition composes
    exact composes
  | cons next rest ih =>
    intro text condition composes
    exact ih _ _ (composes_step composes next.1 next.2)

/-- Filter texts that mean conditions, each in parentheses and with or without NOT before them, and
with AND, OR or a space between two, are a filter text that means their conditions joined from the
left: AND and OR bind alike, NOT covers its own parentheses only, and a space is AND. -/
theorem condition?_joinedText (first : Part) (rest : List (Joint × Part)) :
    condition? (joinedText first rest) = .ok (joinedMeaning first rest) :=
  condition?_of_composes (composes_joined first rest)

/-- OR comes first because it stands first, and the space after it is AND. -/
theorem space_after_or_joins_the_disjunction :
    condition? "(a:x) OR NOT (b:y) (c:z)" =
      .ok (.junction .and
        (.junction .or (.comparison "a" .equal (.text "x"))
          (.negation (.comparison "b" .equal (.text "y"))))
        (.comparison "c" .equal (.text "z"))) :=
  condition?_joinedText ⟨"a:x", _, rfl, false⟩
    [(.or, ⟨"b:y", .comparison "b" .equal (.text "y"), rfl, true⟩),
      (.space, ⟨"c:z", .comparison "c" .equal (.text "z"), rfl, false⟩)]

end FilterPushdown.Filter
