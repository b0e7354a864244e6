import FilterPushdown.Proofs.Filter.LastWord

/-!
Texts in which no space and no opening parenthesis stands outside quotes.  Phrases are joined by
spaces and parentheses only, and no phrase ends between quotes; so such a text is a filter in no
other way than as a single tag, with or without a dash.
-/

namespace FilterPushdown.Filter

open Grammar

/-! ## The texts -/

/-- Whether a scan meets no space and no opening parenthesis while it is outside quotes. -/
def Scan.Unbroken : Scan → List Char → Prop
  | _, [] => True
  | scan, c :: text =>
    (scan = outside 0 → isSpace c = false ∧ c ≠ '(') ∧ (scan.next c).Unbroken text

theorem Scan.unbroken_append {scan : Scan} {u v : List Char} :
    scan.Unbroken (u ++ v) ↔ scan.Unbroken u ∧ (scan.after u).Unbroken v := by
  induction u generalizing scan with
  | nil => simp [Unbroken, after_nil]
  | cons c u ih => simp only [List.cons_append, Unbroken, after_cons, ih, and_assoc]

/-- A balanced text in which no space and no opening parenthesis stands outside quotes. -/
structure Unbroken (text : List Char) : Prop where
  balanced : Balanced text
  unbroken : (Scan.outside 0).Unbroken text

namespace Unbroken

variable {text u v : List Char} {c : Char}

theorem append (first : Unbroken u) (second : Unbroken v) : Unbroken (u ++ v) where
  balanced := first.balanced.append second.balanced
  unbroken := by
    rw [Scan.unbroken_append, first.balanced 0]
    exact ⟨first.unbroken, second.unbroken⟩

/-- A letter that comes after a balanced beginning stands outside quotes. -/
theorem letter (whole : Unbroken (u ++ c :: v)) (before : Balanced u) :
    isSpace c = false ∧ c ≠ '(' := by
  have later := (Scan.unbroken_append.mp whole.unbroken).2
  rw [before 0] at later
  exact later.1 rfl

theorem first (whole : Unbroken (c :: v)) : isSpace c = false ∧ c ≠ '(' :=
  @letter [] v c whole balanced_nil

/-- After a balanced beginning there are no spaces. -/
theorem no_gap {gap : List Char} (whole : Unbroken (u ++ (gap ++ v))) (before : Balanced u)
    (between : Spaces gap) : gap = [] := by
  cases gap with
  | nil => rfl
  | cons c gap =>
    have visible := (whole.letter before).1
    rw [between c List.mem_cons_self] at visible
    cases visible

/-- Letters that are no marks and no spaces do not break a text. -/
theorem of_plain (plain : ∀ c ∈ text, c ∉ marks ∧ isSpace c = false) : Unbroken text := by
  refine ⟨balanced_of_plain fun c member => (plain c member).1, ?_⟩
  induction text with
  | nil => trivial
  | cons c text ih =>
    obtain ⟨noMark, visible⟩ := plain c List.mem_cons_self
    refine ⟨fun _ => ⟨visible, ?_⟩, ?_⟩
    · rintro rfl
      exact noMark (by simp [marks])
    · rw [next_outside noMark]
      exact ih fun d member => plain d (List.mem_cons_of_mem c member)

/-- Between quotes a scan is never outside them. -/
private theorem unbroken_pieces {delimiter : Char} (quote : IsQuote delimiter)
    {word : List Char} {pieces : List Piece} (inside : ArePieces delimiter word pieces) :
    (Scan.quoted delimiter 0).Unbroken word := by
  induction inside with
  | nil => trivial
  | cons piece _ ih =>
    rw [Scan.unbroken_append, after_piece quote piece]
    refine ⟨?_, ih⟩
    cases piece with
    | plain => simp [Scan.Unbroken]
    | quote | escape => simp [Scan.Unbroken, Scan.next]
    | unit first second third =>
      have shielded : ((Scan.quoted delimiter 0).next '\\').next 'u' = .quoted delimiter 0 := by
        simp [Scan.next]
      simp only [Scan.Unbroken, shielded, next_hexadecimal quote first,
        next_hexadecimal quote second, next_hexadecimal quote third]
      simp [Scan.next]

theorem of_isQuoted {delimiter : Char} (quote : IsQuote delimiter) {word : List Char}
    {value : String} (inside : IsQuoted delimiter word value) : Unbroken word where
  balanced := balanced_of_isQuoted quote inside
  unbroken := by
    cases inside with
    | quoted pieces =>
      have opened : (Scan.outside 0).next delimiter = .quoted delimiter 0 := by
        rcases quote with rfl | rfl <;> rfl
      refine ⟨fun _ => ?_, ?_⟩
      · rcases quote with rfl | rfl <;> simp [isSpace]
      · rw [opened, Scan.unbroken_append]
        exact ⟨unbroken_pieces quote pieces, by simp [Scan.Unbroken, after_pieces quote pieces]⟩

/-! ## Their phrases -/

variable {tree : Tree}

/-- A chain at the beginning is balanced, because the whole text is. -/
theorem balanced_chain (whole : Unbroken (u ++ v)) (chain : IsChain u tree) : Balanced u := by
  rcases scanned_of_isChain chain with balanced | ⟨astray, -⟩
  · exact balanced
  · exact absurd (astray.append v) whole.balanced.not_astray

theorem not_group (whole : Unbroken (u ++ v)) : ¬ IsGroup u tree := by
  intro group
  obtain ⟨inner, _, rfl, -, -⟩ := isGroup_inner group
  exact whole.first.2 rfl

/-- No gap comes after a chain. -/
theorem not_spaced {gap : List Char} (whole : Unbroken (u ++ (gap ++ v))) (chain : IsChain u tree)
    (between : SomeSpaces gap) : False :=
  between.1 (whole.no_gap (whole.balanced_chain chain) between.2)

theorem isOperand_iff (whole : Unbroken text) :
    IsOperand text tree ↔
      IsTag text tree ∨ ∃ rest inner, text = '-' :: rest ∧ IsTag rest inner ∧
        tree = .negated .dash inner := by
  constructor
  · intro inside
    cases inside with
    | nothing => exact absurd rfl whole.first.2
    | group inner =>
      rw [← List.append_nil text] at whole
      exact absurd inner whole.not_group
    | notGroup between | notTag between =>
      exact absurd (whole.no_gap balanced_not between.2) between.1
    | dash inner => exact .inr ⟨_, _, rfl, inner, rfl⟩
    | tag inner => exact .inl inner
  · rintro (inner | ⟨rest, inner, rfl, inside, rfl⟩)
    · exact .tag inner
    · exact .dash inside

/-- Such a text is a chain only as a single operand. -/
theorem isChain_iff (whole : Unbroken text) : IsChain text tree ↔ IsOperand text tree := by
  constructor
  · intro inside
    cases inside with
    | operand single => exact single
    | linked before after =>
      cases before with
      | spaced left between =>
        rw [List.append_assoc] at whole
        exact (whole.not_spaced left between).elim
      | group left => exact absurd left whole.not_group
    | spaced before between | spacedGroup before between =>
      exact (whole.not_spaced before between).elim
    | groupSpaced before | groupSpacedGroup before => exact absurd before whole.not_group
  · exact .operand

/-- Such a text is a filter only as a tag, or as a tag after a dash. -/
theorem isFilter_iff (whole : Unbroken text) :
    IsFilter text tree ↔
      IsTag text tree ∨ ∃ rest inner, text = '-' :: rest ∧ IsTag rest inner ∧
        tree = .negated .dash inner := by
  rw [← whole.isOperand_iff, ← whole.isChain_iff]
  constructor
  · intro inside
    cases inside with
    | @filter left word _ right before inner after =>
      have noLeft : left = [] := @no_gap [] (word ++ right) left whole balanced_nil before
      subst noLeft
      have noRight : right = [] := by
        have inside : Unbroken (word ++ (right ++ [])) := by simpa using whole
        exact inside.no_gap (inside.balanced_chain inner) after
      subst noRight
      simpa using inner
  · intro inner
    have inside : IsFilter ([] ++ (text ++ [])) tree := .filter spaces_nil inner spaces_nil
    simpa using inside

end Unbroken

end FilterPushdown.Filter
