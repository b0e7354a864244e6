import FilterPushdown.Text.Replace
import Mathlib.Logic.Function.Basic

/-!
Which replacements of a pair of letters can be undone.  The two letters differ, so occurrences of
the pair never overlap, and the first one shows where a text was changed first.  A sequence that
holds the pair can still be misread if it is made of copies of one text without the pair: then that
text may stand before or after the pair.  Main statement: different texts stay different exactly if
the pair occurs in the sequence and the sequence is not of that form.
-/

namespace FilterPushdown.Text

variable {α : Type} {a b : α}

/-- Whether a text consists of copies of one text in which the pattern does not occur. -/
def Repeats (pattern text : List α) : Prop :=
  ∃ part count, ¬ pattern <:+: part ∧ text = (List.replicate count part).flatten

/-! ## Occurrences of a pair -/

section Occurrences

variable {first second rest more : List α}

/-- An occurrence in two texts in a row lies in one of them or has a letter in each. -/
theorem pair_isInfix_append (occurs : [a, b] <:+: first ++ second) :
    [a, b] <:+: first ∨ [a, b] <:+: second ∨
      ∃ before after, first = before ++ [a] ∧ second = b :: after := by
  rcases List.infix_append_iff.mp occurs with
    inFirst | inSecond | ⟨left, right, split, ends, begins⟩
  · exact .inl inFirst
  · exact .inr (.inl inSecond)
  · obtain ⟨before, rfl⟩ := ends
    obtain ⟨after, rfl⟩ := begins
    match left, split with
    | [], split =>
      rw [List.nil_append] at split
      exact .inr (.inl (split ▸ ⟨[], after, rfl⟩))
    | [c], split =>
      obtain ⟨rfl, rfl⟩ := List.cons.inj split
      exact .inr (.inr ⟨before, after, rfl, rfl⟩)
    | c :: d :: left, split =>
      simp only [List.cons_append, List.cons.injEq, List.nil_eq, List.append_eq_nil_iff] at split
      obtain ⟨rfl, rfl, rfl, -⟩ := split
      exact .inl ⟨before, [], List.append_nil _⟩

theorem not_pair_isInfix_concat (different : a ≠ b) (absent : ¬ [a, b] <:+: first) :
    ¬ [a, b] <:+: first ++ [a] := by
  intro occurs
  rcases pair_isInfix_append occurs with inside | single | ⟨before, after, -, same⟩
  · exact absent inside
  · exact absurd single.length_le (by simp)
  · exact different (List.cons.inj same).1

theorem pair_isInfix (before after : List α) : [a, b] <:+: before ++ a :: b :: after :=
  List.infix_append' before [a, b] after

/-- A text in which the pair occurs has a first occurrence. -/
theorem exists_first_pair [DecidableEq α] (a b : α) (text : List α) :
    ¬ [a, b] <:+: text ∨
      ∃ before after, ¬ [a, b] <:+: before ∧ text = before ++ a :: b :: after := by
  induction text with
  | nil => exact .inl (by simp)
  | cons c text ih =>
    by_cases begins : [a, b] <+: c :: text
    · obtain ⟨after, same⟩ := begins
      exact .inr ⟨[], after, by simp, same.symm⟩
    · rcases ih with absent | ⟨before, after, absent, rfl⟩
      · exact .inl fun occurs => (List.infix_cons_iff.mp occurs).elim begins absent
      · refine .inr ⟨c :: before, after, fun occurs => ?_, rfl⟩
        rcases List.infix_cons_iff.mp occurs with early | inside
        · exact begins (early.trans ⟨a :: b :: after, rfl⟩)
        · exact absent inside

/-- What stands between two occurrences of the pair in one text is nothing, or it completes an
occurrence: the letters of the pair differ. -/
private theorem eq_nil_of_pair_append (different : a ≠ b) {middle : List α}
    (same : a :: b :: rest = middle ++ a :: b :: more) (absent : ¬ [a, b] <:+: first ++ middle) :
    middle = [] := by
  match middle, same, absent with
  | [], _, _ => rfl
  | [c], same, _ => exact absurd (List.cons.inj (List.cons.inj same).2).1.symm different
  | c :: d :: middle, same, absent =>
    simp only [List.cons_append, List.cons.injEq] at same
    obtain ⟨rfl, rfl, -⟩ := same
    exact absurd (pair_isInfix first middle) absent

/-- A text has one first occurrence. -/
theorem first_pair_unique (different : a ≠ b) (absent : ¬ [a, b] <:+: first)
    (absent' : ¬ [a, b] <:+: second)
    (same : first ++ a :: b :: rest = second ++ a :: b :: more) : first = second := by
  rcases List.append_eq_append_iff.mp same with ⟨middle, rfl, between⟩ | ⟨middle, rfl, between⟩
  · rw [eq_nil_of_pair_append different between absent', List.append_nil]
  · rw [eq_nil_of_pair_append different between absent, List.append_nil]

/-- Of two texts in a row, neither with the pair, the first occurrence comes after both or lies
across the seam between them. -/
theorem first_pair_of_append (different : a ≠ b) (absent : ¬ [a, b] <:+: first)
    (absent' : ¬ [a, b] <:+: second) {before : List α} (beforeAbsent : ¬ [a, b] <:+: before)
    (same : first ++ (second ++ a :: b :: rest) = before ++ a :: b :: more) :
    before = first ++ second ∨ first = before ++ [a] ∧ ∃ after, second = b :: after := by
  by_cases across : [a, b] <:+: first ++ second
  · rcases pair_isInfix_append across with inFirst | inSecond | ⟨letters, after, rfl, rfl⟩
    · exact absurd inFirst absent
    · exact absurd inSecond absent'
    · have lettersAbsent : ¬ [a, b] <:+: letters := fun inside =>
        absent (inside.trans (List.infix_append [] letters [a]))
      have seam : letters ++ a :: b :: (after ++ a :: b :: rest) = before ++ a :: b :: more := by
        rw [← same]
        simp
      rw [first_pair_unique different lettersAbsent beforeAbsent seam]
      exact .inr ⟨rfl, after, rfl⟩
  · rw [← List.append_assoc] at same
    exact .inl (first_pair_unique different across beforeAbsent same).symm

end Occurrences

/-! ## Replacing the first occurrence -/

section Replacing

variable [DecidableEq α] {sequence text : List α}

/-- What stands in front of the first occurrence stays. -/
theorem replace_pair_append (different : a ≠ b) {before : List α}
    (absent : ¬ [a, b] <:+: before) (after : List α) :
    replace [a, b] sequence (before ++ a :: b :: after) =
      before ++ (sequence ++ replace [a, b] sequence after) := by
  induction before with
  | nil => exact replace_append
  | cons c before ih =>
    rw [List.infix_cons_iff, not_or] at absent
    rw [List.cons_append, replace_cons_of_not_isPrefix, ih absent.2, List.cons_append]
    rintro ⟨rest, same⟩
    cases before with
    | nil => exact different (List.cons.inj (List.cons.inj same).2).1.symm
    | cons d before =>
      simp only [List.cons_append, List.cons.injEq] at same
      obtain ⟨rfl, rfl, -⟩ := same
      exact absent.1 ⟨before, rfl⟩

/-- A sequence that holds the pair puts it wherever it is put. -/
theorem pair_isInfix_replace (different : a ≠ b) (held : [a, b] <:+: sequence)
    (occurs : [a, b] <:+: text) : [a, b] <:+: replace [a, b] sequence text := by
  rcases exists_first_pair a b text with absent | ⟨before, after, absent, rfl⟩
  · exact absurd occurs absent
  · rw [replace_pair_append different absent]
    exact held.trans (List.infix_append' before sequence _)

/-- What was written for a text begins with letters and a pair that come earlier than the pair in
the sequence.  Then the text begins with these letters, and the pair lies across the seam: its first
letter is the last one of the text, its second letter the first one of the sequence. -/
private theorem first_of_replace_pair_eq (different : a ≠ b) {front back before rest : List α}
    (frontAbsent : ¬ [a, b] <:+: front) (split : sequence = front ++ a :: b :: back)
    (absent : ¬ [a, b] <:+: before) (short : before.length < front.length)
    (same : replace [a, b] sequence text = before ++ a :: b :: rest) :
    ∃ after, text = before ++ [a] ++ a :: b :: after := by
  rcases exists_first_pair a b text with none | ⟨own, after, ownAbsent, rfl⟩
  · rw [replace_of_not_isInfix none] at same
    exact absurd (same ▸ pair_isInfix before rest) none
  rw [replace_pair_append different ownAbsent, split, List.append_assoc, List.cons_append,
    List.cons_append] at same
  rcases first_pair_of_append different ownAbsent frontAbsent absent same with rfl | ⟨rfl, -⟩
  · rw [List.length_append] at short
    omega
  · exact ⟨after, rfl⟩

end Replacing

/-! ## Sequences that overlap themselves -/

/-- A text that may stand before or after a piece is made of copies of that piece and a rest. -/
theorem eq_of_append_comm {outer inner moved : List α} (nonempty : outer ≠ [])
    (same : outer ++ inner = inner ++ moved) :
    ∃ left right count, left.length < outer.length ∧ outer = left ++ right ∧
      moved = right ++ left ∧ inner = left ++ (List.replicate count moved).flatten := by
  induction length : inner.length using Nat.strongRecOn generalizing inner with
  | ind size ih =>
    rcases List.append_eq_append_iff.mp same with ⟨rest, rfl, shifted⟩ | ⟨right, rfl, rfl⟩
    · have shorter : rest.length < size := by
        have positive := List.length_pos_iff.mpr nonempty
        rw [List.length_append] at length
        omega
      obtain ⟨left, right, count, less, own, other, rfl⟩ := ih _ shorter shifted rfl
      refine ⟨left, right, count + 1, less, own, other, ?_⟩
      rw [shifted, List.replicate_succ', List.flatten_concat, List.append_assoc]
    · by_cases whole : right = []
      · refine ⟨[], inner, 1, List.length_pos_iff.mpr nonempty, ?_, ?_, ?_⟩ <;> simp [whole]
      · refine ⟨inner, right, 0, ?_, rfl, rfl, by simp⟩
        have positive := List.length_pos_iff.mpr whole
        rw [List.length_append]
        omega

section Overlap

variable {sequence front back : List α}

/-- A text that goes on with one of two texts in a row, and is longer than the first, ends inside
the other. -/
private theorem eq_append_of_longer {short long first second : List α}
    (same : short ++ first = long ++ second) (longer : short.length < long.length) :
    ∃ piece, long = short ++ piece ∧ first = piece ++ second := by
  rcases List.append_eq_append_iff.mp same with found | ⟨rest, rfl, -⟩
  · exact found
  · rw [List.length_append] at longer
    omega

/-- A beginning of a text that leaves the last letter out. -/
private theorem eq_concat_of_shorter {left right : List α} (outer : front ++ [a] = left ++ right)
    (shorter : left.length < (front ++ [a]).length) :
    ∃ tail, right = tail ++ [a] ∧ front = left ++ tail := by
  rcases List.eq_nil_or_concat right with rfl | ⟨tail, d, rfl⟩
  · rw [outer, List.append_nil] at shorter
    exact absurd shorter (Nat.lt_irrefl _)
  · rw [List.concat_eq_append, ← List.append_assoc] at outer
    obtain ⟨rfl, last⟩ := List.append_inj' outer rfl
    obtain rfl := (List.cons.inj last).1
    exact ⟨tail, List.concat_eq_append, rfl⟩

/-- A sequence that is found again behind letters without the pair overlaps itself.  Either it
consists of copies of those letters, or of copies of a piece that holds the pair across a seam. -/
private theorem pieces_of_moved (different : a ≠ b) (frontAbsent : ¬ [a, b] <:+: front)
    (split : sequence = front ++ a :: b :: back) {moved : List α} (nonempty : moved ≠ [])
    (absent : ¬ [a, b] <:+: moved) {first second : List α}
    (same : sequence ++ first = moved ++ (sequence ++ second)) :
    Repeats [a, b] sequence ∨
      ∃ lead tail copies, ¬ [a, b] <:+: tail ∧ tail.length < front.length ∧
        sequence = b :: lead ++ (List.replicate (copies + 1) (tail ++ a :: b :: lead)).flatten ∧
        first = tail ++ a :: b :: lead ++ second := by
  have goesOn (rest : List α) : sequence ++ rest = front ++ a :: b :: (back ++ rest) := by
    simp [split]
  have cut : sequence = front ++ [a] ++ b :: back := by simp [split]
  -- The pair that comes first lies across the seam, which fixes the letters in front.
  obtain ⟨rfl, start, begins⟩ : moved = front ++ [a] ∧ ∃ after, front = b :: after := by
    have both := same.symm
    rw [goesOn, goesOn] at both
    rcases first_pair_of_append different absent frontAbsent frontAbsent both with longer | seam
    · exact absurd (List.append_left_eq_self.mp longer.symm) nonempty
    · exact seam
  -- What follows these letters in the sequence is shorter than it, so a piece is left over.
  have shifted : b :: back ++ first = sequence ++ second := by
    rwa [cut, List.append_assoc (front ++ [a]), List.append_cancel_left_eq, ← cut] at same
  have longer : (b :: back).length < sequence.length := by
    rw [cut, List.length_append]
    exact Nat.lt_add_of_pos_left (List.length_pos_iff.mpr nonempty)
  obtain ⟨piece, whole, rfl⟩ := eq_append_of_longer shifted longer
  obtain ⟨left, right, copies, shorter, outer, rfl, inner⟩ :=
    eq_of_append_comm nonempty (cut.symm.trans whole)
  obtain ⟨tail, rfl, rfl⟩ := eq_concat_of_shorter outer shorter
  cases left with
  | nil =>
    refine .inl ⟨tail ++ [a], copies + 1, absent, ?_⟩
    rw [cut, inner, List.replicate_succ, List.flatten_cons]
    simp
  | cons c lead =>
    obtain rfl := (List.cons.inj begins).1
    refine .inr ⟨lead, tail, copies, ?_, ?_, ?_, by simp⟩
    · exact fun inside => frontAbsent (inside.trans (List.suffix_append _ tail).isInfix)
    · rw [List.length_append, List.length_cons]
      omega
    · rw [whole, inner, List.replicate_succ', List.flatten_concat]
      simp

variable [DecidableEq α]

/-- A sequence that begins with the second letter of the pair and ends in copies of a piece with the
pair in it, such that fewer letters stand before the pair in the piece than in the sequence.  No
result then begins with some of the copies in front of another result: the other text would have to
do the same with the rest of the copies, and so on with ever shorter texts. -/
private theorem replace_ne_copies_append (different : a ≠ b)
    (frontAbsent : ¬ [a, b] <:+: front) (split : sequence = front ++ a :: b :: back)
    {lead tail : List α} (tailAbsent : ¬ [a, b] <:+: tail) (short : tail.length < front.length)
    {copies : Nat} (overlaps : sequence =
      b :: lead ++ (List.replicate copies (tail ++ a :: b :: lead)).flatten)
    {taken left : Nat} (total : taken + left = copies + 1) (takes : 0 < taken) (leaves : 0 < left)
    (first second : List α) :
    replace [a, b] sequence first ≠
      (List.replicate taken (tail ++ a :: b :: lead)).flatten ++
        replace [a, b] sequence second := by
  intro same
  induction length : first.length + second.length using Nat.strongRecOn
    generalizing first second taken left with
  | ind size ih =>
    obtain ⟨fewer, rfl⟩ := Nat.exists_eq_succ_of_ne_zero (Nat.ne_of_gt takes)
    obtain rfl : copies = fewer + left := by omega
    have begins : replace [a, b] sequence first =
        tail ++ a :: b :: (lead ++ ((List.replicate fewer (tail ++ a :: b :: lead)).flatten ++
          replace [a, b] sequence second)) := by
      rw [same, List.replicate_succ, List.flatten_cons]
      simp
    obtain ⟨after, rfl⟩ :=
      first_of_replace_pair_eq different frontAbsent split tailAbsent short begins
    have carried : tail ++ [a] ++ sequence = tail ++ a :: b :: lead ++
        (List.replicate (fewer + left) (tail ++ a :: b :: lead)).flatten := by
      rw [overlaps]
      simp
    have written : replace [a, b] sequence (tail ++ [a] ++ a :: b :: after) =
        (List.replicate (fewer + 1 + left) (tail ++ a :: b :: lead)).flatten ++
          replace [a, b] sequence after :=
      calc
        _ = tail ++ [a] ++ (sequence ++ replace [a, b] sequence after) :=
          replace_pair_append different (not_pair_isInfix_concat different tailAbsent) after
        _ = tail ++ a :: b :: lead ++
              (List.replicate (fewer + left) (tail ++ a :: b :: lead)).flatten ++
                replace [a, b] sequence after := by
          rw [← List.append_assoc, ← carried]
        _ = _ := by rw [Nat.add_right_comm, List.replicate_succ, List.flatten_cons]
    rw [written, ← List.replicate_append_replicate, List.flatten_append, List.append_assoc,
      List.append_cancel_left_eq] at same
    have smaller : second.length + after.length < size := by
      rw [← length]
      simp only [List.length_append, List.length_cons]
      omega
    exact ih _ smaller (by omega) leaves takes second after same.symm rfl

/-- A sequence that holds the pair and does not repeat a text without it is not found again behind
letters without the pair. -/
private theorem eq_nil_of_moved (different : a ≠ b) (held : [a, b] <:+: sequence)
    (single : ¬ Repeats [a, b] sequence) {moved first second : List α}
    (absent : ¬ [a, b] <:+: moved)
    (same : sequence ++ replace [a, b] sequence first =
      moved ++ (sequence ++ replace [a, b] sequence second)) : moved = [] := by
  by_cases nonempty : moved = []
  · exact nonempty
  obtain ⟨front, back, frontAbsent, split⟩ :=
    (exists_first_pair a b sequence).resolve_left (not_not_intro held)
  obtain ⟨lead, tail, copies, tailAbsent, short, overlaps, begins⟩ :=
    (pieces_of_moved different frontAbsent split nonempty absent same).resolve_left single
  refine absurd ?_ (replace_ne_copies_append different frontAbsent split tailAbsent short overlaps
    (Nat.add_comm 1 _) Nat.one_pos (Nat.succ_pos copies) first second)
  simpa using begins

/-- If the pair occurs in the sequence, and the sequence does not repeat a text without it, then the
text can be told from what was written, by induction on its length. -/
theorem replace_pair_injective (different : a ≠ b) (held : [a, b] <:+: sequence)
    (single : ¬ Repeats [a, b] sequence) : Function.Injective (replace [a, b] sequence) := by
  intro first second same
  induction length : first.length using Nat.strongRecOn generalizing first second with
  | ind size ih =>
    rcases exists_first_pair a b first with none | ⟨before, rest, absent, rfl⟩
    · by_cases occurs : [a, b] <:+: second
      · rw [replace_of_not_isInfix none] at same
        exact absurd (same ▸ pair_isInfix_replace different held occurs) none
      · rwa [replace_of_not_isInfix none, replace_of_not_isInfix occurs] at same
    rcases exists_first_pair a b second with none | ⟨before', rest', absent', rfl⟩
    · rw [replace_of_not_isInfix none] at same
      exact absurd (same ▸ pair_isInfix_replace different held (pair_isInfix before rest)) none
    rw [replace_pair_append different absent, replace_pair_append different absent'] at same
    have start : before = before' := by
      rcases List.append_eq_append_iff.mp same with ⟨moved, rfl, later⟩ | ⟨moved, rfl, later⟩
      · have free : ¬ [a, b] <:+: moved := fun inside =>
          absent' (inside.trans (List.suffix_append before moved).isInfix)
        rw [eq_nil_of_moved different held single free later, List.append_nil]
      · have free : ¬ [a, b] <:+: moved := fun inside =>
          absent (inside.trans (List.suffix_append before' moved).isInfix)
        rw [eq_nil_of_moved different held single free later, List.append_nil]
    subst start
    have less : rest.length < size := by
      rw [← length, List.length_append, List.length_cons, List.length_cons]
      omega
    rw [ih _ less (List.append_cancel_left (List.append_cancel_left same)) rfl]

/-- A sequence without the pair has the result of the pair itself. -/
private theorem held_of_injective
    (injective : Function.Injective (replace [a, b] sequence)) : [a, b] <:+: sequence := by
  by_cases held : [a, b] <:+: sequence
  · exact held
  · have written : replace [a, b] sequence ([a, b] ++ []) = sequence := by
      rw [replace_append, replace_nil, List.append_nil]
    have same : [a, b] = sequence := injective (written.trans (replace_of_not_isInfix held).symm)
    exact same ▸ List.infix_rfl

/-- If the sequence repeats a text, then that text may stand before or after the pair. -/
private theorem not_repeats_of_injective (different : a ≠ b)
    (injective : Function.Injective (replace [a, b] sequence)) : ¬ Repeats [a, b] sequence := by
  rintro ⟨part, count, absent, repeats⟩
  have before : replace [a, b] sequence (part ++ [a, b]) = part ++ sequence := by
    rw [replace_pair_append different absent, replace_nil, List.append_nil]
  have after : replace [a, b] sequence ([a, b] ++ part) = sequence ++ part := by
    rw [replace_append, replace_of_not_isInfix absent]
  have commutes : part ++ sequence = sequence ++ part := by
    rw [repeats, ← List.flatten_cons, ← List.replicate_succ, List.replicate_succ',
      List.flatten_concat]
  have moved : part ++ a :: b :: [] = [] ++ a :: b :: part :=
    injective (before.trans (commutes.trans after.symm))
  obtain rfl := first_pair_unique different absent (by simp) moved
  have held := held_of_injective injective
  rw [repeats, List.flatten_replicate_nil] at held
  simp at held

/-- Different texts stay different exactly if the pair occurs in the sequence and the sequence does
not repeat a text without it. -/
theorem replace_pair_injective_iff (different : a ≠ b) :
    Function.Injective (replace [a, b] sequence) ↔
      [a, b] <:+: sequence ∧ ¬ Repeats [a, b] sequence :=
  ⟨fun injective => ⟨held_of_injective injective, not_repeats_of_injective different injective⟩,
    fun ⟨held, single⟩ => replace_pair_injective different held single⟩

end Overlap

/-- Copies of a text without the pair hold the pair only across their seams. -/
private theorem ends_of_pair_isInfix_copies {part : List α} (absent : ¬ [a, b] <:+: part)
    {count : Nat} (held : [a, b] <:+: (List.replicate count part).flatten) :
    part.head? = some b ∧ part.getLast? = some a := by
  induction count with
  | zero => simp at held
  | succ count ih =>
    rw [List.replicate_succ, List.flatten_cons] at held
    rcases pair_isInfix_append held with inside | later | ⟨before, after, ends, begins⟩
    · exact absurd inside absent
    · exact ih later
    · cases count with
      | zero => cases begins
      | succ count =>
        rw [List.replicate_succ, List.flatten_cons, ends] at begins
        refine ⟨?_, by simp [ends]⟩
        have first := congrArg List.head? begins
        rw [← ends] at first
        simpa [ends] using first

/-- A sequence that holds the pair and repeats a text without it begins with the second letter of
the pair and ends with the first. -/
theorem ends_of_repeats {sequence : List α} (held : [a, b] <:+: sequence)
    (repeats : Repeats [a, b] sequence) :
    sequence.head? = some b ∧ sequence.getLast? = some a := by
  obtain ⟨part, count, absent, rfl⟩ := repeats
  obtain ⟨begins, ends⟩ := ends_of_pair_isInfix_copies absent held
  cases count with
  | zero => simp at held
  | succ count =>
    constructor
    · rw [List.replicate_succ, List.flatten_cons, List.head?_append, begins, Option.some_or]
    · rw [List.replicate_succ', List.flatten_concat, List.getLast?_append, ends, Option.some_or]

end FilterPushdown.Text
