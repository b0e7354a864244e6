import FilterPushdown.Text.Replace
import Mathlib.Logic.Function.Basic

/-!
Which replacements of one letter can be undone.  The letter is replaced by a sequence, and the
sequence may put text before and after the letter, or hold it several times.  Main statement:
different texts stay different exactly if the letter occurs in the sequence.
-/

namespace FilterPushdown.Text

variable {α : Type} [DecidableEq α] {letter : α} {replacement text : List α}

/-- The first occurrence of the letter moves by as much as stands before it in the sequence. -/
private theorem idxOf_replaceLetter (held : letter ∈ replacement) (occurs : letter ∈ text) :
    (replaceLetter letter replacement text).idxOf letter =
      text.idxOf letter + replacement.idxOf letter := by
  induction text with
  | nil => cases occurs
  | cons c text ih =>
    rw [replaceLetter_cons]
    by_cases same : c = letter
    · rw [if_pos same, List.idxOf_append, if_pos held, same, List.idxOf_cons_self, Nat.zero_add]
    · have later : letter ∈ text := (List.mem_cons.mp occurs).resolve_left (Ne.symm same)
      have apart : letter ∉ [c] := fun first => same (List.mem_singleton.mp first).symm
      rw [if_neg same, List.idxOf_append, if_neg apart, ih later, List.idxOf_cons]
      simp only [beq_eq_false_iff_ne.mpr same, cond_false, List.length_singleton]
      omega

/-- A text without the letter is not changed, so the letter occurs afterwards exactly if it did
before. -/
private theorem mem_replaceLetter (held : letter ∈ replacement) :
    letter ∈ replaceLetter letter replacement text ↔ letter ∈ text := by
  constructor
  · intro later
    by_cases occurs : letter ∈ text
    · exact occurs
    · rwa [replaceLetter_of_not_mem occurs] at later
  · exact fun occurs => List.mem_flatMap.mpr ⟨letter, occurs, by rwa [if_pos rfl]⟩

/-- What was written for a text shows whether the text begins with the letter: if it does, then the
first occurrence stands as far to the left as the sequence allows. -/
private theorem first_of_replaceLetter_eq (held : letter ∈ replacement) {rest : List α}
    (same : replacement ++ rest = replaceLetter letter replacement text) :
    ∃ more, text = letter :: more := by
  have occurs : letter ∈ text := by
    rw [← mem_replaceLetter held, ← same]
    exact List.mem_append_left rest held
  have places := idxOf_replaceLetter held occurs
  rw [← same, List.idxOf_append, if_pos held] at places
  cases text with
  | nil => cases occurs
  | cons c more =>
    by_cases first : c = letter
    · exact ⟨more, by rw [first]⟩
    · rw [List.idxOf_cons, beq_eq_false_iff_ne.mpr first, cond_false] at places
      omega

/-- If the letter occurs in the sequence, then the text can be told from what was written. -/
theorem replaceLetter_injective (held : letter ∈ replacement) :
    Function.Injective (replaceLetter letter replacement) := by
  intro first second same
  induction first generalizing second with
  | nil =>
    cases second with
    | nil => rfl
    | cons d second =>
      rw [replaceLetter_nil, replaceLetter_cons] at same
      have empty := (List.append_eq_nil_iff.mp same.symm).1
      split at empty
      · rw [empty] at held
        cases held
      · cases empty
  | cons c first ih =>
    by_cases begins : c = letter
    · subst begins
      rw [replaceLetter_cons, if_pos rfl] at same
      obtain ⟨more, rfl⟩ := first_of_replaceLetter_eq held same
      rw [replaceLetter_cons, if_pos rfl] at same
      rw [ih (List.append_cancel_left same)]
    · cases second with
      | nil =>
        rw [replaceLetter_cons, if_neg begins] at same
        cases same
      | cons d second =>
        by_cases other : d = letter
        · subst other
          rw [replaceLetter_cons d d, if_pos rfl] at same
          obtain ⟨more, begun⟩ := first_of_replaceLetter_eq held same.symm
          exact absurd (List.cons.inj begun).1 begins
        · rw [replaceLetter_cons, replaceLetter_cons, if_neg begins, if_neg other] at same
          obtain ⟨rfl, later⟩ := List.cons.inj same
          rw [ih later]

/-- Different texts stay different exactly if the letter occurs in the sequence.  Otherwise the
sequence itself and the letter have one result. -/
theorem replaceLetter_injective_iff :
    Function.Injective (replaceLetter letter replacement) ↔ letter ∈ replacement := by
  refine ⟨fun injective => ?_, replaceLetter_injective⟩
  by_cases held : letter ∈ replacement
  · exact held
  · have collides : replaceLetter letter replacement [letter] =
        replaceLetter letter replacement replacement := by
      rw [replaceLetter_of_not_mem held, replaceLetter_cons, if_pos rfl, replaceLetter_nil,
        List.append_nil]
    rw [← injective collides]
    exact List.mem_singleton_self letter

end FilterPushdown.Text
