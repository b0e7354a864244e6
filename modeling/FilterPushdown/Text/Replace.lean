/-!
Replacement inside a text, from left to right and without looking again at what was put in.  One
letter at a time is the common case; longer patterns are needed where a whole quoting sequence is
replaced, and an empty pattern is found between every two letters.  The letters may be characters or
units of an encoding.
-/

namespace FilterPushdown.Text

variable {α : Type} [DecidableEq α]

/-- Replaces every occurrence of one letter by a text. -/
def replaceLetter (letter : α) (replacement : List α) (text : List α) : List α :=
  text.flatMap fun c => if c = letter then replacement else [c]

theorem replaceLetter_nil (letter : α) (replacement : List α) :
    replaceLetter letter replacement [] = [] := rfl

theorem replaceLetter_cons (letter c : α) (replacement text : List α) :
    replaceLetter letter replacement (c :: text) =
      (if c = letter then replacement else [c]) ++ replaceLetter letter replacement text :=
  List.flatMap_cons

theorem replaceLetter_append (letter : α) (replacement first second : List α) :
    replaceLetter letter replacement (first ++ second) =
      replaceLetter letter replacement first ++ replaceLetter letter replacement second :=
  List.flatMap_append

/-- A text without the letter stays as it is. -/
theorem replaceLetter_of_not_mem {letter : α} {replacement text : List α}
    (absent : letter ∉ text) : replaceLetter letter replacement text = text := by
  induction text with
  | nil => rfl
  | cons c text ih =>
    have different : c ≠ letter := fun same => absent (same ▸ List.mem_cons_self)
    have later : letter ∉ text := fun member => absent (List.mem_cons_of_mem c member)
    rw [replaceLetter_cons, if_neg different, ih later]
    rfl

/-- Replaces the occurrences of a nonempty pattern that do not overlap an earlier one.  The first
`covered` letters belong to an occurrence already replaced. -/
def replacePattern (pattern replacement : List α) : (covered : Nat) → List α → List α
  | _, [] => []
  | covered + 1, _ :: text => replacePattern pattern replacement covered text
  | 0, c :: text =>
    if pattern.isPrefixOf (c :: text) then
      replacement ++ replacePattern pattern replacement (pattern.length - 1) text
    else
      c :: replacePattern pattern replacement 0 text

/-- Replaces every occurrence of a pattern by a text. -/
def replace (pattern replacement text : List α) : List α :=
  match pattern with
  | [] => replacement.intercalate (text.map fun c => [c])
  | _ :: _ => replacePattern pattern replacement 0 text

/-- A pattern of one letter is replaced letter by letter. -/
theorem replace_singleton (letter : α) (replacement text : List α) :
    replace [letter] replacement text = replaceLetter letter replacement text := by
  induction text with
  | nil => rfl
  | cons c text ih =>
    simp only [replace, replaceLetter] at ih ⊢
    by_cases same : c = letter
    · simp [replacePattern, same, ih]
    · simp [replacePattern, same, Ne.symm same, ih]

/-- Letters that belong to an occurrence already replaced are passed over. -/
theorem replacePattern_covered (pattern replacement : List α) (covered : Nat) (text : List α) :
    replacePattern pattern replacement covered text =
      replacePattern pattern replacement 0 (text.drop covered) := by
  induction covered generalizing text with
  | zero => rfl
  | succ covered ih =>
    cases text with
    | nil => rfl
    | cons c text => exact ih text

section Patterns

variable {first : α} {pattern replacement text : List α}

theorem replace_nil : replace (first :: pattern) replacement [] = [] := rfl

/-- An occurrence at the beginning is replaced. -/
theorem replace_append :
    replace (first :: pattern) replacement (first :: pattern ++ text) =
      replacement ++ replace (first :: pattern) replacement text := by
  have occurs : (first :: pattern).isPrefixOf (first :: (pattern ++ text)) = true :=
    List.isPrefixOf_iff_prefix.mpr (List.prefix_append (first :: pattern) text)
  simp only [replace, List.cons_append, replacePattern, occurs, if_true, List.length_cons,
    Nat.add_sub_cancel]
  rw [replacePattern_covered, List.drop_left]

/-- Where no occurrence begins, the letter stays. -/
theorem replace_cons_of_not_isPrefix {c : α} (other : ¬ first :: pattern <+: c :: text) :
    replace (first :: pattern) replacement (c :: text) =
      c :: replace (first :: pattern) replacement text := by
  have fails : ¬ (first :: pattern).isPrefixOf (c :: text) = true :=
    mt List.isPrefixOf_iff_prefix.mp other
  simp only [replace, replacePattern, if_neg fails]

/-- A text in which the pattern does not occur stays as it is. -/
theorem replace_of_not_isInfix (absent : ¬ first :: pattern <:+: text) :
    replace (first :: pattern) replacement text = text := by
  induction text with
  | nil => rfl
  | cons c text ih =>
    rw [List.infix_cons_iff, not_or] at absent
    rw [replace_cons_of_not_isPrefix absent.1, ih absent.2]

end Patterns

end FilterPushdown.Text
