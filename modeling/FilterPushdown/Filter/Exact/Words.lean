import FilterPushdown.Filter.Grammar
import FilterPushdown.Filter.Lexeme
import FilterPushdown.Parsing.Reads

/-!
Spaces, runs of letters and choices of fixed words are read exactly as the grammar has them.
-/

namespace FilterPushdown.Filter

open Parsing Grammar

variable {τ : Type} [Letter τ] {good : TextClass τ}

/-! ## Spaces -/

/-- One space. -/
def IsSpaceWord : TreeLanguage Unit := fun word _ => ∃ c, word = [c] ∧ isSpace c = true

theorem reads_space : Reads good space IsSpaceWord := by
  refine (Reads.letter ⟨' ', (), by decide⟩).congr fun word tree => ?_
  constructor
  · rintro ⟨c, rfl, found⟩
    refine ⟨c, rfl, ?_⟩
    by_cases inside : isSpace c = true
    · exact inside
    · simp [inside] at found
  · rintro ⟨c, rfl, inside⟩
    exact ⟨c, rfl, by simp [inside]⟩

private theorem items_space {word : List Char} {items : List Unit}
    (each : TreeLanguage.Items IsSpaceWord word items) : Spaces word := by
  induction each with
  | nil => exact fun c no => absurd no List.not_mem_nil
  | cons first _ ih =>
    obtain ⟨c, rfl, inside⟩ := first
    intro d member
    rcases List.mem_cons.mp member with rfl | member
    · exact inside
    · exact ih d member

private theorem space_items {word : List Char} (inside : Spaces word) :
    ∃ items, TreeLanguage.Items IsSpaceWord word items := by
  induction word with
  | nil => exact ⟨[], .nil⟩
  | cons c word ih =>
    obtain ⟨items, rest⟩ := ih fun d member => inside d (List.mem_cons_of_mem c member)
    exact ⟨() :: items, .cons (u := [c]) ⟨c, rfl, inside c List.mem_cons_self⟩ rest⟩

theorem reads_spaces : Reads good spaces fun word (_ : Unit) => Spaces word := by
  refine ((Reads.result ()).chain reads_space (fun _ ⟨_, no, _⟩ => nomatch no)
    (fun _ _ _ _ _ _ _ _ _ => rfl) (fun _ _ _ _ _ _ _ _ _ => rfl)).congr fun word tree => ?_
  rw [TreeLanguage.chain_iff]
  constructor
  · rintro ⟨u, a, v, items, ⟨rfl, rfl⟩, rest, rfl, -⟩
    exact items_space rest
  · intro inside
    obtain ⟨items, rest⟩ := space_items inside
    exact ⟨[], (), word, items, ⟨rfl, rfl⟩, rest, rfl, rfl⟩

theorem spaces_nil : Spaces [] := fun _ no => absurd no List.not_mem_nil

theorem reads_someSpaces : Reads good someSpaces fun word (_ : Unit) => SomeSpaces word := by
  refine (reads_space.seqRight reads_spaces ⟨[], (), spaces_nil⟩).congr fun word tree => ?_
  constructor
  · rintro @⟨u, a, v, b, ⟨c, rfl, first⟩, rest⟩
    refine ⟨List.cons_ne_nil c v, fun d member => ?_⟩
    rcases List.mem_cons.mp member with rfl | member
    · exact first
    · exact rest d member
  · rintro ⟨some, inside⟩
    cases word with
    | nil => exact absurd rfl some
    | cons c word =>
      exact .seq (u := [c]) (a := ()) ⟨c, rfl, inside c List.mem_cons_self⟩
        fun d member => inside d (List.mem_cons_of_mem c member)

theorem someSpaces_single : SomeSpaces [' '] := by
  refine ⟨List.cons_ne_nil _ _, fun c member => ?_⟩
  rw [List.mem_singleton.mp member]
  rfl

/-! ## Letters of a class -/

theorem reads_letters {accepts : Char → Bool} (some : ∃ c, accepts c = true) :
    Reads good (Reader.star (Reader.oneOf accepts)) fun word cs =>
      cs = word ∧ ∀ c ∈ word, accepts c = true :=
  ((Reads.oneOf some).star fun _ no => nomatch no.1).congr fun _ _ => TreeLanguage.items_letters

theorem reads_run {first rest : Char → Bool} (someFirst : ∃ c, first c = true)
    (someRest : ∃ c, rest c = true) :
    Reads good (run first rest) fun word cs => cs = word ∧ Run first rest word := by
  refine ((Reads.oneOf someFirst).seq (reads_letters someRest)
    ⟨[], [], rfl, fun _ no => absurd no List.not_mem_nil⟩
    (fun _ _ _ _ _ _ _ _ same => (List.cons.inj same).1)
    (fun _ _ _ _ _ _ _ _ same => (List.cons.inj same).2)).congr fun word cs => ?_
  constructor
  · rintro @⟨u, a, v, b, ⟨rfl, first⟩, rfl, rest⟩
    exact ⟨rfl, first, rest⟩
  · rintro ⟨rfl, inside⟩
    cases cs with
    | nil => exact inside.elim
    | cons c cs => exact .seq (u := [c]) ⟨rfl, inside.1⟩ ⟨rfl, inside.2⟩

theorem reads_digits : Reads good digits fun word cs => cs = word ∧ Digits word := by
  refine ((Reads.oneOf ⟨'0', by decide⟩).plus fun _ no => nomatch no.1).congr fun word cs => ?_
  rw [TreeLanguage.items_letters]
  constructor
  · rintro ⟨some, rfl, inside⟩
    exact ⟨rfl, some, inside⟩
  · rintro ⟨rfl, some, inside⟩
    exact ⟨some, rfl, inside⟩

/-! ## Fixed words -/

theorem reads_choice {α : Type} [DecidableEq α] (letters : α → List Char) (alternatives : List α) :
    Reads good (choice letters alternatives) fun word a => a ∈ alternatives ∧ word = letters a := by
  induction alternatives with
  | nil => exact fun text _ => .empty fun _ _ inside => absurd inside.1 List.not_mem_nil
  | cons a alternatives ih =>
    refine (((Reads.word (letters a)).map fun _ _ _ _ _ _ => rfl).or ih).congr fun word b => ?_
    constructor
    · rintro (⟨_, rfl, rfl⟩ | ⟨member, rfl⟩)
      · exact ⟨List.mem_cons_self, rfl⟩
      · exact ⟨List.mem_cons_of_mem a member, rfl⟩
    · rintro ⟨member, rfl⟩
      rcases List.mem_cons.mp member with rfl | member
      · exact .inl ⟨(), rfl, rfl⟩
      · exact .inr ⟨member, rfl⟩

theorem reads_sign : Reads good sign fun word s => word = s.letters :=
  (reads_choice Sign.letters Sign.all).congr fun _ s =>
    ⟨And.right, fun same => ⟨by cases s <;> decide, same⟩⟩

end FilterPushdown.Filter
