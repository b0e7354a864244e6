import FilterPushdown.Filter.Exact.Words

/-!
Numbers and ranges are read exactly as the grammar has them.  As a number is read as what it is
worth, this needs that it is written in one way only: the digits end where a letter comes that is
none.
-/

namespace FilterPushdown.Filter

open Parsing Grammar

variable {τ : Type} [Letter τ] {good : TextClass τ}

/-! ## Numbers -/

private theorem reads_minus : Reads good minus fun word negative =>
    word = [] ∧ negative = false ∨ word = ['-'] ∧ negative = true := by
  refine ((Reads.result false).or
    ((Reads.char '-').map fun _ _ _ _ _ _ => rfl)).congr fun word negative => ?_
  constructor
  · rintro (⟨rfl, rfl⟩ | ⟨_, rfl, rfl⟩)
    · exact .inl ⟨rfl, rfl⟩
    · exact .inr ⟨rfl, rfl⟩
  · rintro (⟨rfl, rfl⟩ | ⟨rfl, rfl⟩)
    · exact .inl ⟨rfl, rfl⟩
    · exact .inr ⟨(), rfl, rfl⟩

private theorem digits_zero : Digits ['0'] := by
  refine ⟨List.cons_ne_nil _ _, fun c member => ?_⟩
  rw [List.mem_singleton.mp member]
  rfl

private theorem reads_fraction : Reads good fraction Fraction := by
  refine ((Reads.result []).or
    ((Reads.char '.').seqRight reads_digits ⟨_, _, rfl, digits_zero⟩)).congr fun word places => ?_
  constructor
  · rintro (⟨rfl, rfl⟩ | @⟨_, _, _, _, rfl, rfl, inside⟩)
    · exact .absent
    · exact .present inside
  · rintro (_ | inside)
    · exact .inl ⟨rfl, rfl⟩
    · exact .inr (.seq (u := ['.']) (a := ()) rfl ⟨rfl, inside⟩)

theorem reads_numeral : Reads good numeral IsNumeral := by
  refine (reads_minus.seq (reads_digits.seq reads_fraction ⟨[], [], .absent⟩
    (fun _ _ _ _ _ _ _ _ same => (Prod.mk.inj same).1)
    (fun _ _ _ _ _ _ _ _ same => (Prod.mk.inj same).2)) ⟨_, _, .seq ⟨rfl, digits_zero⟩ .absent⟩
    (fun _ _ _ _ _ _ _ _ same => (Numeral.mk.inj same).1)
    (fun _ _ _ _ _ _ _ _ same =>
      Prod.ext (Numeral.mk.inj same).2.1 (Numeral.mk.inj same).2.2)).congr fun word parts => ?_
  constructor
  · rintro @⟨_, _, _, _, ⟨rfl, rfl⟩ | ⟨rfl, rfl⟩, @⟨_, _, _, _, ⟨rfl, whole⟩, fraction⟩⟩
    · exact .positive whole fraction
    · exact .negative whole fraction
  · rintro (⟨whole, fraction⟩ | ⟨whole, fraction⟩)
    · exact .seq (u := []) (a := false) (b := (_, _)) (.inl ⟨rfl, rfl⟩)
        (.seq ⟨rfl, whole⟩ fraction)
    · exact .seq (u := ['-']) (a := true) (b := (_, _)) (.inr ⟨rfl, rfl⟩)
        (.seq ⟨rfl, whole⟩ fraction)

/-- A word of a class of letters ends where a letter outside the class comes next. -/
private theorem letters_unique {accepts : Char → Bool} {u v r s : List Char}
    (left : ∀ c ∈ u, accepts c = true) (right : ∀ c ∈ v, accepts c = true)
    (leftEnd : ∀ c rest, r = c :: rest → accepts c = false)
    (rightEnd : ∀ c rest, s = c :: rest → accepts c = false) (same : u ++ r = v ++ s) :
    u = v ∧ r = s := by
  induction u generalizing v with
  | nil =>
    cases v with
    | nil => exact ⟨rfl, same⟩
    | cons c v =>
      have outside := leftEnd c _ same
      rw [right c List.mem_cons_self] at outside
      cases outside
  | cons c u ih =>
    cases v with
    | nil =>
      have outside := rightEnd c _ same.symm
      rw [left c List.mem_cons_self] at outside
      cases outside
    | cons d v =>
      obtain ⟨rfl, rest⟩ := List.cons.inj same
      obtain ⟨rfl, ends⟩ := ih (fun d member => left d (List.mem_cons_of_mem _ member))
        (fun d member => right d (List.mem_cons_of_mem _ member)) rest
      exact ⟨rfl, ends⟩

private theorem fraction_start {word places : List Char} (fraction : Fraction word places)
    (c : Char) (rest : List Char) (same : word = c :: rest) : isDigit c = false := by
  cases fraction with
  | absent => cases same
  | present _ =>
    obtain ⟨rfl, -⟩ := List.cons.inj same
    rfl

private theorem fraction_unique {word first second : List Char} (left : Fraction word first)
    (right : Fraction word second) : first = second := by
  cases left with
  | absent =>
    cases right
    rfl
  | present _ =>
    cases right
    rfl

private theorem unsigned_unique {u v r s first second : List Char} (left : Digits u)
    (right : Digits v) (leftEnd : Fraction r first) (rightEnd : Fraction s second)
    (same : u ++ r = v ++ s) : u = v ∧ first = second := by
  obtain ⟨whole, rfl⟩ := letters_unique left.2 right.2 (fraction_start leftEnd)
    (fraction_start rightEnd) same
  exact ⟨whole, fraction_unique leftEnd rightEnd⟩

private theorem digits_not_minus {word rest other : List Char} (inside : Digits word)
    (same : word ++ rest = '-' :: other) : False := by
  cases word with
  | nil => exact inside.1 rfl
  | cons c word =>
    obtain ⟨rfl, -⟩ := List.cons.inj same
    exact absurd (inside.2 _ List.mem_cons_self) (by decide)

theorem isNumeral_unique {word : List Char} {first second : Numeral} (left : IsNumeral word first)
    (right : IsNumeral word second) : first = second := by
  generalize same : word = other at right
  cases left with
  | positive whole fraction =>
    cases right with
    | positive whole' fraction' =>
      obtain ⟨rfl, rfl⟩ := unsigned_unique whole whole' fraction fraction' same
      rfl
    | negative _ _ => exact (digits_not_minus whole same).elim
  | negative whole fraction =>
    cases right with
    | positive whole' _ => exact (digits_not_minus whole' same.symm).elim
    | negative whole' fraction' =>
      obtain ⟨rfl, rfl⟩ :=
        unsigned_unique whole whole' fraction fraction' (List.cons.inj same).2
      rfl

/-- A number, by what it is worth. -/
def NumberWord (word : List Char) (value : Number.Double) : Prop :=
  ∃ parts, IsNumeral word parts ∧ parts.value = value

theorem reads_number : Reads good number NumberWord :=
  reads_numeral.map fun _ _ _ left right _ => isNumeral_unique left right

private theorem isNumeral_zero : IsNumeral ['0'] ⟨false, ['0'], []⟩ := .positive digits_zero .absent

/-! ## Ranges -/

private theorem reads_bracket {square curly : Char} (different : curly ≠ square) :
    Reads good
      (Reader.letter fun c =>
        if c = square then some true else if c = curly then some false else none)
      fun word includes => ∃ c, word = [c] ∧ Bracket square curly c includes := by
  refine (Reads.letter ⟨square, true, if_pos rfl⟩).congr fun word includes => ?_
  constructor
  · rintro ⟨c, rfl, found⟩
    refine ⟨c, rfl, ?_⟩
    dsimp only at found
    split at found
    · rename_i same
      cases found
      exact same ▸ .square
    · split at found
      · rename_i same
        cases found
        exact same ▸ .curly
      · cases found
  · rintro ⟨c, rfl, _ | _⟩
    · exact ⟨_, rfl, if_pos rfl⟩
    · exact ⟨_, rfl, by simp [different]⟩

private theorem reads_opening : Reads good opening fun word includes =>
    ∃ c, word = [c] ∧ Bracket '[' '\x7b' c includes := reads_bracket (by decide)

private theorem reads_closing : Reads good closing fun word includes =>
    ∃ c, word = [c] ∧ Bracket ']' '\x7d' c includes := reads_bracket (by decide)

/-- A range between two numbers. -/
inductive RangeWord : List Char → Term → Prop where
  | range (opening : Bracket '[' '\x7b' first includesLowest) (lowest : IsNumeral low lowParts)
      (highest : IsNumeral high highParts) (closing : Bracket ']' '\x7d' last includesHighest) :
      RangeWord (first :: (low ++ ([' ', 'T', 'O', ' '] ++ (high ++ [last]))))
        (.range lowParts.value highParts.value includesLowest includesHighest)

theorem reads_range : Reads good range RangeWord := by
  have numbers : Reads good number NumberWord := reads_number
  have bounds := numbers.seq reads_closing ⟨_, _, _, rfl, .square⟩
    (fun _ _ _ _ _ _ _ _ same => (Prod.mk.inj same).1)
    (fun _ _ _ _ _ _ _ _ same => (Prod.mk.inj same).2)
  have upper := (Reads.word [' ', 'T', 'O', ' ']).seqRight bounds
    ⟨_, _, .seq ⟨_, isNumeral_zero, rfl⟩ ⟨_, rfl, .square⟩⟩
  have inner := numbers.seq upper
    ⟨_, _, .seq (a := ()) rfl (.seq ⟨_, isNumeral_zero, rfl⟩ ⟨_, rfl, .square⟩)⟩
    (fun _ _ _ _ _ _ _ _ same => (Prod.mk.inj same).1)
    (fun _ _ _ _ _ _ _ _ same => (Prod.mk.inj same).2)
  refine (reads_opening.seq inner
    ⟨_, _, .seq ⟨_, isNumeral_zero, rfl⟩
      (.seq (a := ()) rfl (.seq ⟨_, isNumeral_zero, rfl⟩ ⟨_, rfl, .square⟩))⟩
    (fun _ _ _ _ _ _ _ _ same => (Term.range.inj same).2.2.1)
    (fun _ _ _ _ _ _ _ _ same => ?_)).congr fun word term => ?_
  · obtain ⟨lowest, highest, -, closing⟩ := Term.range.inj same
    exact Prod.ext lowest (Prod.ext highest closing)
  · constructor
    · rintro @⟨_, _, _, _, ⟨first, rfl, opening⟩, @⟨_, _, _, _, ⟨_, lowest, rfl⟩,
        @⟨_, _, _, _, rfl, @⟨_, _, _, _, ⟨_, highest, rfl⟩, ⟨last, rfl, closing⟩⟩⟩⟩⟩
      exact .range opening lowest highest closing
    · rintro ⟨opening, lowest, highest, closing⟩
      exact .seq (u := [_]) (b := (_, _, _)) ⟨_, rfl, opening⟩ (.seq ⟨_, lowest, rfl⟩
        (.seq (a := ()) rfl (.seq ⟨_, highest, rfl⟩ ⟨_, rfl, closing⟩)))

end FilterPushdown.Filter
