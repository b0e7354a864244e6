import FilterPushdown.Number.Text
import FilterPushdown.Proofs.Number.Shortest

/-!
What a numeric literal denotes.  The reader takes the literal apart where its digits end, so it
does not depend on how the literal was laid out.  Main statement: the text of a finite number
denotes the decimal that the number is written as, whatever the layout.
-/

namespace FilterPushdown

namespace Sql

/-! ## Reading numeric literals -/

/-- The value of a text of digits. -/
def wholeNumber? (text : List Char) : Option Nat :=
  if text ≠ [] ∧ text.all Char.isDigit then some (Nat.ofDigitChars 10 text 0) else none

/-- The value of an exponent with an optional sign. -/
def signedNumber? : List Char → Option ℤ
  | '-' :: text => (wholeNumber? text).map fun (value : Nat) => -(value : ℤ)
  | '+' :: text => (wholeNumber? text).map fun (value : Nat) => (value : ℤ)
  | text => (wholeNumber? text).map fun (value : Nat) => (value : ℤ)

/-- The exponent that ends a literal, if it has one. -/
def exponent? : List Char → Option ℤ
  | [] => some 0
  | c :: text => if c = 'e' then signedNumber? text else none

/-- The digits after a point, if there is one, and what comes after them. -/
def fraction? : List Char → Option (List Char × List Char)
  | '.' :: text =>
    if text.takeWhile Char.isDigit = [] then none
    else some (text.takeWhile Char.isDigit, text.dropWhile Char.isDigit)
  | text => some ([], text)

/-- The value of digits with an exponent. -/
def scaled (digits : List Char) (exponent : ℤ) : ℚ := Nat.ofDigitChars 10 digits 0 * 10 ^ exponent

/-- The value of a literal without a sign. -/
def unsigned? (text : List Char) : Option ℚ := do
  let whole := text.takeWhile Char.isDigit
  guard (whole ≠ [])
  let (places, rest) ← fraction? (text.dropWhile Char.isDigit)
  let exponent ← exponent? rest
  return scaled (whole ++ places) (exponent - places.length)

/-- The value of a numeric literal: an optional minus, digits, an optional fraction and an optional
exponent. -/
def number? : List Char → Option ℚ
  | '-' :: text => (unsigned? text).map fun value => -value
  | text => unsigned? text

/-! ## Literals with known parts -/

/-- Digits end where a letter comes that is none. -/
def EndsDigits (rest : List Char) : Prop := ∀ c ∈ rest.head?, c.isDigit = false

variable {digits whole places rest : List Char} {exponent : ℤ}

private theorem takeWhile_ends (ends : EndsDigits rest) : rest.takeWhile Char.isDigit = [] := by
  cases rest with
  | nil => rfl
  | cons c rest => exact List.takeWhile_cons_of_neg (by rw [ends c rfl]; exact Bool.false_ne_true)

theorem takeWhile_digits (all : ∀ c ∈ digits, c.isDigit = true) (ends : EndsDigits rest) :
    (digits ++ rest).takeWhile Char.isDigit = digits := by
  rw [List.takeWhile_append_of_pos all, takeWhile_ends ends, List.append_nil]

theorem dropWhile_digits (all : ∀ c ∈ digits, c.isDigit = true) (ends : EndsDigits rest) :
    (digits ++ rest).dropWhile Char.isDigit = rest := by
  have split := @List.takeWhile_append_dropWhile _ Char.isDigit (digits ++ rest)
  rw [takeWhile_digits all ends] at split
  exact List.append_cancel_left split

/-- Places after a point, if there are any. -/
def withPoint (places : List Char) : List Char := if places = [] then [] else '.' :: places

theorem fraction?_withPoint (all : ∀ c ∈ places, c.isDigit = true) (ends : EndsDigits rest)
    (noPoint : fraction? rest = some ([], rest)) :
    fraction? (withPoint places ++ rest) = some (places, rest) := by
  unfold withPoint
  by_cases empty : places = []
  · rw [if_pos empty, empty]
    exact noPoint
  · rw [if_neg empty, List.cons_append, fraction?, takeWhile_digits all ends,
      dropWhile_digits all ends, if_neg empty]

theorem endsDigits_withPoint (ends : EndsDigits rest) : EndsDigits (withPoint places ++ rest) := by
  unfold withPoint
  split
  · exact ends
  · rintro c ⟨⟩
    rfl

/-- A literal is worth what its digits, its places and its exponent are. -/
theorem unsigned?_eq (nonempty : whole ≠ []) (all : ∀ c ∈ whole, c.isDigit = true)
    (all' : ∀ c ∈ places, c.isDigit = true) (ends : EndsDigits rest)
    (noPoint : fraction? rest = some ([], rest)) (power : exponent? rest = some exponent) :
    unsigned? (whole ++ (withPoint places ++ rest)) =
      some (scaled (whole ++ places) (exponent - places.length)) := by
  have ends' : EndsDigits (withPoint places ++ rest) := endsDigits_withPoint ends
  unfold unsigned?
  rw [takeWhile_digits all ends', dropWhile_digits all ends', fraction?_withPoint all' ends noPoint]
  simp [nonempty, power]

theorem exponent?_exponentText (exponent : ℤ) :
    exponent? ('e' :: Number.exponentText exponent) = some exponent := by
  have all : (Nat.toDigits 10 exponent.natAbs).all Char.isDigit = true :=
    List.all_eq_true.mpr fun c inside =>
      Nat.isDigit_of_mem_toDigits (by decide) (by decide) inside
  have digits : wholeNumber? (Nat.toDigits 10 exponent.natAbs) = some exponent.natAbs := by
    rw [wholeNumber?, if_pos ⟨Nat.toDigits_ne_nil, all⟩, Nat.ofDigitChars_ten_toDigits]
  unfold Number.exponentText
  rw [exponent?, if_pos rfl]
  split
  · rename_i negative
    rw [signedNumber?, digits, Option.map_some]
    congr 1
    omega
  · rename_i other
    rw [signedNumber?, digits, Option.map_some]
    congr 1
    omega

/-! ## Every layout denotes its decimal -/

theorem endsDigits_nil : EndsDigits [] := nofun

theorem endsDigits_mark : EndsDigits ('e' :: rest) := by
  rintro c ⟨⟩
  rfl

theorem scaled_zeros (digits : List Char) (count : Nat) (exponent : ℤ) :
    scaled (digits ++ List.replicate count '0') exponent = scaled digits (count + exponent) := by
  rw [scaled, scaled, Nat.ofDigitChars_append, Nat.ofDigitChars_replicate_zero,
    zpow_add₀ (by norm_num), zpow_natCast]
  push_cast
  ring

theorem zeros_scaled (digits : List Char) (count : Nat) (exponent : ℤ) :
    scaled (List.replicate count '0' ++ digits) exponent = scaled digits exponent := by
  rw [scaled, scaled, Nat.ofDigitChars_append, Nat.ofDigitChars_replicate_zero, Nat.mul_zero]

variable {decimal : Number.Decimal}

theorem toRat_eq_scaled :
    decimal.toRat = scaled decimal.digits (decimal.point - decimal.digits.length) := rfl

/-- Digits with a point, and what they are worth. -/
theorem unsigned?_plain (nonempty : whole ≠ []) (all : ∀ c ∈ whole, c.isDigit = true)
    (all' : ∀ c ∈ places, c.isDigit = true) :
    unsigned? (whole ++ withPoint places) = some (scaled (whole ++ places) (-places.length)) := by
  have read := unsigned?_eq nonempty all all' endsDigits_nil rfl rfl
  rwa [List.append_nil, zero_sub] at read

private theorem isDigit_zeros (count : Nat) : ∀ c ∈ List.replicate count '0', c.isDigit = true := by
  intro c member
  rw [List.eq_of_mem_replicate member]
  rfl

private theorem take_ne_nil {count : Nat} (positive : 0 < count) (nonempty : digits ≠ []) :
    digits.take count ≠ [] := by
  have some := List.length_pos_iff.mpr nonempty
  rw [← List.length_pos_iff, List.length_take]
  omega

/-- Zeros after the digits. -/
private theorem unsigned?_padded (nonempty : digits ≠ []) (all : ∀ c ∈ digits, c.isDigit = true)
    (count : Nat) :
    unsigned? (digits ++ List.replicate count '0') = some (scaled digits count) := by
  have inside : ∀ c ∈ digits ++ List.replicate count '0', c.isDigit = true :=
    fun c member => (List.mem_append.mp member).elim (all c) (isDigit_zeros count c)
  have read := unsigned?_plain (List.append_ne_nil_of_left_ne_nil nonempty _) inside
    (List.forall_mem_nil _)
  rwa [withPoint, if_pos rfl, List.append_nil, List.length_nil, Nat.cast_zero, neg_zero,
    scaled_zeros, add_zero] at read

/-- A point among the digits. -/
private theorem unsigned?_pointed (all : ∀ c ∈ digits, c.isDigit = true) {count : Nat}
    (positive : 0 < count) (inside : count < digits.length) :
    unsigned? (digits.take count ++ '.' :: digits.drop count) =
      some (scaled digits (count - digits.length)) := by
  have before := take_ne_nil positive (List.ne_nil_of_length_pos (positive.trans inside))
  have after : digits.drop count ≠ [] := by
    rw [← List.length_pos_iff, List.length_drop]
    omega
  have read := @unsigned?_plain _ (digits.drop count) before
    (fun c member => all c (List.mem_of_mem_take member))
    (fun c member => all c (List.mem_of_mem_drop member))
  rwa [withPoint, if_neg after, List.take_append_drop, List.length_drop, Nat.cast_sub inside.le,
    neg_sub] at read

/-- Zeros between the point and the digits. -/
private theorem unsigned?_leading (nonempty : digits ≠ []) (all : ∀ c ∈ digits, c.isDigit = true)
    (count : Nat) :
    unsigned? ('0' :: '.' :: (List.replicate count '0' ++ digits)) =
      some (scaled digits (-count - digits.length)) := by
  have inside : ∀ c ∈ List.replicate count '0' ++ digits, c.isDigit = true :=
    fun c member => (List.mem_append.mp member).elim (isDigit_zeros count c) (all c)
  have read := unsigned?_plain (List.cons_ne_nil '0' []) (isDigit_zeros 1) inside
  have zeros : ['0'] ++ (List.replicate count '0' ++ digits) =
      List.replicate (count + 1) '0' ++ digits := by
    rw [List.replicate_succ]
    rfl
  rwa [withPoint, if_neg (List.append_ne_nil_of_right_ne_nil _ nonempty), zeros, zeros_scaled,
    List.length_append, List.length_replicate, List.singleton_append, Nat.cast_add, neg_add'] at read

/-- A point after the first digit, and an exponent. -/
private theorem unsigned?_scientific (nonempty : digits ≠ [])
    (all : ∀ c ∈ digits, c.isDigit = true) (exponent : ℤ) :
    unsigned? (digits.take 1 ++ (if digits.length ≤ 1 then [] else '.' :: digits.drop 1) ++
        'e' :: Number.exponentText exponent) =
      some (scaled digits (exponent + 1 - digits.length)) := by
  have point : (if digits.length ≤ 1 then [] else '.' :: digits.drop 1) =
      withPoint (digits.drop 1) := by
    simp only [withPoint, List.drop_eq_nil_iff]
  have some := List.length_pos_iff.mpr nonempty
  rw [point, List.append_assoc, unsigned?_eq (take_ne_nil Nat.one_pos nonempty)
    (fun c member => all c (List.mem_of_mem_take member))
    (fun c member => all c (List.mem_of_mem_drop member)) endsDigits_mark rfl
    (exponent?_exponentText _), List.take_append_drop, List.length_drop]
  congr 2
  omega

theorem unsigned?_write (layout : Number.Layout) (nonempty : decimal.digits ≠ [])
    (all : ∀ c ∈ decimal.digits, c.isDigit = true) :
    unsigned? (layout.write decimal) = some decimal.toRat := by
  unfold Number.Layout.write
  dsimp only
  rw [toRat_eq_scaled]
  split
  · rename_i range
    split
    · rename_i shorter
      rw [unsigned?_padded nonempty all]
      congr 2
      omega
    · rename_i longer
      rw [unsigned?_pointed all (by omega) (by omega)]
      congr 2
      omega
  · split
    · rename_i range
      rw [unsigned?_leading nonempty all]
      congr 2
      omega
    · rw [unsigned?_scientific nonempty all]
      congr 2
      omega

/-! ## The text of a number -/

theorem unsigned?_zero : unsigned? ['0'] = some 0 := by
  have digit : ∀ c ∈ ['0'], c.isDigit = true := by simp
  have read := unsigned?_plain (List.cons_ne_nil '0' []) digit (List.forall_mem_nil _)
  rw [withPoint, if_pos rfl, List.append_nil] at read
  rw [read, scaled]
  simp [Nat.ofDigitChars]

theorem unsigned?_magnitudeText {rank : Nat} (finite : rank < Number.topRank) :
    unsigned? (Number.magnitudeText rank) =
      some (if rank = 0 then 0 else (Number.shortest rank).toRat) := by
  unfold Number.magnitudeText
  by_cases zero : rank = 0
  · rw [if_pos zero, if_pos zero, unsigned?_zero]
  · rw [if_neg zero, if_neg zero, if_neg (Nat.ne_of_lt finite)]
    exact unsigned?_write Number.plain (Number.shortest_digits_ne_nil zero) fun _ inside =>
      Number.isDigit_of_mem_shortest inside

/-- A literal that has a value without a sign begins with a digit. -/
theorem number?_of_unsigned? {text : List Char} {value : ℚ} (read : unsigned? text = some value) :
    number? text = some value := by
  unfold number?
  split
  · simp [unsigned?] at read
  · exact read

/-- The text of a finite number denotes the decimal that the number is written as. -/
theorem number?_text {x : Number.Double} (finite : x.IsFinite) :
    number? x.text.toList = some x.written := by
  have read := unsigned?_magnitudeText finite
  unfold Number.Double.text Number.Double.written
  rw [String.toList_ofList]
  rcases lt_trichotomy x.rank 0 with negative | zero | positive
  · rw [if_pos negative, List.singleton_append, number?, read, if_neg (by omega),
      Int.sign_eq_neg_one_of_neg negative]
    simp
  · rw [if_neg (by omega), List.nil_append, number?_of_unsigned? read, if_pos (by omega), zero]
    simp
  · rw [if_neg (by omega), List.nil_append, number?_of_unsigned? read, if_neg (by omega),
      Int.sign_eq_one_of_pos positive]
    simp

end Sql

end FilterPushdown
