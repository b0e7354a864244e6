import FilterPushdown.Proofs.Number.Search
import Mathlib.Data.List.TakeWhile
import Mathlib.Tactic.GCongr

/-!
The decimal that a double is written as.  Main statements: among the decimals that are read as the
number it has the fewest digits, and no other with as few is closer; and decimals of few digits and
whole numbers of moderate size are written as they were read.
-/

namespace FilterPushdown.Number

open Double

/-! ## Numbers of digits -/

/-- Whether a number can be written with so many significant digits. -/
def HasDigits (count : Nat) (q : ℚ) : Prop :=
  ∃ coefficient : Nat, coefficient < 10 ^ count ∧ ∃ exponent : ℤ,
    |q| = coefficient * 10 ^ exponent

theorem HasDigits.mono {count more : Nat} {q : ℚ} (digits : HasDigits count q)
    (order : count ≤ more) : HasDigits more q := by
  obtain ⟨coefficient, small, exponent, same⟩ := digits
  exact ⟨coefficient, small.trans_le (Nat.pow_le_pow_right (by decide) order), exponent, same⟩

theorem hasDigits_zero (count : Nat) : HasDigits count 0 :=
  ⟨0, Nat.pow_pos (by decide), 0, by simp⟩

theorem hasDigits_abs {count : Nat} {q : ℚ} : HasDigits count |q| ↔ HasDigits count q := by
  unfold HasDigits
  rw [abs_abs]

/-- Bounds of a number by its digits. -/
theorem digitCount_le_iff {n count : Nat} (positive : 0 < count) :
    digitCount n ≤ count ↔ n < 10 ^ count := Nat.length_toDigits_le_iff (by decide) positive

theorem digitCount_pos (n : Nat) : 0 < digitCount n := Nat.length_toDigits_pos

theorem lt_pow_digitCount (n : Nat) : n < 10 ^ digitCount n :=
  (digitCount_le_iff (digitCount_pos n)).mp le_rfl

theorem pow_digitCount_le {n : Nat} (nonzero : n ≠ 0) : 10 ^ (digitCount n - 1) ≤ n := by
  rcases Nat.eq_zero_or_pos (digitCount n - 1) with single | several
  · rw [single]
    exact Nat.one_le_iff_ne_zero.mpr nonzero
  · by_contra! small
    have fewer := (digitCount_le_iff several).mpr small
    omega

/-! ## No decimal with fewer digits -/

variable {rank coefficient dropped count : Nat} {q : ℚ}

/-- Decimals of so many digits on a finer grid lie before the last decade of the coarser one. -/
private theorem le_decade {fewer : Nat} {exponent : ℤ} (small : coefficient < 10 ^ (fewer + 1))
    (finer : exponent < dropped) :
    (coefficient : ℚ) * 10 ^ exponent ≤ (10 ^ fewer * 10 ^ dropped : Nat) := by
  have less : (coefficient : ℚ) ≤ 10 ^ (fewer + 1) := by exact_mod_cast small.le
  have power : (10 : ℚ) ^ exponent ≤ 10 ^ ((dropped : ℤ) - 1) :=
    zpow_le_zpow_right₀ (by norm_num) (by omega)
  calc (coefficient : ℚ) * 10 ^ exponent ≤ 10 ^ (fewer + 1) * 10 ^ ((dropped : ℤ) - 1) := by
        gcongr
    _ = (10 ^ fewer * 10 ^ dropped : Nat) := by
      rw [zpow_sub_one₀ (by norm_num), zpow_natCast]
      push_cast
      ring

/-- A number is not before the last decade of the grid with all its digits. -/
private theorem decade_le_expansion (nonzero : rank ≠ 0) {fewer : Nat}
    (fits : fewer + 1 + dropped = digitCount (expansion rank)) :
    10 ^ fewer * 10 ^ dropped ≤ expansion rank := by
  have decade := pow_digitCount_le (expansion_ne_zero nonzero)
  have place : digitCount (expansion rank) - 1 = fewer + dropped := by omega
  rwa [place, pow_add] at decade

/-- A decimal that is read as a number has a decimal on the grid of as many digits that is so too
and no farther: itself, or the beginning of the decade, if it is smaller. -/
theorem exists_on_grid (nonzero : rank ≠ 0) (bound : rank ≤ topRank) (same : magnitude q = rank)
    (digits : HasDigits count q) (some : 0 < count)
    (fits : count + dropped = digitCount (expansion rank)) :
    ∃ coefficient, readsBack rank coefficient dropped = true ∧
      offset rank coefficient dropped * lastPlace ≤ abs (|q| - rankValue rank) := by
  obtain ⟨coefficient, small, exponent, value⟩ := digits
  rw [ten_zpow_eq, ← mul_assoc] at value
  rcases Int.lt_or_le (exponent + 1074) dropped with finer | coarser
  · obtain ⟨fewer, rfl⟩ := Nat.exists_eq_add_of_le' some
    have above : |q| ≤ |((10 ^ fewer : Nat) : ℚ) * 10 ^ dropped * lastPlace| := by
      rw [value, abs_places]
      exact mul_le_mul_of_nonneg_right (le_decade small finer) lastPlace_pos.le
    have below : |((10 ^ fewer : Nat) : ℚ) * 10 ^ dropped * lastPlace| ≤ rankValue rank := by
      rw [abs_places, rankValue_eq]
      exact places_mono (decade_le_expansion nonzero fits)
    refine ⟨10 ^ fewer, readsBack_iff.mpr ?_, ?_⟩
    · exact magnitude_of_between bound same (.inl ⟨above, below⟩)
    · rw [← abs_sub_rankValue, ← abs_of_nonneg (places_nonneg _ _),
        abs_of_nonpos (sub_nonpos.mpr below), abs_of_nonpos (sub_nonpos.mpr (above.trans below))]
      linarith
  · obtain ⟨more, split⟩ := Int.le.dest coarser
    have own : |q| = ((coefficient * 10 ^ more : Nat) : ℚ) * 10 ^ dropped * lastPlace := by
      rw [value, ← split, zpow_add₀ (by norm_num), zpow_natCast, zpow_natCast]
      push_cast
      ring
    refine ⟨coefficient * 10 ^ more, readsBack_iff.mpr ?_, ?_⟩
    · rw [← own, ← same]
      exact magnitude_congr (abs_abs q)
    · rw [own, ← abs_sub_rankValue]

/-- A coefficient of at most so many digits, or the first one with more. -/
theorem hasDigits_places (few : coefficient ≤ 10 ^ count) (some : 0 < count) :
    HasDigits count (coefficient * 10 ^ dropped * lastPlace) := by
  have place (zeros : Nat) : (10 : ℚ) ^ ((zeros : ℤ) - 1074) = 10 ^ zeros * lastPlace := by
    rw [ten_zpow_eq, sub_add_cancel, zpow_natCast]
  rcases few.lt_or_eq with small | rfl
  · refine ⟨coefficient, small, dropped - 1074, ?_⟩
    rw [place, abs_of_nonneg (places_nonneg _ _), mul_assoc]
  · refine ⟨1, Nat.one_lt_pow some.ne' (by decide), (count + dropped : Nat) - 1074, ?_⟩
    rw [place, abs_of_nonneg (places_nonneg _ _), pow_add]
    push_cast
    ring

theorem pos_of_hasDigits (nonzero : rank ≠ 0) (same : magnitude q = rank)
    (digits : HasDigits count q) : 0 < count := by
  rw [Nat.pos_iff_ne_zero]
  rintro rfl
  obtain ⟨coefficient, small, exponent, value⟩ := digits
  have zero : q = 0 := by
    rw [Nat.lt_one_iff.mp small, Nat.cast_zero, zero_mul] at value
    exact abs_eq_zero.mp value
  rw [zero, magnitude_zero] at same
  exact nonzero same.symm

/-! ## The shortest decimal -/

/-- The value of a decimal. -/
def Decimal.toRat (decimal : Decimal) : ℚ :=
  Nat.ofDigitChars 10 decimal.digits 0 * 10 ^ (decimal.point - decimal.digits.length)

/-- The zeros at the end of a coefficient belong to its exponent. -/
theorem exists_zeros (coefficient : Nat) :
    ∃ zeros, digitCount coefficient = (significantDigits coefficient).length + zeros ∧
      coefficient = 10 ^ zeros * Nat.ofDigitChars 10 (significantDigits coefficient) 0 := by
  obtain ⟨digits, reversed⟩ : ∃ digits, digits = (Nat.toDigits 10 coefficient).reverse := ⟨_, rfl⟩
  have split : Nat.toDigits 10 coefficient = significantDigits coefficient ++
      List.replicate (digits.takeWhile (· == '0')).length '0' := by
    have zeros : digits.takeWhile (· == '0') =
        List.replicate (digits.takeWhile (· == '0')).length '0' := by
      refine List.eq_replicate_of_mem fun c inside => ?_
      exact beq_iff_eq.mp (List.mem_takeWhile_imp (p := (· == '0')) inside)
    rw [significantDigits, ← reversed, ← List.reverse_replicate, ← zeros, ← List.reverse_append,
      List.takeWhile_append_dropWhile, reversed, List.reverse_reverse]
  refine ⟨(digits.takeWhile (· == '0')).length, ?_, ?_⟩
  · rw [digitCount, split, List.length_append, List.length_replicate]
  · have value := @Nat.ofDigitChars_ten_toDigits coefficient
    rw [split, Nat.ofDigitChars_append, Nat.ofDigitChars_replicate_zero] at value
    exact value.symm

/-- The decimal that the search ends with. -/
def kept (rank : Nat) : Nat × Nat := dropDigits rank (digitCount (expansion rank) - 1)

/-- The shortest decimal is the one that the search ends with. -/
theorem shortest_toRat (rank : Nat) :
    (shortest rank).toRat = (kept rank).1 * 10 ^ (kept rank).2 * lastPlace := by
  obtain ⟨zeros, length, value⟩ := exists_zeros (kept rank).1
  have place : (shortest rank).point - (shortest rank).digits.length + 1074 =
      ((zeros + (kept rank).2 : Nat) : ℤ) := by
    change (digitCount (kept rank).1 : ℤ) + (kept rank).2 - 1074 -
      (significantDigits (kept rank).1).length + 1074 = _
    rw [length]
    push_cast
    ring
  have digits : (shortest rank).digits = significantDigits (kept rank).1 := rfl
  rw [Decimal.toRat, ten_zpow_eq, place, digits, zpow_natCast, ← mul_assoc, pow_add, ← mul_assoc]
  conv_rhs => rw [value]
  push_cast
  ring

theorem kept_spec (bound : rank ≤ topRank) :
    Kept rank (digitCount (expansion rank) - 1) (kept rank) := kept_dropDigits bound _

theorem shortest_pos (nonzero : rank ≠ 0) : 0 < (shortest rank).toRat := by
  have positive : 0 < (kept rank).1 := Nat.pos_of_ne_zero (dropDigits_ne_zero nonzero _)
  have last := lastPlace_pos
  rw [shortest_toRat]
  positivity

/-- The shortest decimal is read as its number. -/
theorem magnitude_shortest (bound : rank ≤ topRank) : magnitude (shortest rank).toRat = rank := by
  rw [shortest_toRat, ← readsBack_iff]
  exact readsBack_of_neighbour? (kept_spec bound).found

private theorem kept_hasDigits (bound : rank ≤ topRank) (some : 0 < count)
    (enough : digitCount (expansion rank) ≤ count + (kept rank).2) :
    HasDigits count (shortest rank).toRat := by
  rw [shortest_toRat]
  apply hasDigits_places _ some
  have few := (closest_of_neighbour? bound (kept_spec bound).found).1
  have digits : expansion rank / 10 ^ (kept rank).2 < 10 ^ count := by
    rw [Nat.div_lt_iff_lt_mul (Nat.pow_pos (by decide)), ← pow_add]
    exact (lt_pow_digitCount _).trans_le (Nat.pow_le_pow_right (by decide) enough)
  omega

/-- No decimal with fewer digits is read as the number. -/
theorem fewest_shortest (nonzero : rank ≠ 0) (bound : rank ≤ topRank) (same : magnitude q = rank)
    (digits : HasDigits count q) : HasDigits count (shortest rank).toRat := by
  have some := pos_of_hasDigits nonzero same digits
  by_cases enough : digitCount (expansion rank) ≤ count + (kept rank).2
  · exact kept_hasDigits bound some enough
  · obtain ⟨coefficient, reads, -⟩ := exists_on_grid nonzero bound same digits some
      (Nat.add_sub_of_le (show count ≤ digitCount (expansion rank) by omega))
    rw [readsBack_of_no_neighbour bound ((kept_spec bound).none _ (by omega) (by omega))] at reads
    cases reads

/-- No decimal with as few digits that is read as the number is closer to it. -/
theorem closest_shortest (nonzero : rank ≠ 0) (bound : rank ≤ topRank) (same : magnitude q = rank)
    (few : ∀ count, HasDigits count (shortest rank).toRat → HasDigits count q) :
    |(shortest rank).toRat - rankValue rank| ≤ abs (|q| - rankValue rank) := by
  have spec := kept_spec bound
  have positive := digitCount_pos (expansion rank)
  have fits : digitCount (expansion rank) - (kept rank).2 + (kept rank).2 =
      digitCount (expansion rank) := Nat.sub_add_cancel (by have := spec.le; omega)
  have some : 0 < digitCount (expansion rank) - (kept rank).2 := by
    have := spec.le
    omega
  have digits := few _ (kept_hasDigits bound some fits.ge)
  obtain ⟨coefficient, reads, closer⟩ := exists_on_grid nonzero bound same digits some fits
  have order := (closest_of_neighbour? bound spec.found).2.2 coefficient reads
  rw [shortest_toRat, abs_sub_rankValue]
  exact (places_mono order).trans closer

/-! ## The decimal that a double is written as -/

namespace Double

/-- The value of the decimal that a finite number is written as. -/
def written (x : Double) : ℚ := x.rank.sign * (shortest x.rank.natAbs).toRat

/-- A decimal that is read as a number, with the fewest digits, and no farther from the number than
others with as few. -/
structure IsShortest (x : Double) (r : ℚ) : Prop where
  nearest : nearest r = x
  fewest : ∀ q, Double.nearest q = x → ∀ count, HasDigits count q → HasDigits count r
  closest : ∀ q, Double.nearest q = x → (∀ count, HasDigits count r → HasDigits count q) →
    |r - x.toRat| ≤ |q - x.toRat|

private theorem abs_sign_mul {rank : ℤ} (nonzero : rank ≠ 0) (v : ℚ) :
    |(rank.sign : ℚ) * v| = |v| := by
  rcases lt_or_gt_of_ne nonzero with negative | positive
  · simp [Int.sign_eq_neg_one_of_neg negative]
  · simp [Int.sign_eq_one_of_pos positive]

private theorem nearest_written {x : Double} (nonzero : x.rank ≠ 0) :
    Double.nearest x.written = x := by
  have positive := shortest_pos (Int.natAbs_ne_zero.mpr nonzero)
  have size : magnitude x.written = x.rank.natAbs := by
    rw [← magnitude_shortest x.bound]
    exact magnitude_congr (abs_sign_mul nonzero _)
  rw [eq_iff_rank, rank_nearest, size]
  rcases lt_or_gt_of_ne nonzero with below | above
  · rw [if_pos]
    · omega
    · rw [written, Int.sign_eq_neg_one_of_neg below]
      simpa using positive
  · rw [if_neg]
    · omega
    · rw [written, Int.sign_eq_one_of_pos above]
      simpa using positive.le

/-- The decimal that a number is written as is such a one. -/
theorem isShortest_written (x : Double) : IsShortest x x.written := by
  have sized {q : ℚ} (same : Double.nearest q = x) : magnitude q = x.rank.natAbs :=
    congrArg (fun y => y.rank.natAbs) same
  by_cases zero : x.rank = 0
  · have nothing : x.written = 0 := by simp [written, zero]
    have value : x.toRat = 0 := by simp [toRat, zero]
    rw [nothing]
    refine ⟨?_, fun _ _ count _ => hasDigits_zero count, fun q _ _ => ?_⟩
    · rw [eq_iff_rank, rank_nearest, magnitude_zero, zero]
      simp
    · simp [value]
  have nonzero : x.rank.natAbs ≠ 0 := Int.natAbs_ne_zero.mpr zero
  have size : |x.written| = |(shortest x.rank.natAbs).toRat| := abs_sign_mul zero _
  refine ⟨nearest_written zero, fun q same count digits => ?_, fun q same few => ?_⟩
  · rw [← hasDigits_abs, size, hasDigits_abs]
    exact fewest_shortest nonzero x.bound (sized same) digits
  · have closer := closest_shortest nonzero x.bound (sized same) fun count digits => by
      apply few
      rwa [← hasDigits_abs, size, hasDigits_abs]
    calc |x.written - x.toRat| = |(shortest x.rank.natAbs).toRat - rankValue x.rank.natAbs| := by
          rw [written, toRat, ← mul_sub, abs_sign_mul zero]
      _ ≤ abs (|q| - rankValue x.rank.natAbs) := closer
      _ = abs (|q| - |x.toRat|) := by rw [abs_toRat]
      _ ≤ |q - x.toRat| := abs_abs_sub_abs_le_abs_sub _ _

/-! ## Decimals that are written as they are -/

variable {p d r : ℚ}

/-- Two decimals of so many digits are apart by at least one unit of the last digit. -/
theorem gap_of_hasDigits {count : Nat} (first : HasDigits count p) (second : HasDigits count d)
    (less : |p| < |d|) : |p| < 10 ^ count * (|d| - |p|) := by
  obtain ⟨a, few, e, left⟩ := first
  obtain ⟨b, few', f, right⟩ := second
  -- On the finer of the two grids both are whole.
  have whole {m n : Nat} {step : ℚ} (positive : 0 < step) (few : m < 10 ^ count) (order : m < n)
      (left : |p| = m * step) (right : |d| = n * step) : |p| < 10 ^ count * (|d| - |p|) := by
    have apart : (1 : ℚ) ≤ n - m := by
      rw [le_sub_iff_add_le']
      exact_mod_cast order
    have few : (m : ℚ) < 10 ^ count := by exact_mod_cast few
    rw [left, right, ← sub_mul, ← mul_assoc]
    apply mul_lt_mul_of_pos_right _ positive
    nlinarith
  have compare {m n : Nat} {step : ℚ} (positive : 0 < step) (left : |p| = m * step)
      (right : |d| = n * step) : m < n := by
    rw [left, right] at less
    exact_mod_cast lt_of_mul_lt_mul_right less positive.le
  rcases le_total e f with finer | coarser
  · obtain ⟨more, rfl⟩ := Int.le.dest finer
    have right : |d| = (b * 10 ^ more : Nat) * 10 ^ e := by
      rw [right, zpow_add₀ (by norm_num), zpow_natCast]
      push_cast
      ring
    have positive : (0 : ℚ) < 10 ^ e := by positivity
    exact whole positive few (compare positive left right) left right
  · obtain ⟨more, rfl⟩ := Int.le.dest coarser
    have left : |p| = (a * 10 ^ more : Nat) * 10 ^ f := by
      rw [left, zpow_add₀ (by norm_num), zpow_natCast]
      push_cast
      ring
    have positive : (0 : ℚ) < 10 ^ f := by positivity
    have order := compare positive left right
    exact whole positive (order.trans few') order left right

/-- Decimals of at most fifteen digits that are read as one normal number have one size. -/
private theorem abs_le_of_nearest {x : ℚ} (first : HasDigits 15 p) (second : HasDigits 15 d)
    (near : 2 * blockSize * abs (x - |p|) ≤ x)
    (near' : 2 * blockSize * abs (x - |d|) ≤ x) : |d| ≤ |p| := by
  by_contra! less
  have gap := gap_of_hasDigits first second less
  have block : (blockSize : ℚ) = 4503599627370496 := by norm_num [blockSize]
  rw [block] at near near'
  have low := le_abs_self (x - |p|)
  have high := neg_abs_le (x - |d|)
  norm_num at gap
  linarith

/-- Decimals of at most fifteen digits are told apart, from the least normal number on. -/
theorem eq_of_nearest_eq (same : Double.nearest p = Double.nearest d)
    (finite : magnitude d < topRank) (normal : blockSize ≤ magnitude d)
    (first : HasDigits 15 p) (second : HasDigits 15 d) : p = d := by
  obtain ⟨size, sign⟩ := nearest_eq_iff.mp same
  have near := error_le finite normal
  have near' : 2 * blockSize * abs (rankValue (magnitude d) - |p|) ≤ rankValue (magnitude d) := by
    rw [← size] at finite normal ⊢
    exact error_le finite normal
  have equal : |p| = |d| := le_antisymm (abs_le_of_nearest second first near near')
    (abs_le_of_nearest first second near' near)
  have sign := sign.resolve_left (blockSize_pos.trans_le normal).ne'
  rcases abs_eq_abs.mp equal with same | opposite
  · exact same
  · rw [opposite, neg_lt_zero] at sign
    rcases lt_trichotomy d 0 with negative | rfl | positive
    · exact absurd (sign.mpr negative) negative.asymm
    · rw [opposite, neg_zero]
    · exact absurd (sign.mp positive) positive.asymm

theorem IsShortest.eq_of_fifteen_digits (shortest : IsShortest (Double.nearest d) r)
    (finite : (Double.nearest d).IsFinite) (normal : 1 / 2 ^ 1022 ≤ |d|)
    (digits : HasDigits 15 d) : r = d :=
  eq_of_nearest_eq shortest.nearest finite (normal_of_le normal)
    (shortest.fewest d rfl 15 digits) digits

private theorem hasDigits_of_lt {n : ℤ} {m count : Nat} (size : |(n : ℚ)| = m)
    (small : m < 10 ^ count) : HasDigits count n :=
  ⟨m, small, 0, by rw [size, zpow_zero, mul_one]⟩

private theorem hasDigits_of_dvd {n : ℤ} {m count : Nat} (size : |(n : ℚ)| = m)
    (small : m < 10 ^ (count + 1)) (zero : 10 ∣ m) : HasDigits count n := by
  obtain ⟨tenth, rfl⟩ := zero
  rw [pow_succ'] at small
  refine ⟨tenth, Nat.lt_of_mul_lt_mul_left small, 1, ?_⟩
  rw [size, zpow_one]
  push_cast
  ring

/-- A decimal with fewer digits than its whole part is a multiple of ten. -/
private theorem exists_tenth {count : Nat} (digits : HasDigits count r)
    (large : 10 ^ count ≤ |r|) : ∃ tenth : Nat, |r| = (10 * tenth : Nat) := by
  obtain ⟨coefficient, few, exponent, value⟩ := digits
  have few : (coefficient : ℚ) < 10 ^ count := by exact_mod_cast few
  rcases le_or_gt exponent 0 with none | some
  · have small : (10 : ℚ) ^ exponent ≤ 1 := zpow_le_one_of_nonpos₀ (by norm_num) none
    have less : |r| ≤ coefficient := by
      rw [value]
      exact mul_le_of_le_one_right (Nat.cast_nonneg _) small
    linarith
  · obtain ⟨more, rfl⟩ := Int.le.dest some
    refine ⟨coefficient * 10 ^ more, ?_⟩
    rw [value, zpow_add₀ (by norm_num), zpow_natCast]
    push_cast
    ring

/-- A multiple of ten that is near a whole number of the grid is that number. -/
private theorem dvd_of_near {m tenth : Nat} (most : m ≤ 2 * blockSize)
    (near : 2 * blockSize * |(m : ℚ) - (10 * tenth : Nat)| ≤ m) : 10 ∣ m := by
  have near : 2 * (blockSize : ℤ) * |(m : ℤ) - (10 * tenth : Nat)| ≤ m := by exact_mod_cast near
  have block : blockSize = 4503599627370496 := rfl
  rw [block] at near
  push_cast at near
  rcases le_total (m : ℤ) (10 * tenth) with below | above
  · rw [abs_of_nonpos (sub_nonpos.mpr below)] at near
    omega
  · rw [abs_of_nonneg (sub_nonneg.mpr above)] at near
    omega

/-- Near a whole number of sixteen digits there is no decimal with fewer digits but itself: decimals
of fifteen digits are multiples of ten there. -/
private theorem dvd_of_fifteen_digits {m : Nat} (long : 10 ^ 15 < m) (most : m ≤ 2 * blockSize)
    (digits : HasDigits 15 r) (near : 2 * blockSize * abs ((m : ℚ) - |r|) ≤ m) : 10 ∣ m := by
  have large : 10 ^ 15 ≤ |r| := by
    have long : (10 ^ 15 + 1 : ℚ) ≤ m := by exact_mod_cast long
    have most : (m : ℚ) ≤ 2 * blockSize := by exact_mod_cast most
    have low := le_abs_self ((m : ℚ) - |r|)
    have positive : (0 : ℚ) < blockSize := by exact_mod_cast blockSize_pos
    nlinarith
  obtain ⟨tenth, multiple⟩ := exists_tenth digits large
  rw [multiple] at near
  exact dvd_of_near most near

/-- Whole numbers up to the first one whose neighbour is not on the grid are normal numbers of the
grid. -/
private theorem exists_on_grid_of_whole {n : ℤ} (nonzero : n ≠ 0) (small : |n| ≤ 2 ^ 53) :
    ∃ m : Nat, |(n : ℚ)| = m ∧ m ≤ 2 * blockSize ∧ magnitude n < topRank ∧
      blockSize ≤ magnitude n ∧ rankValue (magnitude n) = m := by
  obtain ⟨m, absolute⟩ : ∃ m : Nat, (m : ℤ) = |n| := ⟨n.natAbs, Int.natCast_natAbs n⟩
  have size : |(n : ℚ)| = m := by rw [← Int.cast_abs, ← absolute, Int.cast_natCast]
  have most : m ≤ 2 * blockSize := by
    have bound : (m : ℤ) ≤ 2 ^ 53 := absolute ▸ small
    exact_mod_cast bound
  have positive : 0 < m := by
    have nonzero := abs_pos.mpr nonzero
    omega
  obtain ⟨rank, finite, own⟩ := exists_rank positive most
  have exact : magnitude n = rank := magnitude_of_abs_eq finite.le (size.trans own.symm)
  refine ⟨m, size, most, exact ▸ finite, normal_of_le ?_, exact ▸ own⟩
  have one : (1 : ℚ) ≤ m := by exact_mod_cast positive
  rw [size]
  refine le_trans ?_ one
  rw [div_le_one (by positivity)]
  exact one_le_pow₀ (by norm_num)

/-- If a decimal of fifteen digits is read as such a whole number, then this has fifteen digits
itself.  What ends in no zero and has sixteen digits is farther from all multiples of ten than a
decimal that is read as it may be. -/
private theorem fifteen_digits_of_nearest {n : ℤ} {m : Nat} (size : |(n : ℚ)| = m)
    (most : m ≤ 2 * blockSize) (finite : magnitude n < topRank) (normal : blockSize ≤ magnitude n)
    (own : rankValue (magnitude n) = m) (same : Double.nearest r = Double.nearest n)
    (digits : HasDigits 15 r) : HasDigits 15 n := by
  by_contra long
  have back : magnitude r = magnitude n := (nearest_eq_iff.mp same).1
  have near : 2 * blockSize * abs ((m : ℚ) - |r|) ≤ m := by
    rw [← back] at finite normal own
    rw [← own]
    exact error_le finite normal
  have large : 10 ^ 15 < m := by
    refine lt_of_le_of_ne (Nat.le_of_not_lt fun less => long (hasDigits_of_lt size less)) ?_
    rintro rfl
    exact long (hasDigits_of_dvd size (by decide) (by decide))
  have zero := dvd_of_fifteen_digits large most digits near
  exact long (hasDigits_of_dvd size (most.trans_lt (by decide)) zero)

private theorem IsShortest.eq_zero (shortest : IsShortest (Double.nearest 0) r) : r = 0 := by
  obtain ⟨coefficient, none, exponent, value⟩ := shortest.fewest 0 rfl 0 (hasDigits_zero 0)
  rw [Nat.lt_one_iff.mp none, Nat.cast_zero, zero_mul] at value
  exact abs_eq_zero.mp value

/-- Whole numbers are written as they are up to the first one whose neighbour is not on the grid. -/
theorem IsShortest.eq_of_whole {n : ℤ} (shortest : IsShortest (Double.nearest n) r)
    (small : |n| ≤ 2 ^ 53) : r = n := by
  by_cases zero : n = 0
  · subst zero
    rw [Int.cast_zero] at shortest ⊢
    exact shortest.eq_zero
  obtain ⟨m, size, most, finite, normal, own⟩ := exists_on_grid_of_whole zero small
  -- With no more digits than the decimal, the number is its own closest decimal.
  by_cases few : ∀ count, HasDigits count r → HasDigits count n
  · have closer := shortest.closest n rfl few
    rw [toRat_nearest_of_abs_eq finite.le (size.trans own.symm), sub_self, abs_zero] at closer
    exact sub_eq_zero.mp (abs_nonpos_iff.mp closer)
  -- With more digits than the decimal, which then has fifteen at most, it has fifteen as well.
  push Not at few
  obtain ⟨count, digits, more⟩ := few
  have fifteen : HasDigits 15 r := by
    refine digits.mono (Nat.lt_succ_iff.mp (Nat.not_le.mp fun sixteen => more ?_))
    refine (hasDigits_of_lt size (most.trans_lt ?_)).mono sixteen
    decide
  have short := fifteen_digits_of_nearest size most finite normal own shortest.nearest fifteen
  exact eq_of_nearest_eq shortest.nearest finite normal fifteen short

/-- What is left of a decimal `d` that has been read as a number and written again, as `r`. -/
structure StandsFor (r d : ℚ) : Prop where
  /-- The number in between is as close to the decimal as any. -/
  near : ∀ x : Double, |(Double.nearest d).toRat - d| ≤ |x.toRat - d|
  shortest : IsShortest (Double.nearest d) r
  /-- Few digits are kept, from the least normal number on. -/
  fewDigits : 1 / 2 ^ 1022 ≤ |d| → HasDigits 15 d → r = d
  /-- Whole numbers are kept, up to the first one whose neighbour is not on the grid. -/
  whole : ∀ n : ℤ, d = n → |n| ≤ 2 ^ 53 → r = d

/-- What is written for the number nearest to a decimal stands for the decimal. -/
theorem standsFor_written (finite : (Double.nearest d).IsFinite) :
    StandsFor (Double.nearest d).written d where
  near := abs_toRat_nearest_sub_le d
  shortest := isShortest_written _
  fewDigits normal digits := (isShortest_written _).eq_of_fifteen_digits finite normal digits
  whole n same small := by
    subst same
    exact (isShortest_written _).eq_of_whole small

end Double

end FilterPushdown.Number
