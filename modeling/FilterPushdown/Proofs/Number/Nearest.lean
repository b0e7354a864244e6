import FilterPushdown.Proofs.Number.Rounding
import Mathlib.Algebra.Order.Field.Power
import Mathlib.Data.Rat.Lemmas

/-!
The double nearest to a rational number.  Main statement: the double that is read for a rational
number, in particular for a decimal, is as close to it as any.
-/

namespace FilterPushdown.Number

/-- Equal quotients are rounded to one number. -/
theorem nearestRank_congr {numerator denominator numerator' denominator' : Nat}
    (positive : 0 < denominator) (positive' : 0 < denominator')
    (same : (numerator : ℚ) / denominator = numerator' / denominator') :
    nearestRank numerator denominator = nearestRank numerator' denominator' :=
  le_antisymm (nearestRank_mono positive positive' same.le)
    (nearestRank_mono positive' positive same.ge)

/-! ## Values -/

/-- The number of units in one. -/
@[irreducible] def unitsPerOne : Nat := Nat.pow 2 1074

private theorem pow_two_eq : Nat.pow 2 1074 = unitsPerOne := by
  unfold unitsPerOne
  rfl

/-- The exponent is given a name, so that nothing computes the power. -/
theorem exists_unitsPerOne : ∃ exponent, exponent = 1074 ∧ unitsPerOne = 2 ^ exponent := by
  unfold unitsPerOne
  refine ⟨1074, rfl, ?_⟩
  generalize 1074 = exponent
  rfl

theorem unitsPerOne_pos : 0 < unitsPerOne := by
  obtain ⟨exponent, -, same⟩ := exists_unitsPerOne
  rw [same]
  exact Nat.two_pow_pos exponent

/-- The value of a rank.  Infinity has the value of the next number of the grid. -/
def rankValue (rank : Nat) : ℚ := units rank / unitsPerOne

theorem rankValue_strictMono : StrictMono rankValue := by
  intro low high less
  have order : (units low : ℚ) < units high := by exact_mod_cast units_strictMono less
  exact div_lt_div_of_pos_right order (by exact_mod_cast unitsPerOne_pos)

theorem rankValue_zero : rankValue 0 = 0 := by
  have none : units 0 = 0 := rfl
  unfold rankValue
  rw [none, Nat.cast_zero, zero_div]

theorem rankValue_nonneg (rank : Nat) : 0 ≤ rankValue rank := by
  rw [← rankValue_zero]
  exact rankValue_strictMono.monotone (Nat.zero_le rank)

namespace Double

/-- The value of a number. -/
def toRat (x : Double) : ℚ := x.rank.sign * rankValue x.rank.natAbs

theorem abs_toRat (x : Double) : |x.toRat| = rankValue x.rank.natAbs := by
  unfold toRat
  rw [abs_mul, abs_of_nonneg (rankValue_nonneg _)]
  rcases lt_trichotomy x.rank 0 with negative | zero | positive
  · rw [Int.sign_eq_neg_one_of_neg negative]
    simp
  · rw [zero]
    simp [rankValue_zero]
  · rw [Int.sign_eq_one_of_pos positive]
    simp

theorem ofMagnitude_rank (negative : Bool) {rank : Nat} (bound : rank ≤ topRank) :
    (ofMagnitude negative rank bound).rank = if negative then -(rank : ℤ) else rank := by
  cases negative <;> rfl

theorem ofMagnitude_natAbs (negative : Bool) {rank : Nat} (bound : rank ≤ topRank) :
    (ofMagnitude negative rank bound).rank.natAbs = rank := by
  cases negative <;> simp [ofMagnitude_rank]

/-- The double nearest to a rational number. -/
def nearest (q : ℚ) : Double :=
  ofMagnitude (q < 0) (nearestRank (q.num.natAbs * unitsPerOne) q.den) (nearestRank_le ..)

/-- The rank of the double nearest to a rational number, without its sign. -/
def magnitude (q : ℚ) : Nat := (nearest q).rank.natAbs

variable {p q : ℚ}

private theorem magnitude_eq_nearestRank (q : ℚ) :
    magnitude q = nearestRank (q.num.natAbs * unitsPerOne) q.den :=
  ofMagnitude_natAbs _ (nearestRank_le ..)

theorem rank_nearest (q : ℚ) :
    (nearest q).rank = if q < 0 then -(magnitude q : ℤ) else magnitude q := by
  rw [magnitude_eq_nearestRank, nearest, ofMagnitude_rank]
  simp only [decide_eq_true_eq]

private theorem abs_eq_div (q : ℚ) : (q.num.natAbs : ℚ) / q.den = |q| := by
  rw [Nat.cast_natAbs, Int.cast_abs, ← Nat.abs_cast q.den, ← abs_div, Rat.num_div_den]

/-- The magnitude depends on the quotient only. -/
theorem magnitude_eq {numerator denominator : Nat} (positive : 0 < denominator)
    (same : |q| = numerator / denominator) :
    magnitude q = nearestRank (numerator * unitsPerOne) denominator := by
  rw [magnitude_eq_nearestRank]
  apply nearestRank_congr q.den_pos positive
  push_cast
  rw [mul_div_right_comm, abs_eq_div, same, mul_div_right_comm]

theorem magnitude_mono (order : |p| ≤ |q|) : magnitude p ≤ magnitude q := by
  rw [magnitude_eq_nearestRank, magnitude_eq_nearestRank]
  apply nearestRank_mono p.den_pos q.den_pos
  push_cast
  rw [mul_div_right_comm, mul_div_right_comm, abs_eq_div, abs_eq_div]
  gcongr

theorem magnitude_congr (same : |p| = |q|) : magnitude p = magnitude q :=
  le_antisymm (magnitude_mono same.le) (magnitude_mono same.ge)

/-- The value of a number is nearest to the number. -/
theorem magnitude_of_abs_eq {rank : Nat} (bound : rank ≤ topRank) (same : |q| = rankValue rank) :
    magnitude q = rank := by
  rw [← nearestRank_units bound unitsPerOne_pos]
  exact magnitude_eq unitsPerOne_pos same

private theorem units_eq_abs (q : ℚ) :
    ((q.num.natAbs * unitsPerOne : Nat) : ℚ) / q.den = |q| * unitsPerOne := by
  push_cast
  rw [mul_div_right_comm, abs_eq_div]

/-- Distances between values are distances on the grid. -/
private theorem abs_rankValue_sub (rank : Nat) (q : ℚ) :
    abs (rankValue rank - |q|) =
      abs ((units rank : ℚ) - (q.num.natAbs * unitsPerOne : Nat) / q.den) / unitsPerOne := by
  have positive : (0 : ℚ) < unitsPerOne := by exact_mod_cast unitsPerOne_pos
  rw [units_eq_abs, ← abs_of_pos positive, ← abs_div, abs_of_pos positive, sub_div,
    mul_div_cancel_right₀ _ positive.ne', rankValue]

theorem magnitude_rankValue {rank : Nat} (bound : rank ≤ topRank) :
    magnitude (rankValue rank) = rank :=
  magnitude_of_abs_eq bound (abs_of_nonneg (rankValue_nonneg rank))

/-- No value of the grid is closer to the absolute value than the one of the magnitude. -/
theorem abs_rankValue_magnitude_sub_le (q : ℚ) {rank : Nat} (bound : rank ≤ topRank) :
    abs (rankValue (magnitude q) - |q|) ≤ abs (rankValue rank - |q|) := by
  rw [abs_rankValue_sub, abs_rankValue_sub, magnitude_eq_nearestRank]
  exact div_le_div_of_nonneg_right (nearestRank_nearest _ q.den_pos bound) (Nat.cast_nonneg _)

/-- Finite numbers above the least normal one are near in proportion to their size. -/
theorem error_le (finite : magnitude q < topRank) (normal : blockSize ≤ magnitude q) :
    2 * blockSize * abs (rankValue (magnitude q) - |q|) ≤ rankValue (magnitude q) := by
  rw [abs_rankValue_sub, rankValue, ← mul_div_assoc]
  rw [magnitude_eq_nearestRank] at finite normal ⊢
  exact div_le_div_of_nonneg_right (nearestRank_error _ q.den_pos finite normal)
    (Nat.cast_nonneg _)

private theorem toRat_of_rank {x : Double} {rank : Nat} (same : x.rank = rank) :
    x.toRat = rankValue rank := by
  unfold toRat
  rw [same, Int.natAbs_natCast]
  rcases Nat.eq_zero_or_pos rank with rfl | positive
  · simp [rankValue_zero]
  · simp [Int.sign_eq_one_of_pos (Int.natCast_pos.mpr positive)]

private theorem toRat_of_neg_rank {x : Double} {rank : Nat} (same : x.rank = -rank) :
    x.toRat = -rankValue rank := by
  unfold toRat
  rw [same, Int.natAbs_neg, Int.natAbs_natCast, Int.sign_neg]
  rcases Nat.eq_zero_or_pos rank with rfl | positive
  · simp [rankValue_zero]
  · simp [Int.sign_eq_one_of_pos (Int.natCast_pos.mpr positive)]

/-- The nearest double is on the same side of zero. -/
theorem toRat_nearest (q : ℚ) : (nearest q).toRat =
    if q < 0 then -rankValue (magnitude q) else rankValue (magnitude q) := by
  have rank := rank_nearest q
  split
  · rename_i negative
    rw [if_pos negative] at rank
    exact toRat_of_neg_rank rank
  · rename_i other
    rw [if_neg other] at rank
    exact toRat_of_rank rank

/-- A number of the grid is read as what it is. -/
theorem toRat_nearest_of_abs_eq {rank : Nat} (bound : rank ≤ topRank)
    (same : |q| = rankValue rank) : (nearest q).toRat = q := by
  rw [toRat_nearest, magnitude_of_abs_eq bound same, ← same]
  split
  · rename_i negative
    rw [abs_of_neg negative, neg_neg]
  · rename_i other
    exact abs_of_nonneg (not_lt.mp other)

/-- Its distance is the distance of the absolute values. -/
theorem abs_toRat_nearest_sub (q : ℚ) :
    |(nearest q).toRat - q| = abs (rankValue (magnitude q) - |q|) := by
  rw [toRat_nearest]
  split
  · rename_i negative
    rw [abs_of_neg negative, ← abs_neg, neg_sub]
    congr 1
    ring
  · rename_i other
    rw [abs_of_nonneg (not_lt.mp other)]

/-- The nearest double is as close to a number as any, infinities counting by their values. -/
theorem abs_toRat_nearest_sub_le (q : ℚ) (x : Double) :
    |(nearest q).toRat - q| ≤ |x.toRat - q| := by
  rw [abs_toRat_nearest_sub]
  calc abs (rankValue (magnitude q) - |q|) ≤ abs (rankValue x.rank.natAbs - |q|) :=
        abs_rankValue_magnitude_sub_le q x.bound
    _ = abs (|x.toRat| - |q|) := by rw [abs_toRat]
    _ ≤ |x.toRat - q| := abs_abs_sub_abs_le_abs_sub _ _

theorem eq_iff_rank {x y : Double} : x = y ↔ x.rank = y.rank := by
  cases x
  cases y
  exact mk.injEq .. ▸ Iff.rfl

/-- Which numbers have the same nearest double. -/
theorem nearest_eq_iff : nearest p = nearest q ↔
    magnitude p = magnitude q ∧ (magnitude q = 0 ∨ (p < 0 ↔ q < 0)) := by
  rw [eq_iff_rank, rank_nearest, rank_nearest]
  by_cases left : p < 0 <;> by_cases right : q < 0 <;>
    simp only [left, right, if_true, if_false, true_iff, false_iff, not_true, or_false, or_true,
      and_true] <;>
    omega

/-! ## Ranges -/

private theorem below_middle {q block low step : ℚ} (positive : 0 < step)
    (inside : q < 4 * block * low - low) :
    q * step < ((2 * block - 1) * (low * step * 2) + 2 * block * (low * step * 2)) / 2 := by
  have scaled := mul_lt_mul_of_pos_right inside positive
  linarith

/-- Below the middle between the greatest finite number and the next, doubles are finite. -/
theorem isFinite_nearest (inside : |q| < 2 ^ 1024 - 2 ^ 970) : (nearest q).IsFinite := by
  obtain ⟨exponent, places, unit⟩ := exists_unitsPerOne
  obtain ⟨scale, block⟩ : ∃ scale, scale = 970 + exponent + 1 := ⟨_, rfl⟩
  have last : topRank = scale * blockSize + 2 * blockSize := by
    rw [block, places]
    rfl
  have previous : topRank - 1 = scale * blockSize + (2 * blockSize - 1) := by
    rw [block, places]
    rfl
  have unitsLast : (units topRank : ℚ) = 2 * blockSize * 2 ^ scale := by
    rw [last, units_of_inBlock ⟨.inr (by decide), by decide⟩]
    push_cast
    rfl
  have unitsPrevious : (units (topRank - 1) : ℚ) = (2 * blockSize - 1) * 2 ^ scale := by
    rw [previous, units_of_inBlock ⟨.inr (by decide), by decide⟩, Nat.cast_mul,
      Nat.cast_sub (by decide)]
    push_cast
    rfl
  have spread : (2 : ℚ) ^ 1024 = 4 * blockSize * 2 ^ 970 := by
    have small : (blockSize : ℚ) = 2 ^ 52 := by norm_num [blockSize]
    have general (n : Nat) : (2 : ℚ) ^ (n + 54) = 4 * 2 ^ 52 * 2 ^ n := by ring
    rw [small]
    exact general 970
  change magnitude q < topRank
  rw [magnitude_eq_nearestRank]
  apply nearestRank_lt_topRank q.den_pos
  rw [unitsLast, unitsPrevious, units_eq_abs, unit, block, pow_succ, pow_add, Nat.cast_pow,
    Nat.cast_ofNat]
  rw [spread] at inside
  exact below_middle (by positivity) inside

private theorem rankValue_blockSize : rankValue blockSize = 1 / 2 ^ 1022 := by
  obtain ⟨exponent, places, unit⟩ := exists_unitsPerOne
  obtain ⟨low, normal⟩ : ∃ low, low = 1022 := ⟨_, rfl⟩
  have least : units blockSize = 2 ^ 52 := rfl
  have more : exponent = low + 52 := by omega
  rw [rankValue, least, unit, more, ← normal, Nat.cast_pow, Nat.cast_pow, Nat.cast_ofNat, pow_add,
    mul_comm, div_mul_cancel_left₀ (by positivity), one_div]

/-- From the least normal number on, the blocks get wider as the numbers get larger. -/
theorem normal_of_le (above : 1 / 2 ^ 1022 ≤ |q|) : blockSize ≤ magnitude q := by
  rw [← magnitude_rankValue (show blockSize ≤ topRank by decide)]
  apply magnitude_mono
  rwa [abs_of_nonneg (rankValue_nonneg _), rankValue_blockSize]

/-- Whole numbers of at most 53 binary digits are on the grid. -/
theorem exists_rank {m : Nat} (positive : 0 < m) (small : m ≤ 2 * blockSize) :
    ∃ rank, rank < topRank ∧ rankValue rank = m := by
  obtain ⟨exponent, places, unit⟩ := exists_unitsPerOne
  obtain ⟨shift, shifted⟩ : ∃ shift, shift = 52 - m.log2 := ⟨_, rfl⟩
  have room : exponent - shift + shift = exponent := by omega
  have inside : InBlock (exponent - shift) (m * 2 ^ shift) := by
    have block : blockSize = 2 ^ 52 := rfl
    have least := Nat.log2_self_le positive.ne'
    have most := @Nat.lt_log2_self m
    rcases Nat.lt_or_ge 52 m.log2 with long | short
    · have large : 2 ^ 52 ≤ m := (Nat.pow_le_pow_right (by decide) long.le).trans least
      have none : shift = 0 := by omega
      rw [none, pow_zero, mul_one]
      exact ⟨.inr large, small⟩
    · have digits : m.log2 + shift = 52 := by omega
      constructor
      · refine .inr ?_
        rw [block, ← digits, pow_add]
        exact Nat.mul_le_mul_right _ least
      · have bound : m * 2 ^ shift ≤ 2 ^ (m.log2 + 1) * 2 ^ shift := Nat.mul_le_mul_right _ most.le
        rw [← pow_add, Nat.add_right_comm, digits] at bound
        exact bound
  refine ⟨(exponent - shift) * blockSize + m * 2 ^ shift, ?_, ?_⟩
  · have blocks : (exponent - shift) * blockSize ≤ 1074 * blockSize :=
      Nat.mul_le_mul_right _ (by omega)
    have block := blockSize_pos
    have most := inside.2
    unfold topRank
    omega
  · have step : (2 : ℚ) ^ exponent ≠ 0 := by positivity
    rw [rankValue, units_of_inBlock inside, mul_assoc, ← pow_add, add_comm shift, room, unit]
    push_cast
    exact mul_div_cancel_right₀ _ step

/-! ## Decimals -/

theorem magnitude_zero : magnitude 0 = 0 :=
  magnitude_of_abs_eq (Nat.zero_le _) (by rw [rankValue_zero, abs_zero])

/-- The value of a decimal with the given sign. -/
def decimal (negative : Bool) (coefficient : Nat) (exponent : ℤ) : ℚ :=
  (if negative then -1 else 1) * (coefficient * 10 ^ exponent)

theorem abs_decimal (negative : Bool) (coefficient : Nat) (exponent : ℤ) :
    |decimal negative coefficient exponent| = coefficient * 10 ^ exponent := by
  have size : (0 : ℚ) ≤ coefficient * 10 ^ exponent := by positivity
  unfold decimal
  cases negative
  · rw [if_neg Bool.false_ne_true, one_mul, abs_of_nonneg size]
  · rw [if_pos rfl, neg_one_mul, abs_neg, abs_of_nonneg size]

theorem decimal_neg_iff {negative : Bool} {coefficient : Nat} {exponent : ℤ} :
    decimal negative coefficient exponent < 0 ↔ negative = true ∧ coefficient ≠ 0 := by
  have power : (0 : ℚ) < 10 ^ exponent := by positivity
  unfold decimal
  cases negative
  · simpa using mul_nonneg (Nat.cast_nonneg coefficient) power.le
  · simp [power, Nat.pos_iff_ne_zero]

private theorem rank_ofDecimal (negative : Bool) (coefficient : Nat) (exponent : ℤ) :
    (ofDecimal negative coefficient exponent).rank =
      if negative then -(magnitude (decimal negative coefficient exponent) : ℤ)
      else magnitude (decimal negative coefficient exponent) := by
  have size := abs_decimal negative coefficient exponent
  cases exponent with
  | ofNat zeros =>
    have whole : magnitude (decimal negative coefficient (.ofNat zeros)) =
        nearestRank (coefficient * Nat.pow 10 zeros * unitsPerOne) 1 := by
      apply magnitude_eq Nat.one_pos
      rw [size, Nat.pow_eq]
      push_cast
      simp
    rw [ofDecimal, ofMagnitude_rank, whole, pow_two_eq]
  | negSucc places =>
    have part : magnitude (decimal negative coefficient (.negSucc places)) =
        nearestRank (coefficient * unitsPerOne) (Nat.pow 10 (places + 1)) := by
      apply magnitude_eq (Nat.pow_pos (by decide))
      rw [size, zpow_negSucc, div_eq_mul_inv]
      push_cast
      rfl
    rw [ofDecimal, ofMagnitude_rank, part, pow_two_eq]

/-- A decimal is read as the double nearest to its value. -/
theorem ofDecimal_eq_nearest (negative : Bool) (coefficient : Nat) (exponent : ℤ) :
    ofDecimal negative coefficient exponent = nearest (decimal negative coefficient exponent) := by
  rw [eq_iff_rank, rank_nearest, rank_ofDecimal]
  by_cases zero : coefficient = 0
  · have nothing : decimal negative coefficient exponent = 0 := by simp [decimal, zero]
    rw [nothing, magnitude_zero]
    simp
  · simp only [decimal_neg_iff, ne_eq, zero, not_false_eq_true, and_true]

end Double

end FilterPushdown.Number
