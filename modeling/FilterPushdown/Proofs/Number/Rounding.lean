import FilterPushdown.Number.Double
import Mathlib.Algebra.Order.Field.Rat
import Mathlib.Order.Monotone.Basic
import Mathlib.Tactic.FieldSimp
import Mathlib.Tactic.Linarith
import Mathlib.Tactic.Positivity
import Mathlib.Tactic.Ring

/-!
Rounding to the grid of double precision numbers.  All that is used of the computation is one
description of its result: a multiple of the spacing, which is at most half a spacing away, within
the block that has this spacing.  From this follow that the result is nearest, that the order of
numbers is kept, that numbers of the grid stay as they are, and how far others are moved.
-/

namespace FilterPushdown.Number

/-! ## The grid -/

/-- Whether the multiple of `2 ^ scale` by `m` is a number of the grid with this spacing below and
above it, or the least multiple above them. -/
def InBlock (scale m : Nat) : Prop := (scale = 0 ∨ blockSize ≤ m) ∧ m ≤ 2 * blockSize

theorem blockSize_pos : 0 < blockSize := by decide

/-- The number of a rank, by its block and its place in the block. -/
theorem units_of_inBlock {scale m : Nat} (inside : InBlock scale m) :
    units (scale * blockSize + m) = m * 2 ^ scale := by
  obtain ⟨low, high⟩ := inside
  have positive := blockSize_pos
  unfold units
  rw [Nat.pow_eq]
  rcases Nat.lt_or_ge m blockSize with below | above
  · obtain rfl : scale = 0 := low.resolve_right (Nat.not_le.mpr below)
    rw [if_pos (by omega)]
    simp
  obtain ⟨place, rfl⟩ := Nat.exists_eq_add_of_le above
  have split : scale * blockSize + (blockSize + place) = place + blockSize * (scale + 1) := by ring
  have outside : ¬ scale * blockSize + (blockSize + place) < blockSize := by omega
  rw [if_neg outside, split, Nat.add_mul_mod_self_left, Nat.add_mul_div_left _ _ positive]
  rcases Nat.lt_or_ge place blockSize with within | past
  · rw [Nat.mod_eq_of_lt within, Nat.div_eq_of_lt within]
    simp
  · obtain rfl : place = blockSize := by omega
    rw [Nat.mod_self, Nat.div_self positive]
    have next : 1 + (scale + 1) - 1 = scale + 1 := by omega
    rw [next, Nat.pow_succ]
    ring

theorem exists_inBlock (rank : Nat) :
    ∃ scale m, rank = scale * blockSize + m ∧ InBlock scale m ∧ m < 2 * blockSize := by
  have positive := blockSize_pos
  refine ⟨rank / blockSize - 1, rank - (rank / blockSize - 1) * blockSize, ?_⟩
  have whole := Nat.div_add_mod rank blockSize
  have part := Nat.mod_lt rank positive
  unfold InBlock
  generalize rank / blockSize = blocks at whole ⊢
  cases blocks with
  | zero => omega
  | succ blocks =>
    rw [Nat.mul_succ, Nat.mul_comm] at whole
    rw [Nat.add_sub_cancel]
    omega

theorem units_strictMono : StrictMono units := by
  refine strictMono_nat_of_lt_succ fun rank => ?_
  obtain ⟨scale, m, rfl, inside, room⟩ := exists_inBlock rank
  have next : InBlock scale (m + 1) := ⟨inside.1.imp_right Nat.le_succ_of_le, room⟩
  rw [units_of_inBlock inside, Nat.add_assoc, units_of_inBlock next]
  exact Nat.mul_lt_mul_of_pos_right (Nat.lt_succ_self m) (Nat.two_pow_pos scale)

/-! ## Rounding to whole numbers -/

/-- A quotient is rounded by at most one half. -/
theorem abs_roundHalfEven_sub_le (numerator : Nat) {denominator : Nat}
    (positive : 0 < denominator) :
    |(roundHalfEven numerator denominator : ℚ) - numerator / denominator| ≤ 1 / 2 := by
  have divided : (numerator : ℚ) = denominator * (numerator / denominator : Nat) +
      (numerator % denominator : Nat) := by exact_mod_cast (Nat.div_add_mod ..).symm
  have part : ((numerator % denominator : Nat) : ℚ) ≤ denominator := by
    exact_mod_cast (Nat.mod_lt numerator positive).le
  have positive : (0 : ℚ) < denominator := by exact_mod_cast positive
  unfold roundHalfEven
  dsimp only
  generalize numerator / denominator = low at divided ⊢
  generalize numerator % denominator = rest at divided part ⊢
  have quotient : (numerator : ℚ) / denominator = low + rest / denominator := by
    rw [divided]
    field_simp
  rw [quotient, abs_le]
  split
  · rename_i near
    have half : (2 * rest : ℚ) ≤ denominator := by
      exact_mod_cast near.elim le_of_lt fun tie => tie.1.le
    have bound : (rest : ℚ) / denominator ≤ 1 / 2 := by
      rw [div_le_iff₀ positive]
      linarith
    have least : (0 : ℚ) ≤ rest / denominator := by positivity
    constructor <;> linarith
  · rename_i far
    have half : (denominator : ℚ) ≤ 2 * rest := by
      exact_mod_cast Nat.le_of_not_lt fun near => far (.inl near)
    have bound : (1 : ℚ) / 2 ≤ rest / denominator := by
      rw [le_div_iff₀ positive]
      linarith
    have most : (rest : ℚ) / denominator ≤ 1 := by
      rw [div_le_one positive]
      exact part
    push_cast
    constructor <;> linarith

/-- A whole number at a distance of at most one half is nearest. -/
theorem abs_sub_le_of_half {m : ℤ} {q : ℚ} (half : |(m : ℚ) - q| ≤ 1 / 2) (other : ℤ) :
    |(m : ℚ) - q| ≤ |(other : ℚ) - q| := by
  rcases eq_or_ne other m with rfl | differ
  · exact le_rfl
  have apart : (1 : ℚ) ≤ |(other : ℚ) - m| := by
    exact_mod_cast Int.one_le_abs (sub_ne_zero.mpr differ)
  have triangle := abs_sub_le (other : ℚ) q m
  rw [abs_sub_comm q] at triangle
  linarith

/-- The closer of two numbers lies on the same side of their midpoint. -/
theorem midpoint_le_of_closer {x y q : ℚ} (less : x < y) (closer : |y - q| ≤ |x - q|) :
    (x + y) / 2 ≤ q := by
  by_contra! below
  have right : |y - q| = y - q := abs_of_pos (by linarith)
  have left : |x - q| < y - q := abs_lt.mpr ⟨by linarith, by linarith⟩
  linarith

theorem le_midpoint_of_closer {x y q : ℚ} (less : x < y) (closer : |x - q| ≤ |y - q|) :
    q ≤ (x + y) / 2 := by
  by_contra! above
  have left : |x - q| = q - x := by
    rw [abs_sub_comm]
    exact abs_of_pos (by linarith)
  have right : |y - q| < q - x := abs_lt.mpr ⟨by linarith, by linarith⟩
  linarith

/-! ## One step of rounding -/

/-- A multiple of the spacing of a block, at most half a spacing away from a number that does not
lie before the block. -/
structure Rounded (q : ℚ) (scale m : Nat) : Prop where
  inBlock : InBlock scale m
  half : |(m : ℚ) - q / 2 ^ scale| ≤ 1 / 2
  least : scale = 0 ∨ (blockSize : ℚ) * 2 ^ scale ≤ q

namespace Rounded

variable {q : ℚ} {scale m : Nat}

private theorem scaled (q x : ℚ) (scale : Nat) :
    |x * 2 ^ scale - q| = |x - q / 2 ^ scale| * 2 ^ scale := by
  have step : (0 : ℚ) < 2 ^ scale := by positivity
  rw [← abs_of_pos step, ← abs_mul, abs_of_pos step, sub_mul, div_mul_cancel₀ _ step.ne']

theorem units_eq (rounded : Rounded q scale m) :
    (units (scale * blockSize + m) : ℚ) = m * 2 ^ scale := by
  rw [units_of_inBlock rounded.inBlock]
  push_cast
  rfl

/-- No multiple of the spacing is closer. -/
theorem le_multiple (rounded : Rounded q scale m) (other : ℤ) :
    |(m : ℚ) * 2 ^ scale - q| ≤ |(other : ℚ) * 2 ^ scale - q| := by
  rw [scaled, scaled]
  have half : |((m : ℤ) : ℚ) - q / 2 ^ scale| ≤ 1 / 2 := rounded.half
  exact mul_le_mul_of_nonneg_right (abs_sub_le_of_half half other) (by positivity)

/-- No number of the grid is closer: with the spacing of a later block it is a multiple of this
spacing, and from an earlier block the beginning of this block is closer. -/
theorem le_units (rounded : Rounded q scale m) (rank : Nat) :
    |(units (scale * blockSize + m) : ℚ) - q| ≤ |(units rank : ℚ) - q| := by
  rw [rounded.units_eq]
  obtain ⟨scale', m', rfl, inside, -⟩ := exists_inBlock rank
  rw [units_of_inBlock inside]
  push_cast
  rcases Nat.lt_or_ge scale' scale with earlier | later
  · have least := rounded.least.resolve_left (Nat.ne_zero_of_lt earlier)
    have before : (m' : ℚ) * 2 ^ scale' ≤ blockSize * 2 ^ scale := by
      have bound : m' * 2 ^ scale' ≤ blockSize * 2 ^ scale := by
        calc m' * 2 ^ scale' ≤ 2 * blockSize * 2 ^ scale' := Nat.mul_le_mul_right _ inside.2
          _ = blockSize * 2 ^ (scale' + 1) := by rw [Nat.pow_succ]; ring
          _ ≤ blockSize * 2 ^ scale :=
            Nat.mul_le_mul_left _ (Nat.pow_le_pow_right (by decide) earlier)
      exact_mod_cast bound
    calc |(m : ℚ) * 2 ^ scale - q| ≤ |((blockSize : ℤ) : ℚ) * 2 ^ scale - q| :=
          rounded.le_multiple blockSize
      _ = q - blockSize * 2 ^ scale := by
        rw [abs_sub_comm]
        exact abs_of_nonneg (sub_nonneg.mpr least)
      _ ≤ q - m' * 2 ^ scale' := by linarith
      _ ≤ |(m' : ℚ) * 2 ^ scale' - q| := by
        rw [abs_sub_comm]
        exact le_abs_self _
  · obtain ⟨more, rfl⟩ := Nat.exists_eq_add_of_le later
    have multiple := rounded.le_multiple ((m' * 2 ^ more : Nat) : ℤ)
    push_cast at multiple
    rwa [mul_assoc, ← pow_add, add_comm more] at multiple

/-- Where the spacing is in proportion to the numbers, so is the error. -/
theorem error_le (rounded : Rounded q scale m) (normal : blockSize ≤ scale * blockSize + m) :
    2 * blockSize * |(units (scale * blockSize + m) : ℚ) - q| ≤
      units (scale * blockSize + m) := by
  rw [rounded.units_eq, scaled]
  have large : blockSize ≤ m := by
    rcases rounded.inBlock.1 with rfl | large
    · omega
    · exact large
  have large : (blockSize : ℚ) ≤ m := by exact_mod_cast large
  have step : (0 : ℚ) < 2 ^ scale := by positivity
  have half : 2 * (blockSize : ℚ) * |(m : ℚ) - q / 2 ^ scale| ≤ m := by
    have positive : (0 : ℚ) ≤ blockSize := Nat.cast_nonneg blockSize
    nlinarith [rounded.half]
  calc 2 * (blockSize : ℚ) * (|(m : ℚ) - q / 2 ^ scale| * 2 ^ scale)
      = 2 * blockSize * |(m : ℚ) - q / 2 ^ scale| * 2 ^ scale := by ring
    _ ≤ m * 2 ^ scale := mul_le_mul_of_nonneg_right half step.le

end Rounded

/-! ## Rounding to the grid -/

variable {numerator denominator numerator' denominator' : Nat}

/-- The block is that of the quotient: this is below the end of the block, and not before its
beginning unless the block is the first one. -/
private theorem quotient_bounds (positive : 0 < denominator) {scale : Nat}
    (scaled : scale = (numerator / denominator).log2 - 52) :
    (scale = 0 ∨ (blockSize : ℚ) * 2 ^ scale ≤ numerator / denominator) ∧
      (numerator : ℚ) / denominator < 2 * blockSize * 2 ^ scale := by
  have block : blockSize = 2 ^ 52 := rfl
  have whole : (0 : ℚ) < denominator := by exact_mod_cast positive
  constructor
  · refine or_iff_not_imp_left.mpr fun later => ?_
    have large : numerator / denominator ≠ 0 := by
      intro zero
      rw [zero, Nat.log2_zero] at scaled
      omega
    have floor : 2 ^ (scale + 52) ≤ numerator / denominator := by
      have exponent : scale + 52 = (numerator / denominator).log2 := by omega
      rw [exponent]
      exact Nat.log2_self_le large
    rw [Nat.le_div_iff_mul_le positive, Nat.pow_add] at floor
    rw [le_div_iff₀ whole, block]
    have cast : (2 ^ scale * 2 ^ 52 * denominator : ℚ) ≤ numerator := by exact_mod_cast floor
    push_cast
    linarith
  · have floor : numerator / denominator < 2 ^ (scale + 53) := by
      refine Nat.lt_of_lt_of_le Nat.lt_log2_self (Nat.pow_le_pow_right (by decide) ?_)
      omega
    rw [Nat.div_lt_iff_lt_mul positive, Nat.pow_add] at floor
    rw [div_lt_iff₀ whole, block]
    have cast : (numerator : ℚ) < 2 ^ scale * 2 ^ 53 * denominator := by exact_mod_cast floor
    push_cast
    linarith

/-- Rounding does not leave the block. -/
private theorem inBlock_of_half {q : ℚ} {scale m : Nat} (half : |(m : ℚ) - q / 2 ^ scale| ≤ 1 / 2)
    (least : scale = 0 ∨ (blockSize : ℚ) * 2 ^ scale ≤ q) (most : q < 2 * blockSize * 2 ^ scale) :
    InBlock scale m := by
  have step : (0 : ℚ) < 2 ^ scale := by positivity
  obtain ⟨low, high⟩ := abs_le.mp half
  constructor
  · refine least.imp_right fun begins => Nat.lt_succ_iff.mp ?_
    rw [← le_div_iff₀ step] at begins
    have bound : (blockSize : ℚ) < m + 1 := by linarith
    exact_mod_cast bound
  · rw [← div_lt_iff₀ step] at most
    have bound : (m : ℚ) < 2 * blockSize + 1 := by linarith
    exact Nat.lt_succ_iff.mp (by exact_mod_cast bound)

/-- A quotient is rounded within a block, unless the result is too large for the grid. -/
theorem exists_rounded (numerator : Nat) (positive : 0 < denominator) :
    ∃ scale m, nearestRank numerator denominator = min topRank (scale * blockSize + m) ∧
      Rounded (numerator / denominator) scale m := by
  obtain ⟨scale, scaled⟩ : ∃ scale, scale = (numerator / denominator).log2 - 52 := ⟨_, rfl⟩
  have half := abs_roundHalfEven_sub_le numerator (Nat.mul_pos positive (Nat.two_pow_pos scale))
  rw [Nat.cast_mul, Nat.cast_pow, Nat.cast_ofNat, ← div_div] at half
  obtain ⟨least, most⟩ := quotient_bounds positive scaled
  refine ⟨scale, roundHalfEven numerator (denominator * 2 ^ scale), ?_,
    ⟨inBlock_of_half half least most, half, least⟩⟩
  unfold nearestRank
  dsimp only
  rw [← scaled, Nat.pow_eq]

/-- No number of the grid is closer to a quotient than the one it is rounded to. -/
theorem nearestRank_nearest (numerator : Nat) (positive : 0 < denominator) {rank : Nat}
    (bound : rank ≤ topRank) :
    |(units (nearestRank numerator denominator) : ℚ) - numerator / denominator| ≤
      |(units rank : ℚ) - numerator / denominator| := by
  obtain ⟨scale, m, same, rounded⟩ := exists_rounded numerator positive
  rw [same]
  rcases Nat.le_total (scale * blockSize + m) topRank with within | beyond
  · rw [Nat.min_eq_right within]
    exact rounded.le_units rank
  rw [Nat.min_eq_left beyond]
  rcases Nat.eq_or_lt_of_le beyond with top | beyond
  · rw [top]
    exact rounded.le_units rank
  -- If even a number above the grid is nearest, then all numbers of the grid lie below.
  have less : (units topRank : ℚ) < units (scale * blockSize + m) := by
    exact_mod_cast units_strictMono beyond
  have above := midpoint_le_of_closer less (rounded.le_units topRank)
  have order : (units rank : ℚ) ≤ units topRank := by
    exact_mod_cast units_strictMono.monotone bound
  rw [abs_sub_comm, abs_sub_comm (units rank : ℚ), abs_of_pos (by linarith),
    abs_of_pos (by linarith)]
  linarith

/-- A number of the grid stays as it is. -/
theorem nearestRank_units {rank : Nat} (bound : rank ≤ topRank) (positive : 0 < denominator) :
    nearestRank (units rank * denominator) denominator = rank := by
  have near := nearestRank_nearest (units rank * denominator) positive bound
  have whole : (denominator : ℚ) ≠ 0 := by exact_mod_cast positive.ne'
  rw [Nat.cast_mul, mul_div_cancel_right₀ _ whole, sub_self, abs_zero] at near
  have same := sub_eq_zero.mp (abs_eq_zero.mp (le_antisymm near (abs_nonneg _)))
  exact units_strictMono.injective (by exact_mod_cast same)

private theorem roundHalfEven_mul (numerator denominator : Nat) {factor : Nat}
    (positive : 0 < factor) :
    roundHalfEven (numerator * factor) (denominator * factor) =
      roundHalfEven numerator denominator := by
  unfold roundHalfEven
  dsimp only
  rw [Nat.mul_div_mul_right _ _ positive, Nat.mul_mod_mul_right, ← Nat.mul_assoc]
  simp only [Nat.mul_lt_mul_right positive, Nat.mul_left_inj positive.ne']

theorem nearestRank_mul (numerator denominator : Nat) {factor : Nat}
    (positive : 0 < factor) :
    nearestRank (numerator * factor) (denominator * factor) =
      nearestRank numerator denominator := by
  unfold nearestRank
  dsimp only
  rw [Nat.mul_div_mul_right _ _ positive, Nat.mul_right_comm, roundHalfEven_mul _ _ positive]

/-- Greater quotients are not rounded to smaller numbers. -/
theorem nearestRank_mono (positive : 0 < denominator) (positive' : 0 < denominator')
    (order : (numerator : ℚ) / denominator ≤ numerator' / denominator') :
    nearestRank numerator denominator ≤ nearestRank numerator' denominator' := by
  rcases eq_or_lt_of_le order with same | less
  · -- One quotient written twice: both fractions are brought to one denominator.
    rw [div_eq_div_iff (by exact_mod_cast positive.ne') (by exact_mod_cast positive'.ne')] at same
    have same : numerator * denominator' = numerator' * denominator := by exact_mod_cast same
    rw [← nearestRank_mul numerator denominator positive', same, Nat.mul_comm denominator,
      nearestRank_mul numerator' denominator' positive]
  · by_contra! crossed
    have crossed' : (units (nearestRank numerator' denominator') : ℚ) <
        units (nearestRank numerator denominator) := by exact_mod_cast units_strictMono crossed
    have bound (n d : Nat) : nearestRank n d ≤ topRank := Double.nearestRank_le n d
    have above := midpoint_le_of_closer crossed'
      (nearestRank_nearest numerator positive (bound _ _))
    have below := le_midpoint_of_closer crossed'
      (nearestRank_nearest numerator' positive' (bound _ _))
    linarith

/-- Finite numbers above the least normal one are moved in proportion to their size. -/
theorem nearestRank_error (numerator : Nat) (positive : 0 < denominator)
    (finite : nearestRank numerator denominator < topRank)
    (normal : blockSize ≤ nearestRank numerator denominator) :
    2 * blockSize * |(units (nearestRank numerator denominator) : ℚ) - numerator / denominator| ≤
      units (nearestRank numerator denominator) := by
  obtain ⟨scale, m, same, rounded⟩ := exists_rounded numerator positive
  have within : scale * blockSize + m < topRank := by omega
  rw [same, Nat.min_eq_right within.le] at normal ⊢
  exact rounded.error_le normal

/-- Below the middle between the two greatest numbers of the grid all results are finite. -/
theorem nearestRank_lt_topRank (positive : 0 < denominator)
    (below : (numerator : ℚ) / denominator < (units (topRank - 1) + units topRank) / 2) :
    nearestRank numerator denominator < topRank := by
  refine lt_of_le_of_ne (Double.nearestRank_le ..) fun top => ?_
  have near := nearestRank_nearest numerator positive (Nat.sub_le topRank 1)
  rw [top] at near
  have less : (units (topRank - 1) : ℚ) < units topRank := by
    exact_mod_cast units_strictMono (Nat.sub_lt (by decide) (by decide))
  have above := midpoint_le_of_closer less near
  linarith

end FilterPushdown.Number
