import FilterPushdown.Proofs.Number.Digits
import FilterPushdown.Proofs.Number.Nearest

/-!
The search for the decimal that a double is written as.  The decimals with as many digits given up
are a grid on which the number has two neighbours; whatever decimal of the grid is read as the
number, the neighbour on its side is so too.  Main statement: the search ends on the coarsest grid
with a decimal that is read as the number, and there with the closest one.
-/

namespace FilterPushdown.Number

open Double

/-! ## Places of expansions -/

/-- The value of the last place of an expansion. -/
@[irreducible] def lastPlace : ℚ := 10 ^ (-1074 : ℤ)

/-- The number of last places in one unit. -/
@[irreducible] def placesPerUnit : Nat := Nat.pow 5 1074

theorem lastPlace_pos : 0 < lastPlace := by
  unfold lastPlace
  positivity

theorem ten_zpow_eq (exponent : ℤ) : (10 : ℚ) ^ exponent = 10 ^ (exponent + 1074) * lastPlace := by
  unfold lastPlace
  rw [← zpow_add₀ (by norm_num)]
  congr 1
  ring

private theorem pow_five_eq : Nat.pow 5 1074 = placesPerUnit := by
  unfold placesPerUnit
  rfl

private theorem exists_placesPerUnit :
    ∃ exponent, exponent = 1074 ∧ placesPerUnit = 5 ^ exponent := by
  unfold placesPerUnit
  refine ⟨1074, rfl, ?_⟩
  generalize 1074 = exponent
  rfl

private theorem exists_lastPlace :
    ∃ exponent : Nat, exponent = 1074 ∧ lastPlace = 1 / 10 ^ exponent := by
  unfold lastPlace
  refine ⟨1074, rfl, ?_⟩
  rw [zpow_neg, one_div, zpow_ofNat]

theorem placesPerUnit_pos : 0 < placesPerUnit := by
  obtain ⟨exponent, -, same⟩ := exists_placesPerUnit
  rw [same]
  exact Nat.pow_pos (by decide)

theorem lastPlace_eq : lastPlace = 1 / (placesPerUnit * unitsPerOne : Nat) := by
  obtain ⟨exponent, places, last⟩ := exists_lastPlace
  obtain ⟨exponent', places', five⟩ := exists_placesPerUnit
  obtain ⟨exponent'', places'', two⟩ := exists_unitsPerOne
  rw [last, five, two, places', places'', ← places, ← mul_pow]
  push_cast
  rfl

/-- The value of a number is its expansion, counted in last places. -/
theorem rankValue_eq (rank : Nat) : rankValue rank = expansion rank * lastPlace := by
  have places : (placesPerUnit : ℚ) ≠ 0 := by exact_mod_cast placesPerUnit_pos.ne'
  rw [rankValue, expansion, pow_five_eq, lastPlace_eq]
  push_cast
  rw [mul_one_div, mul_comm (placesPerUnit : ℚ), mul_div_mul_right _ _ places]

theorem places_nonneg (coefficient dropped : Nat) :
    0 ≤ (coefficient : ℚ) * 10 ^ dropped * lastPlace := by
  have positive := lastPlace_pos
  positivity

theorem abs_places (coefficient dropped : Nat) :
    |(coefficient : ℚ) * 10 ^ dropped * lastPlace| =
      (coefficient * 10 ^ dropped : Nat) * lastPlace := by
  rw [abs_of_nonneg (places_nonneg coefficient dropped)]
  push_cast
  rfl

theorem places_mono {m n : Nat} (order : m ≤ n) : (m : ℚ) * lastPlace ≤ n * lastPlace :=
  mul_le_mul_of_nonneg_right (by exact_mod_cast order) lastPlace_pos.le

/-- A coefficient is tried by its value. -/
theorem readsBack_iff {rank coefficient dropped : Nat} :
    readsBack rank coefficient dropped = true ↔
      magnitude (coefficient * 10 ^ dropped * lastPlace) = rank := by
  have value : |(coefficient : ℚ) * 10 ^ dropped * lastPlace| =
      (coefficient * Nat.pow 10 dropped : Nat) / (placesPerUnit * unitsPerOne : Nat) := by
    rw [abs_places, lastPlace_eq, mul_one_div, Nat.pow_eq]
  rw [readsBack, beq_iff_eq, eq_comm, pow_five_eq,
    magnitude_eq (Nat.mul_pos placesPerUnit_pos unitsPerOne_pos) value,
    nearestRank_mul _ _ unitsPerOne_pos]

/-- Between a number and a decimal that is read as it, all are read as it. -/
theorem magnitude_of_between {p q : ℚ} {rank : Nat} (bound : rank ≤ topRank)
    (same : magnitude p = rank)
    (between : |p| ≤ |q| ∧ |q| ≤ rankValue rank ∨ rankValue rank ≤ |q| ∧ |q| ≤ |p|) :
    magnitude q = rank := by
  have own := magnitude_rankValue bound
  have value := abs_of_nonneg (rankValue_nonneg rank)
  rcases between with ⟨low, high⟩ | ⟨low, high⟩
  · apply le_antisymm
    · exact own ▸ magnitude_mono (value.symm ▸ high)
    · exact same ▸ magnitude_mono low
  · apply le_antisymm
    · exact same ▸ magnitude_mono high
    · exact own ▸ magnitude_mono (value.symm ▸ low)

/-! ## The search for the shortest decimal -/

variable {rank coefficient dropped : Nat}

/-- How far a decimal is from a number, in last places. -/
def offset (rank coefficient dropped : Nat) : Nat :=
  (coefficient * 10 ^ dropped - expansion rank) + (expansion rank - coefficient * 10 ^ dropped)

theorem abs_sub_rankValue (rank coefficient dropped : Nat) :
    |(coefficient : ℚ) * 10 ^ dropped * lastPlace - rankValue rank| =
      offset rank coefficient dropped * lastPlace := by
  have value : (coefficient : ℚ) * 10 ^ dropped = (coefficient * 10 ^ dropped : Nat) := by
    push_cast
    rfl
  rw [rankValue_eq, ← sub_mul, abs_mul, abs_of_pos lastPlace_pos, value, offset]
  congr 1
  rcases Nat.le_total (coefficient * 10 ^ dropped) (expansion rank) with below | above
  · rw [Nat.sub_eq_zero_of_le below, Nat.zero_add, Nat.cast_sub below, abs_sub_comm]
    exact abs_of_nonneg (sub_nonneg.mpr (by exact_mod_cast below))
  · rw [Nat.sub_eq_zero_of_le above, Nat.add_zero, Nat.cast_sub above]
    exact abs_of_nonneg (sub_nonneg.mpr (by exact_mod_cast above))

/-- The neighbours of a number after the last digits are given up, and how far they are from it. -/
theorem neighbours (rank dropped : Nat) {low rest : Nat}
    (divided : low = expansion rank / 10 ^ dropped) (left : rest = expansion rank % 10 ^ dropped) :
    low * 10 ^ dropped ≤ expansion rank ∧ expansion rank ≤ (low + 1) * 10 ^ dropped ∧
      offset rank low dropped = rest ∧ offset rank (low + 1) dropped + rest = 10 ^ dropped := by
  have whole := Nat.div_add_mod' (expansion rank) (10 ^ dropped)
  have part := Nat.mod_lt (expansion rank) (Nat.pow_pos (show 0 < 10 by decide) (n := dropped))
  rw [← divided, ← left] at whole
  rw [← left] at part
  unfold offset
  rw [Nat.succ_mul]
  omega

/-- If a decimal is read as a number, so is the neighbour on its side, which is no farther. -/
theorem neighbour_of_readsBack (bound : rank ≤ topRank)
    (reads : readsBack rank coefficient dropped = true) {low : Nat}
    (divided : low = expansion rank / 10 ^ dropped) :
    ∃ neighbour, (neighbour = low ∨ neighbour = low + 1) ∧
      readsBack rank neighbour dropped = true ∧
      offset rank neighbour dropped ≤ offset rank coefficient dropped := by
  obtain ⟨below, above, -, -⟩ := neighbours rank dropped divided rfl
  rw [readsBack_iff] at reads
  rcases Nat.lt_or_ge low coefficient with right | left
  · have order : (low + 1) * 10 ^ dropped ≤ coefficient * 10 ^ dropped :=
      Nat.mul_le_mul_right _ right
    refine ⟨low + 1, .inr rfl, readsBack_iff.mpr ?_, ?_⟩
    · apply magnitude_of_between bound reads
      rw [abs_places, abs_places, rankValue_eq]
      exact .inr ⟨places_mono above, places_mono order⟩
    · unfold offset
      omega
  · have order : coefficient * 10 ^ dropped ≤ low * 10 ^ dropped := Nat.mul_le_mul_right _ left
    refine ⟨low, .inl rfl, readsBack_iff.mpr ?_, ?_⟩
    · apply magnitude_of_between bound reads
      rw [abs_places, abs_places, rankValue_eq]
      exact .inl ⟨places_mono order, places_mono below⟩
    · unfold offset
      omega

/-- A neighbour that is found reads back, and no decimal with as few digits is closer. -/
theorem closest_of_neighbour? (bound : rank ≤ topRank)
    (found : neighbour? rank dropped = some coefficient) :
    coefficient ≤ expansion rank / 10 ^ dropped + 1 ∧
      readsBack rank coefficient dropped = true ∧
      ∀ other, readsBack rank other dropped = true →
        offset rank coefficient dropped ≤ offset rank other dropped := by
  have back := readsBack_of_neighbour? found
  obtain ⟨low, divided⟩ : ∃ low, low = expansion rank / 10 ^ dropped := ⟨_, rfl⟩
  obtain ⟨rest, left⟩ : ∃ rest, rest = expansion rank % 10 ^ dropped := ⟨_, rfl⟩
  obtain ⟨-, -, near, far⟩ := neighbours rank dropped divided left
  -- It is the one neighbour that reads back, or the nearer one of both.
  have chosen : (coefficient = low ∨ coefficient = low + 1) ∧
      (readsBack rank low dropped = true →
        offset rank coefficient dropped ≤ offset rank low dropped) ∧
      (readsBack rank (low + 1) dropped = true →
        offset rank coefficient dropped ≤ offset rank (low + 1) dropped) := by
    unfold neighbour? at found
    simp only [Nat.pow_eq, ← divided, ← left] at found
    split at found
    · cases found
    · rename_i lower upper
      cases found
      simp [lower, upper]
    · rename_i lower upper
      cases found
      simp [lower, upper]
    · split at found
      · cases found
        refine ⟨.inl rfl, fun _ => le_rfl, fun _ => ?_⟩
        omega
      · cases found
        refine ⟨.inr rfl, fun _ => ?_, fun _ => le_rfl⟩
        omega
  refine ⟨by omega, back, fun other reads => ?_⟩
  obtain ⟨neighbour, rfl | rfl, also, order⟩ := neighbour_of_readsBack bound reads divided
  · exact (chosen.2.1 also).trans order
  · exact (chosen.2.2 also).trans order

/-- Where no neighbour is found, no decimal with as few digits reads back. -/
theorem readsBack_of_no_neighbour (bound : rank ≤ topRank)
    (none : neighbour? rank dropped = none) (coefficient : Nat) :
    readsBack rank coefficient dropped = false := by
  rw [← Bool.not_eq_true]
  intro reads
  obtain ⟨neighbour, side, also, -⟩ := neighbour_of_readsBack bound reads rfl
  unfold neighbour? at none
  simp only [Nat.pow_eq] at none
  split at none
  · rename_i lower upper
    rcases side with rfl | rfl
    · rw [also] at lower
      cases lower
    · rw [also] at upper
      cases upper
  · cases none
  · cases none
  · split at none <;> cases none

/-- The decimal that the search ends with: it is found, and with fewer digits none is. -/
structure Kept (rank most : Nat) (kept : Nat × Nat) : Prop where
  le : kept.2 ≤ most
  found : neighbour? rank kept.2 = some kept.1
  none : ∀ dropped, kept.2 < dropped → dropped ≤ most → neighbour? rank dropped = none

theorem neighbour?_zero (bound : rank ≤ topRank) : neighbour? rank 0 = some (expansion rank) := by
  have own : readsBack rank (expansion rank) 0 = true := by
    rw [readsBack_iff, pow_zero, mul_one, ← rankValue_eq, magnitude_rankValue bound]
  unfold neighbour?
  simp only [Nat.pow_eq, pow_zero, Nat.div_one, Nat.mod_one, own]
  split <;> simp_all

theorem kept_dropDigits (bound : rank ≤ topRank) (most : Nat) :
    Kept rank most (dropDigits rank most) := by
  induction most with
  | zero => exact ⟨le_rfl, neighbour?_zero bound, fun _ more less => absurd less (by omega)⟩
  | succ most ih =>
    rw [dropDigits]
    split
    · rename_i found
      exact ⟨le_rfl, found, fun _ more less => absurd less (by omega)⟩
    · rename_i missed
      refine ⟨ih.le.trans (Nat.le_succ most), ih.found, fun dropped more less => ?_⟩
      rcases Nat.le_succ_iff.mp less with less | rfl
      · exact ih.none dropped more less
      · exact missed

end FilterPushdown.Number
