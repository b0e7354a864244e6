import FilterPushdown.Number.Shortest

/-!
The digits of the shortest decimal.  There is at least one, because zero reads back as nothing but
zero.
-/

namespace FilterPushdown.Number

theorem nearestRank_zero (denominator : Nat) : nearestRank 0 denominator = 0 := by
  have low : roundHalfEven 0 (denominator * Nat.pow 2 0) = 0 := by
    unfold roundHalfEven
    rw [Nat.zero_div, Nat.zero_mod]
    by_cases zero : denominator * Nat.pow 2 0 = 0
    · rw [zero]
      rfl
    · have positive := Nat.pos_of_ne_zero zero
      rw [if_pos (.inl (by omega))]
  unfold nearestRank
  simp only [Nat.zero_div, Nat.log2_zero, Nat.zero_sub, low, Nat.zero_mul]
  exact Nat.min_zero topRank

private theorem scaled_ne_zero {n base : Nat} (nonzero : n ≠ 0) (positive : 0 < base)
    (exponent : Nat) : n * Nat.pow base exponent ≠ 0 :=
  Nat.mul_ne_zero nonzero (Nat.ne_of_gt (Nat.pow_pos positive))

theorem units_ne_zero {rank : Nat} (nonzero : rank ≠ 0) : units rank ≠ 0 := by
  unfold units
  split
  · exact nonzero
  · have positive : 0 < blockSize := by decide
    exact scaled_ne_zero (by omega) (by decide) _

theorem expansion_ne_zero {rank : Nat} (nonzero : rank ≠ 0) : expansion rank ≠ 0 := by
  have units := units_ne_zero nonzero
  unfold expansion
  generalize 1074 = places
  exact scaled_ne_zero units (by decide) places

/-- A neighbour that is found reads back. -/
theorem readsBack_of_neighbour? {rank coefficient dropped : Nat}
    (found : neighbour? rank dropped = some coefficient) :
    readsBack rank coefficient dropped = true := by
  unfold neighbour? at found
  dsimp only at found
  split at found
  · cases found
  · rename_i lower _
    cases found
    exact lower
  · rename_i upper
    cases found
    exact upper
  · rename_i lower upper
    split at found
    · cases found
      exact lower
    · cases found
      exact upper

private theorem coefficient_ne_zero {rank coefficient dropped : Nat} (nonzero : rank ≠ 0)
    (same : readsBack rank coefficient dropped = true) : coefficient ≠ 0 := by
  intro zero
  apply nonzero
  rw [eq_of_beq same, zero, Nat.zero_mul, nearestRank_zero]

theorem dropDigits_ne_zero {rank : Nat} (nonzero : rank ≠ 0) (dropped : Nat) :
    (dropDigits rank dropped).1 ≠ 0 := by
  induction dropped with
  | zero =>
    rw [dropDigits]
    exact expansion_ne_zero nonzero
  | succ dropped ih =>
    rw [dropDigits]
    split
    · rename_i found
      exact coefficient_ne_zero nonzero (readsBack_of_neighbour? found)
    · exact ih

theorem isDigit_of_mem_significantDigits {coefficient : Nat} {c : Char}
    (inside : c ∈ significantDigits coefficient) : c.isDigit = true := by
  unfold significantDigits at inside
  have first := (List.dropWhile_sublist _).subset (List.mem_reverse.mp inside)
  exact Nat.isDigit_of_mem_toDigits (by decide) (by decide) (List.mem_reverse.mp first)

/-- Only zero has nothing but zeros. -/
theorem significantDigits_ne_nil {coefficient : Nat} (nonzero : coefficient ≠ 0) :
    significantDigits coefficient ≠ [] := by
  intro none
  unfold significantDigits at none
  have all := @List.any_dropWhile _ (· == '0') (Nat.toDigits 10 coefficient).reverse
  rw [List.reverse_eq_nil_iff.mp none, List.any_nil, eq_comm, Bool.not_eq_false',
    List.all_eq_true] at all
  have zeros : Nat.toDigits 10 coefficient =
      List.replicate (Nat.toDigits 10 coefficient).length '0' := by
    apply List.eq_replicate_of_mem
    intro c inside
    exact beq_iff_eq.mp (all c (List.mem_reverse.mpr inside))
  have value := @Nat.ofDigitChars_ten_toDigits coefficient
  rw [zeros, Nat.ofDigitChars_replicate_zero, Nat.mul_zero] at value
  exact nonzero value.symm

theorem shortest_digits_ne_nil {rank : Nat} (nonzero : rank ≠ 0) : (shortest rank).digits ≠ [] :=
  significantDigits_ne_nil (dropDigits_ne_zero nonzero (digitCount (expansion rank) - 1))

theorem isDigit_of_mem_shortest {rank : Nat} {c : Char} (inside : c ∈ (shortest rank).digits) :
    c.isDigit = true := by
  unfold shortest at inside
  exact isDigit_of_mem_significantDigits inside

end FilterPushdown.Number
