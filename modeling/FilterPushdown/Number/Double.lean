/-!
Double precision numbers, given by their rank.  The nonnegative numbers of the binary64 grid are
counted from zero upwards, infinity being the last one, and a negative number has the negated
rank of its absolute value.  There is one zero and no undefined number, so equal ranks are equal
numbers and the order of ranks is the order of numbers.  Magnitudes are measured in units of
`2 ^ (-1074)`, the least positive number, and everything is computed on natural numbers.
-/

namespace FilterPushdown.Number

/-- The number of ranks in a block, within which numbers are evenly spaced: `2 ^ 52`. -/
def blockSize : Nat := 4503599627370496

/-- The rank of infinity: 2047 blocks lie below it. -/
def topRank : Nat := 2047 * blockSize

/-- The number of a rank, in units of `2 ^ (-1074)`.  The first two blocks of ranks are evenly
spaced; from then on each block is spaced twice as widely as the block before. -/
def units (rank : Nat) : Nat :=
  if rank < blockSize then rank
  else (blockSize + rank % blockSize) * Nat.pow 2 (rank / blockSize - 1)

/-- The nearest whole number to a quotient; a tie goes to the even neighbour. -/
def roundHalfEven (numerator denominator : Nat) : Nat :=
  let low := numerator / denominator
  let rest := numerator % denominator
  if 2 * rest < denominator ∨ (2 * rest = denominator ∧ low % 2 = 0) then low else low + 1

/-- The rank of the number nearest to `numerator / denominator` units.  A tie goes to the even
neighbour, and from half a step above the greatest finite number on the nearest is infinity. -/
def nearestRank (numerator denominator : Nat) : Nat :=
  let scale := (numerator / denominator).log2 - 52
  min topRank (scale * blockSize + roundHalfEven numerator (denominator * Nat.pow 2 scale))

/-- A double precision number: its rank, negated for a negative number. -/
structure Double where
  rank : Int
  bound : rank.natAbs ≤ topRank
  deriving DecidableEq, Repr

namespace Double

/-- Whether the number is not one of the two infinities. -/
def IsFinite (x : Double) : Prop := x.rank.natAbs < topRank

instance (x : Double) : Decidable x.IsFinite := inferInstanceAs (Decidable (_ < _))

/-- The number of a sign and a magnitude. -/
def ofMagnitude (negative : Bool) (rank : Nat) (bound : rank ≤ topRank) : Double :=
  if negative then ⟨-rank, by omega⟩ else ⟨rank, by omega⟩

theorem nearestRank_le (numerator denominator : Nat) :
    nearestRank numerator denominator ≤ topRank := Nat.min_le_left ..

/-- The double nearest to `coefficient * 10 ^ exponent`, with the given sign. -/
def ofDecimal (negative : Bool) (coefficient : Nat) (exponent : Int) : Double :=
  match exponent with
  | .ofNat zeros =>
    ofMagnitude negative (nearestRank (coefficient * Nat.pow 10 zeros * Nat.pow 2 1074) 1)
      (nearestRank_le ..)
  | .negSucc places =>
    ofMagnitude negative (nearestRank (coefficient * Nat.pow 2 1074) (Nat.pow 10 (places + 1)))
      (nearestRank_le ..)

end Double

end FilterPushdown.Number
