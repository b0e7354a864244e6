import FilterPushdown.Number.Double

/-!
The shortest decimal that reads back as a given double.  For one digit, two digits and so on, the
two neighbours of the number on that decimal grid are read back; the first grid on which one of
them is the number wins, and of two hits the nearer one, an exact tie going to the even one.  At
the length of the number's own decimal expansion the lower neighbour is the number itself, which
bounds the search.
-/

namespace FilterPushdown.Number

/-- The number of decimal digits of a natural number; zero has one. -/
def digitCount (n : Nat) : Nat := (Nat.toDigits 10 n).length

/-- The decimal expansion of a finite number, as a whole number of units of `10 ^ (-1074)`. -/
def expansion (rank : Nat) : Nat := units rank * Nat.pow 5 1074

/-- Whether `coefficient * 10 ^ dropped` units of `10 ^ (-1074)` are nearest to the number of a
rank. -/
def readsBack (rank coefficient dropped : Nat) : Bool :=
  rank == nearestRank (coefficient * Nat.pow 10 dropped) (Nat.pow 5 1074)

/-- The neighbour that reads back, if one does, after the last `dropped` digits are given up. -/
def neighbour? (rank dropped : Nat) : Option Nat :=
  let step := Nat.pow 10 dropped
  let low := expansion rank / step
  let rest := expansion rank % step
  match readsBack rank low dropped, readsBack rank (low + 1) dropped with
  | false, false => none
  | true, false => some low
  | false, true => some (low + 1)
  | true, true =>
    if 2 * rest < step ∨ (2 * rest = step ∧ low % 2 = 0) then some low
    else some (low + 1)

/-- Gives up as many of the last digits as possible, trying first to give up `dropped` of them.
The result is a coefficient and the number of digits given up. -/
def dropDigits (rank : Nat) : (dropped : Nat) → Nat × Nat
  | 0 => (expansion rank, 0)
  | dropped + 1 =>
    match neighbour? rank (dropped + 1) with
    | some coefficient => (coefficient, dropped + 1)
    | none => dropDigits rank dropped

/-- The digits of a coefficient without the zeros at its end. -/
def significantDigits (coefficient : Nat) : List Char :=
  (Nat.toDigits 10 coefficient).reverse.dropWhile (· == '0') |>.reverse

/-- A decimal as its digits and the place of its point: the value is `0.digits * 10 ^ point`. -/
structure Decimal where
  digits : List Char
  point : Int
  deriving DecidableEq, Repr

/-- The shortest decimal of the finite nonzero number of a rank. -/
def shortest (rank : Nat) : Decimal :=
  let kept := dropDigits rank (digitCount (expansion rank) - 1)
  { digits := significantDigits kept.1
    point := (digitCount kept.1 : Int) + kept.2 - 1074 }

end FilterPushdown.Number
