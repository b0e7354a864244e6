import FilterPushdown.Number.Shortest

/-!
The written form of numbers.  A decimal is laid out with or without an exponent according to the
place of its point; the two limits are collected in one record.
-/

namespace FilterPushdown.Number

/-- The range of decimals that are written without an exponent. -/
structure Layout where
  /-- The most digits that stand before the point. -/
  wholeDigits : Nat
  /-- The most places by which the point stands before the first digit. -/
  leadingZeros : Nat

/-- Numbers are written out from `0.000001` up to twenty-one digits before the point. -/
def plain : Layout := ⟨21, 5⟩

/-- Text of an exponent: always signed, without leading zeros. -/
def exponentText (exponent : Int) : List Char :=
  (if exponent < 0 then '-' else '+') :: Nat.toDigits 10 exponent.natAbs

/-- Writes a decimal with at least one digit. -/
def Layout.write (layout : Layout) (decimal : Decimal) : List Char :=
  let digits := decimal.digits
  let point := decimal.point
  if 0 < point ∧ point ≤ layout.wholeDigits then
    if digits.length ≤ point.toNat then
      digits ++ List.replicate (point.toNat - digits.length) '0'
    else
      digits.take point.toNat ++ '.' :: digits.drop point.toNat
  else if -(layout.leadingZeros : Int) ≤ point ∧ point ≤ 0 then
    '0' :: '.' :: (List.replicate point.natAbs '0' ++ digits)
  else
    digits.take 1 ++ (if digits.length ≤ 1 then [] else '.' :: digits.drop 1) ++
      'e' :: exponentText (point - 1)

/-- The text of a magnitude. -/
def magnitudeText (rank : Nat) : List Char :=
  if rank = 0 then ['0']
  else if rank = topRank then "Infinity".toList
  else plain.write (shortest rank)

/-- The text of a number: the fewest digits that read back as the number. -/
def Double.text (x : Double) : String :=
  String.ofList ((if x.rank < 0 then ['-'] else []) ++ magnitudeText x.rank.natAbs)

end FilterPushdown.Number
