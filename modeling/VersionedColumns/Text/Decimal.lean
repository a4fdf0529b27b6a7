import VersionedColumns.Text.Numeral

/-!
# Decimal fractions and their two notations

A decimal is a whole number of digits and a power of ten.  Positional notation
writes every place between the digits and the decimal point; scientific
notation puts the point behind the first digit and names the power.
-/

namespace VersionedColumns.Text

/-- The number `digits * 10 ^ exponent`. -/
structure Decimal where
  digits : Nat
  exponent : Int
deriving DecidableEq

namespace Decimal

/-- The power of ten of the leading digit. -/
def magnitude (decimal : Decimal) : Int :=
  decimal.exponent + (naturalDigits decimal.digits).length - 1

/-- All places down to the last digit, with a point only before a fraction. -/
def positional (decimal : Decimal) : List Char :=
  let digits := naturalDigits decimal.digits
  if 0 ≤ decimal.exponent then
    digits ++ List.replicate decimal.exponent.toNat '0'
  else
    let places := decimal.exponent.natAbs
    if places < digits.length then
      digits.take (digits.length - places) ++
        '.' :: digits.drop (digits.length - places)
    else
      '0' :: '.' :: List.replicate (places - digits.length) '0' ++ digits

/-- Positional notation that shows at least one place after the point. -/
def positionalWithPoint (decimal : Decimal) : List Char :=
  if 0 ≤ decimal.exponent then decimal.positional ++ ['.', '0']
  else decimal.positional

/-- The leading digit, a point before the others, and the power of ten. -/
def scientific (decimal : Decimal) : List Char :=
  let power := 'e' :: writeInteger decimal.magnitude
  match naturalDigits decimal.digits with
  | leading :: next :: rest => leading :: '.' :: next :: rest ++ power
  | digits => digits ++ power

end Decimal

end VersionedColumns.Text
