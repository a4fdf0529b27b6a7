import VersionedColumns.Binary64.Basic
import VersionedColumns.Text.Decimal

/-!
# The shortest decimal that reads back

A decimal reads back as a number when it lies in the number's rounding
interval: the reals that are nearer to it than to its neighbours, ends included
exactly when the significand is even.  Of the decimals in the interval the one
with the fewest digits is taken, of several such the nearest, and of two that
are equally near the larger.

All lengths are counted in units of `10 ^ (-1076)`, a quarter of a step divided
by a power of five, so that only whole numbers occur.
-/

namespace VersionedColumns.Binary64

open VersionedColumns.Text

/-- A value with the interval of lengths that round to it. -/
structure RoundingInterval where
  low : Nat
  value : Nat
  high : Nat
  closed : Bool

/-- Whether a length rounds to the value. -/
def RoundingInterval.holds (interval : RoundingInterval) (length : Nat) :
    Bool :=
  if interval.closed then
    interval.low ≤ length && length ≤ interval.high
  else
    interval.low < length && length < interval.high

/--
The rounding interval of a finite number's absolute value.  The lower half is
narrower where the spacing changes, at the smallest significand of a scale.
-/
def roundingInterval (number : Binary64) : RoundingInterval :=
  let significand := number.significand
  let quarter := Nat.pow 5 1076 <<< number.scale
  let gap := if significand = 1 <<< 52 ∧ 0 < number.scale then 1 else 2
  { low := (4 * significand - gap) * quarter
    value := 4 * significand * quarter
    high := (4 * significand + 2) * quarter
    closed := significand % 2 == 0 }

/-- The nearest multiple of the grid in the interval, if it holds any. -/
def RoundingInterval.onGrid? (interval : RoundingInterval) (grid : Nat) :
    Option Nat :=
  let index := interval.value / grid
  let below := index * grid
  let above := below + grid
  match interval.holds below, interval.holds above with
  | true, true =>
    some (if interval.value - below < above - interval.value then index
      else index + 1)
  | true, false => some index
  | false, true => some (index + 1)
  | false, false => none

/--
The shortest decimal that reads back as the absolute value of a finite number
other than zero.  Seventeen digits always suffice.
-/
def shortest (number : Binary64) : Decimal :=
  let interval := number.roundingInterval
  let length := (naturalDigits interval.value).length
  let candidate (count : Nat) : Option Decimal :=
    (interval.onGrid? (Nat.pow 10 (length - count))).map fun digits =>
      ⟨digits, ((length - count : Nat) : Int) - 1076⟩
  ((List.range 18).findSome? candidate).getD ⟨interval.value, -1076⟩

end VersionedColumns.Binary64
