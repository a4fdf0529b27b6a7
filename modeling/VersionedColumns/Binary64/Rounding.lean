import VersionedColumns.Binary64.Basic

/-!
# Rounding and exact arithmetic

Every operation is computed exactly on steps and rounded once, to the nearest
number and on a tie to the one with an even significand.
-/

namespace VersionedColumns

/-- The whole number nearest to a quotient; a tie goes to the even one. -/
def nearestEven (numerator denominator : Nat) : Nat :=
  let quotient := numerator / denominator
  let remainder := numerator % denominator
  if 2 * remainder < denominator then quotient
  else if denominator < 2 * remainder then quotient + 1
  else quotient + quotient % 2

namespace Binary64

/-- How often a significand must be doubled to reach a number of steps. -/
def scaleFor (steps : Nat) : Nat :=
  if steps < 1 <<< 53 then 0 else Nat.log2 steps - 52

/--
The code nearest to a quotient of steps.  A significand that is rounded up to
`2 ^ 53` carries over into the next exponent, as the codes are consecutive.
-/
def nearestCode (numerator denominator : Nat) : Nat :=
  let scale := scaleFor (numerator / denominator)
  let significand := nearestEven numerator (denominator <<< scale)
  min infinityCode (scale * codesPerExponent + significand)

/-- The number nearest to a quotient of steps, with a given sign. -/
def ofQuotient (negative : Bool) (numerator denominator : Nat) : Binary64 :=
  ofCode negative (nearestCode numerator denominator)

/-- The number nearest to a whole number of steps. -/
def ofSteps (steps : Int) : Binary64 :=
  ofQuotient (steps < 0) steps.natAbs 1

/-- The number nearest to a whole number. -/
def ofInteger (number : Int) : Binary64 :=
  ofSteps (number * stepsOfOne)

/-- The whole number nearest to a finite number; a half goes away from zero. -/
def roundAway (number : Binary64) : Int :=
  let size := (2 * number.steps + stepsOfOne) / (2 * stepsOfOne)
  if number.negative then -(size : Int) else size

/--
The sum of two numbers.  A not-a-number is passed on, the first one before the
second, and opposite infinities have no sum; a sum of zero is positive unless
both summands are negative.
-/
def add (left right : Binary64) : Binary64 :=
  if left.isNaN then left.quieted
  else if right.isNaN then right.quieted
  else if left.isInfinite then
    if right.isInfinite && left.negative != right.negative then quietNaN true
    else left
  else if right.isInfinite then right
  else
    let total := left.signedSteps + right.signedSteps
    if total = 0 then ofCode (left.negative && right.negative) 0
    else ofSteps total

end Binary64

end VersionedColumns
