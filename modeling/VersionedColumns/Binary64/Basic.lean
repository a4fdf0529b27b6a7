/-!
# Binary floating-point numbers of 64 bits

A number is its bit pattern, so that two numbers are equal exactly when their
patterns are: the two zeros differ and a not-a-number equals itself.

The smallest positive number is `2 ^ (-1074)`, called a step here.  Every
finite number is a whole number of steps, `significand * 2 ^ scale`, and the
patterns without their sign (the codes) grow with the number they stand for.
-/

namespace VersionedColumns

/-- A floating-point number, given by its 64 bits. -/
structure Binary64 where
  bits : UInt64
deriving DecidableEq

namespace Binary64

/-- The number of codes that share one exponent. -/
def codesPerExponent : Nat := 1 <<< 52

/-- The code of infinity; all codes above it are not numbers. -/
def infinityCode : Nat := 2047 * codesPerExponent

/-- The number with a given sign and a given code. -/
def ofCode (negative : Bool) (code : Nat) : Binary64 :=
  ⟨UInt64.ofNat ((if negative then 1 <<< 63 else 0) + code)⟩

/-- Whether the sign bit is set. -/
def negative (number : Binary64) : Bool :=
  1 <<< 63 ≤ number.bits.toNat

/-- The bits below the sign. -/
def code (number : Binary64) : Nat :=
  number.bits.toNat % (1 <<< 63)

/-- Whether the pattern stands for no number at all. -/
def isNaN (number : Binary64) : Bool :=
  infinityCode < number.code

/-- Whether the number is an infinity of either sign. -/
def isInfinite (number : Binary64) : Bool :=
  number.code == infinityCode

/-- Whether the number is neither infinite nor not-a-number. -/
def isFinite (number : Binary64) : Bool :=
  number.code < infinityCode

/-- Whether the number is a zero of either sign. -/
def isZero (number : Binary64) : Bool :=
  number.code == 0

/-- How often the significand of a finite number is doubled. -/
def scale (number : Binary64) : Nat :=
  number.code / codesPerExponent - 1

/-- The significand of a finite number, below `2 ^ 53`. -/
def significand (number : Binary64) : Nat :=
  number.code - number.scale * codesPerExponent

/-- The absolute value of a finite number, counted in steps. -/
def steps (number : Binary64) : Nat :=
  number.significand <<< number.scale

/-- A finite number counted in steps, with its sign. -/
def signedSteps (number : Binary64) : Int :=
  if number.negative then -(number.steps : Int) else number.steps

/-- One, counted in steps. -/
def stepsOfOne : Nat := 1 <<< 1074

/-- Infinity with a given sign. -/
def infinity (negative : Bool) : Binary64 :=
  ofCode negative infinityCode

/-- The quiet not-a-number without payload, with a given sign. -/
def quietNaN (negative : Bool) : Binary64 :=
  ofCode negative (infinityCode + 1 <<< 51)

/-- A not-a-number with its quiet bit set and its payload kept. -/
def quieted (number : Binary64) : Binary64 :=
  ⟨number.bits ||| 0x0008000000000000⟩

end Binary64

end VersionedColumns
