import VersionedColumns.Binary64.Rounding
import VersionedColumns.Text.Letters
import VersionedColumns.Text.Numeral

/-!
# Reading floating-point numbers

A number is an optional sign and then a word for infinity or not-a-number, or
digits with at most one point among them and an optional exponent.  The value
is the one nearest to the decimal, however many digits it has.
-/

namespace VersionedColumns.Binary64

open VersionedColumns.Text

/--
The number nearest to `digits * 10 ^ exponent`.  Beyond the first two bounds
the decimal is above every finite number or below half a step, and the power of
ten need not be computed.
-/
def ofDecimal (negative : Bool) (digits : Nat) (exponent : Int) : Binary64 :=
  let magnitude := exponent + (naturalDigits digits).length
  if digits = 0 then ofCode negative 0
  else if 400 < magnitude then infinity negative
  else if magnitude < -400 then ofCode negative 0
  else
    ofQuotient negative (digits * Nat.pow 10 exponent.toNat * stepsOfOne)
      (Nat.pow 10 (-exponent).toNat)

/-- Read an exponent at the end of a number; a missing one is zero. -/
def readExponent? : List Char → Option Int
  | [] => some 0
  | mark :: rest =>
    if mark = 'e' ∨ mark = 'E' then readInteger? rest else none

/-- Split off the digits behind a point; without a point there are none. -/
def takeFraction : List Char → List Char × List Char
  | '.' :: rest => (rest.takeWhile Char.isDigit, rest.dropWhile Char.isDigit)
  | text => ([], text)

/-- Read digits with at most one point and an optional exponent. -/
def readDecimal? (negative : Bool) (text : List Char) : Option Binary64 :=
  let whole := text.takeWhile Char.isDigit
  let (fraction, rest) := takeFraction (text.dropWhile Char.isDigit)
  if whole.isEmpty && fraction.isEmpty then none
  else
    (readExponent? rest).map fun exponent =>
      ofDecimal negative (ofDigits (whole ++ fraction))
        (exponent - fraction.length)

/-- Read a word that stands for a number, in small or capital letters. -/
def readWord? (negative : Bool) (text : List Char) : Option Binary64 :=
  let word := smallLetters text
  if word = "inf".toList ∨ word = "infinity".toList then
    some (infinity negative)
  else if word = "nan".toList then some (quietNaN negative)
  else none

/-- Read a floating-point number that fills the whole text. -/
def read? (text : List Char) : Option Binary64 :=
  let (negative, rest) := takeSign text
  (readDecimal? negative rest).or (readWord? negative rest)

end VersionedColumns.Binary64
