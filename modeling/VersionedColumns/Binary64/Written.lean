import VersionedColumns.Binary64.Shortest

/-!
# Floating-point numbers in text

The digits are always those of the shortest decimal; a layout decides how they
are written.  There are two layouts.  The plain one is positional throughout
and shows a whole number without a point.  The described one always shows that
the number is not an integer, by a point or by an exponent.
-/

namespace VersionedColumns.Binary64

open VersionedColumns.Text

/-- The decisions on how digits are written. -/
structure Layout where
  /-- Whether a whole number shows a point and a zero behind it. -/
  showsPoint : Bool
  /--
  The least and the greatest power of ten of a leading digit that is written
  positionally; without bounds every number is.
  -/
  positionalRange : Option (Int × Int)

/-- Positional throughout, and no point behind a whole number. -/
def plainLayout : Layout where
  showsPoint := false
  positionalRange := none

/-- A point or an exponent in every number. -/
def describedLayout : Layout where
  showsPoint := true
  positionalRange := some (-4, 15)

/-- Whether a leading digit of the given power is written positionally. -/
def Layout.isPositional (layout : Layout) (power : Int) : Bool :=
  match layout.positionalRange with
  | none => true
  | some (least, greatest) => least ≤ power && power ≤ greatest

/-- A decimal in a layout. -/
def Layout.write (layout : Layout) (decimal : Decimal) : List Char :=
  if layout.isPositional decimal.magnitude then
    if layout.showsPoint then decimal.positionalWithPoint
    else decimal.positional
  else decimal.scientific

/-- The absolute value of a number in a layout. -/
def writeAbsolute (number : Binary64) (layout : Layout) : List Char :=
  if number.isInfinite then ['i', 'n', 'f']
  else if number.isZero then layout.write ⟨0, 0⟩
  else layout.write number.shortest

/-- A number in a layout; not-a-number has no sign. -/
def write (number : Binary64) (layout : Layout) : String :=
  String.ofList
    (if number.isNaN then ['N', 'a', 'N']
    else if number.negative then '-' :: number.writeAbsolute layout
    else number.writeAbsolute layout)

/-- A number in the plain layout. -/
def display (number : Binary64) : String :=
  number.write plainLayout

/-- A number in the described layout. -/
def describe (number : Binary64) : String :=
  number.write describedLayout

end VersionedColumns.Binary64
