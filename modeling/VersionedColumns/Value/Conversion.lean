import VersionedColumns.Binary64.Reading
import VersionedColumns.Error
import VersionedColumns.Text.Blank

/-!
# Conversion between column types

A value converts to a type when it has a counterpart there: numbers must fit,
texts must read as a value of the type once surrounding blanks are dropped, and
everything has a text.  Null is at home in every column.
-/

namespace VersionedColumns.Value

open VersionedColumns.Text

/-- The integer value of 32 bits with a given number, if it fits. -/
def ofInt32? (number : Int) : Option Value :=
  if Int32.minValue.toInt ≤ number ∧ number ≤ Int32.maxValue.toInt then
    some (int (Int32.ofInt number))
  else none

/-- The integer value of 64 bits with a given number, if it fits. -/
def ofInt64? (number : Int) : Option Value :=
  if Int64.minValue.toInt ≤ number ∧ number ≤ Int64.maxValue.toInt then
    some (bigInt (Int64.ofInt number))
  else none

/-- The truth value that a word stands for, in small or capital letters. -/
def readBoolean? (text : List Char) : Option Bool :=
  let word := smallLetters text
  if word ∈ ["true", "t", "yes", "1"].map String.toList then some true
  else if word ∈ ["false", "f", "no", "0"].map String.toList then some false
  else none

/-- The truth value of a number or a word. -/
def toBoolean? : Value → Option Bool
  | int number => some (number != 0)
  | bigInt number => some (number != 0)
  | varchar text => readBoolean? (trim text.toList)
  | null | boolean _ | double _ => none

/-- The whole number of a value; that of a double is the nearest one. -/
def toInteger? : Value → Option Int
  | boolean flag => some (if flag then 1 else 0)
  | int number => some number.toInt
  | bigInt number => some number.toInt
  | double number => if number.isFinite then some number.roundAway else none
  | varchar text => readInteger? (trim text.toList)
  | null => none

/-- The floating-point number nearest to a value. -/
def toBinary64? : Value → Option Binary64
  | boolean flag => some (Binary64.ofInteger (if flag then 1 else 0))
  | int number => some (Binary64.ofInteger number.toInt)
  | bigInt number => some (Binary64.ofInteger number.toInt)
  | varchar text => Binary64.read? (trim text.toList)
  | null | double _ => none

/-- The counterpart of a value in another type. -/
def counterpart? (value : Value) : ColumnType → Option Value
  | .boolean => value.toBoolean?.map boolean
  | .int => value.toInteger?.bind ofInt32?
  | .bigInt => value.toInteger?.bind ofInt64?
  | .double => value.toBinary64?.map double
  | .varchar => some (varchar value.display)

/-- Whether a column of a type can hold the value. -/
def fits (value : Value) (type : ColumnType) : Bool :=
  value.type? == none || value.type? == some type

/-- The value itself where it fits, and its counterpart where it has one. -/
def convertTo (value : Value) (target : ColumnType) : Except Error Value :=
  if value.fits target then .ok value
  else
    match value.counterpart? target with
    | some converted => .ok converted
    | none => .error (.conversion value target)

@[simp]
theorem fits_iff {value : Value} {type : ColumnType} :
    value.fits type = true ↔ value = null ∨ value.type? = some type := by
  simp [fits]

/-- A value that fits is left as it is. -/
theorem convertTo_of_fits {value : Value} {target : ColumnType}
    (fitting : value.fits target = true) :
    value.convertTo target = .ok value := by
  rw [convertTo, if_pos fitting]

/-- A counterpart has the type it was asked for. -/
theorem type?_of_counterpart? {value converted : Value} {target : ColumnType}
    (found : value.counterpart? target = some converted) :
    converted.type? = some target := by
  cases target with
  | boolean =>
    obtain ⟨flag, -, rfl⟩ := Option.map_eq_some_iff.1 found
    rfl
  | int =>
    obtain ⟨number, -, inRange⟩ := Option.bind_eq_some_iff.1 found
    unfold ofInt32? at inRange
    split at inRange
    · cases inRange; rfl
    · contradiction
  | bigInt =>
    obtain ⟨number, -, inRange⟩ := Option.bind_eq_some_iff.1 found
    unfold ofInt64? at inRange
    split at inRange
    · cases inRange; rfl
    · contradiction
  | double =>
    obtain ⟨number, -, rfl⟩ := Option.map_eq_some_iff.1 found
    rfl
  | varchar =>
    cases found
    rfl

/-- A conversion that fails tells the value and the type. -/
theorem eq_conversion_of_convertTo {value : Value} {target : ColumnType}
    {error : Error} (fails : value.convertTo target = .error error) :
    error = .conversion value target := by
  unfold convertTo at fails
  split at fails
  · contradiction
  · split at fails
    · contradiction
    · cases fails
      rfl

/-- What a conversion yields fits the type. -/
theorem fits_of_convertTo {value converted : Value} {target : ColumnType}
    (converts : value.convertTo target = .ok converted) :
    converted.fits target = true := by
  unfold convertTo at converts
  split at converts
  · cases converts; assumption
  · split at converts
    · rename_i found
      cases converts
      simp [type?_of_counterpart? found]
    · contradiction

end VersionedColumns.Value
