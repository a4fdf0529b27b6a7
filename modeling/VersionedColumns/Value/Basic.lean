import VersionedColumns.Binary64.Basic

/-!
# Cell values

A cell holds a value of one of five column types, or none.  Values are equal
when they have the same type and content; doubles are compared by their bits,
so that every value can stand for itself as the key of an index.
-/

namespace VersionedColumns

/-- The declared type of a column. -/
inductive ColumnType where
  | boolean
  | int
  | bigInt
  | double
  | varchar
deriving DecidableEq

/-- The name of a column type. -/
def ColumnType.name : ColumnType → String
  | .boolean => "Boolean"
  | .int => "Int"
  | .bigInt => "BigInt"
  | .double => "Double"
  | .varchar => "Varchar"

/-- The content of one cell. -/
inductive Value where
  | null
  | boolean (flag : Bool)
  | int (number : Int32)
  | bigInt (number : Int64)
  | double (number : Binary64)
  | varchar (text : String)
deriving DecidableEq

namespace Value

/-- The type of a value; the null value has none. -/
def type? : Value → Option ColumnType
  | null => none
  | boolean _ => some .boolean
  | int _ => some .int
  | bigInt _ => some .bigInt
  | double _ => some .double
  | varchar _ => some .varchar

/-- Whether the cell is empty. -/
def isNull : Value → Bool
  | null => true
  | _ => false

/-- The null value where there is no other. -/
def ofOption (value : Option Value) : Value :=
  value.getD null

/--
The bytes a value takes when it is stored: four for its kind, the content, and
for a text its length in eight bytes before its encoding.
-/
def footprint : Value → Nat
  | null => 4
  | boolean _ => 4 + 1
  | int _ => 4 + 4
  | bigInt _ => 4 + 8
  | double _ => 4 + 8
  | varchar text => 4 + 8 + text.utf8ByteSize

@[simp]
theorem type?_eq_none_iff {value : Value} :
    value.type? = none ↔ value = null := by
  cases value <;> simp [type?]

@[simp]
theorem isNull_iff {value : Value} : value.isNull = true ↔ value = null := by
  cases value <;> simp [isNull]

/-- The bytes that the values of a row take together. -/
def footprints (values : List Value) : Nat :=
  values.foldl (fun total value => total + value.footprint) 0

end Value

end VersionedColumns
