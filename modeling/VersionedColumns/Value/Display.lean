import VersionedColumns.Binary64.Written
import VersionedColumns.Text.Quoted
import VersionedColumns.Value.Basic

/-!
# Values in text

A value has a display, which is its content alone, and a description, which
names its kind and quotes its text.
-/

namespace VersionedColumns.Value

open VersionedColumns.Text

/-- The content of a value as text. -/
def display : Value → String
  | null => "NULL"
  | boolean flag => if flag then "TRUE" else "FALSE"
  | int number => String.ofList (writeInteger number.toInt)
  | bigInt number => String.ofList (writeInteger number.toInt)
  | double number => number.display
  | varchar text => text

/-- The kind of a value with its content in parentheses. -/
def describe : Value → String
  | null => "Null"
  | boolean flag => "Boolean(" ++ (if flag then "true" else "false") ++ ")"
  | int number => "Int(" ++ String.ofList (writeInteger number.toInt) ++ ")"
  | bigInt number =>
    "BigInt(" ++ String.ofList (writeInteger number.toInt) ++ ")"
  | double number => "Double(" ++ number.describe ++ ")"
  | varchar text => "Varchar(" ++ quote text ++ ")"

end VersionedColumns.Value
