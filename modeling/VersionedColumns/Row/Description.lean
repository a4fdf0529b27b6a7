import VersionedColumns.Row.Basic
import VersionedColumns.Value.Display

/-!
# Rows in messages

A row is described by its four parts under their names.
-/

namespace VersionedColumns.Row

/-- The parts of a row by name, the values by their descriptions. -/
def describe (row : Row) : String :=
  "Row \x7b key: " ++ toString row.key ++
    ", values: [" ++ ", ".intercalate (row.values.map Value.describe) ++
    "], deleted: " ++ (if row.deleted then "true" else "false") ++
    ", session_id: " ++ toString row.owner ++ " \x7d"

/-- The description of a row that may be missing. -/
def describeOption : Option Row → String
  | none => "None"
  | some row => "Some(" ++ row.describe ++ ")"

end VersionedColumns.Row
