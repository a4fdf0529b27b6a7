import VersionedColumns.Row.Description

/-!
# Errors

Every way in which an operation can fail is a cause with the data it is about.
Causes fall into kinds, and each has one message.
-/

namespace VersionedColumns

/-- The number of a table. -/
abbrev TableId := Nat

/-- The text of a table number. -/
def TableId.display (table : TableId) : String :=
  "#" ++ toString table

/-- The kinds of errors. -/
inductive ErrorKind where
  | rowNotFound
  | rowNotFoundWhenDeleting
  | columnCountMismatch
  | typeConversion
  | columnNotFound
  | indexNotFound
  | duplicateIndex
  | tableNotFound
  | duplicateTable
  | unsupported
  | internal
deriving DecidableEq

/-- The causes of errors. -/
inductive Error where
  /-- No row was ever stored under the key. -/
  | rowNotFound (key : Key)
  /-- The key to remove was never allocated or is removed already. -/
  | nothingToRemove (key allocated : Key)
  /-- A row has more or fewer values than the table has columns. -/
  | columnCountMismatch (expected actual : Nat)
  /-- A value has no counterpart in a column type. -/
  | conversion (value : Value) (target : ColumnType)
  /-- No column has the name. -/
  | columnNotFound (name : String)
  /-- No index has the name. -/
  | indexNotFound (name : String)
  /-- The column exists but no equality index is built on it. -/
  | columnNotIndexed (column : String)
  /-- An index has the name already. -/
  | duplicateIndex (name : String)
  /-- No table with the number is listed. -/
  | tableNotFound (table : TableId)
  /-- A table has the name already. -/
  | duplicateTable (name : String)
  /-- The primary index cannot be dropped. -/
  | dropOfPrimary (name : String)
  /-- The primary index has a fixed name and no order to seek the ends of. -/
  | notForPrimary
  /-- An equality index has no order to seek the ends of. -/
  | notForEquality
  /-- A row ends before the column of an equality index. -/
  | rowTooShort (key : Key) (column : Nat) (index : String)
  /-- An equality search needs a row for both of its bounds. -/
  | boundMissing (index : String) (first last : Option Row)
  /-- A scan only moves forward. -/
  | scanBackwards
  /-- A cursor over one row only moves forward. -/
  | singleBackwards
deriving DecidableEq

namespace Error

/-- The kind that a cause belongs to. -/
def kind : Error → ErrorKind
  | rowNotFound _ => .rowNotFound
  | nothingToRemove _ _ => .rowNotFoundWhenDeleting
  | columnCountMismatch _ _ => .columnCountMismatch
  | conversion _ _ => .typeConversion
  | columnNotFound _ => .columnNotFound
  | indexNotFound _ => .indexNotFound
  | columnNotIndexed _ => .indexNotFound
  | duplicateIndex _ => .duplicateIndex
  | tableNotFound _ => .tableNotFound
  | duplicateTable _ => .duplicateTable
  | dropOfPrimary _ => .unsupported
  | notForPrimary => .unsupported
  | notForEquality => .unsupported
  | rowTooShort _ _ _ => .internal
  | boundMissing _ _ _ => .internal
  | scanBackwards => .internal
  | singleBackwards => .internal

/-- What a cause has to say beyond its kind. -/
def detail : Error → String
  | rowNotFound key => "key " ++ toString key
  | nothingToRemove key allocated =>
    "key " ++ toString key ++ " (allocated keys: " ++ toString allocated ++ ")"
  | columnCountMismatch expected actual =>
    "expected " ++ toString expected ++ ", got " ++ toString actual
  | conversion value target => value.display ++ " to " ++ target.name
  | columnNotFound name => name
  | indexNotFound name => name
  | columnNotIndexed column => "hash index on " ++ column
  | duplicateIndex name => name
  | tableNotFound table => table.display
  | duplicateTable name => name
  | dropOfPrimary name => "drop " ++ name
  | notForPrimary => "SCAN"
  | notForEquality => "ColumnarHash"
  | rowTooShort key column index =>
    "row " ++ toString key ++ " has no column " ++ toString column ++
      " for index " ++ index
  | boundMissing index first last =>
    "hash index " ++ index ++ " needs both bounds: " ++
      Row.describeOption first ++ " " ++ Row.describeOption last
  | scanBackwards => "scan cursor cannot move backwards"
  | singleBackwards => "single row cursor cannot move backwards"

end Error

/-- The words that open the messages of a kind. -/
def ErrorKind.opening : ErrorKind → String
  | rowNotFound => "Row not found: "
  | rowNotFoundWhenDeleting => "Row not found when deleting: "
  | columnCountMismatch => "Column count mismatch: "
  | typeConversion => "Cannot convert "
  | columnNotFound => "Column not found: "
  | indexNotFound => "Index not found: "
  | duplicateIndex => "Index already exists: "
  | tableNotFound => "Table not found: "
  | duplicateTable => "Table already exists: "
  | unsupported => "Feature not supported: "
  | internal => "Internal error: "

/-- The message of an error: the words of its kind, then its detail. -/
def Error.message (error : Error) : String :=
  error.kind.opening ++ error.detail

/-- What a change yields: a result or an error, and in either case a state. -/
abbrev Outcome (State Result : Type) := Except Error Result × State

end VersionedColumns
