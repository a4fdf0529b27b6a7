import VersionedColumns.Value.Basic

/-!
# Rows

A row carries the values of its columns, the key under which it is stored, a
mark for rows that were deleted, and its owner: the session whose uncommitted
insert or delete it is.
-/

namespace VersionedColumns

/-- The position of a row in every column. -/
abbrev Key := Nat

/-- The number of a session. -/
abbrev Session := Nat

/-- The owner of committed rows, which is no session. -/
def noSession : Session := 0

/-- A row of values with its key, its mark of deletion and its owner. -/
structure Row where
  key : Key
  values : List Value
  deleted : Bool
  owner : Session
deriving DecidableEq

namespace Row

/-- The key of the tombstone, which no stored row has. -/
def tombstoneKey : Key := UInt64.size - 1

/-- A committed row with a given key. -/
def stored (key : Key) (values : List Value) : Row where
  key := key
  values := values
  deleted := false
  owner := noSession

/-- A row that has not been stored yet. -/
def ofValues (values : List Value) : Row :=
  stored 0 values

/-- What stands in place of a removed row; it has no values. -/
def tombstone : Row :=
  stored tombstoneKey []

/-- A row that is null everywhere but in the column that is searched for. -/
def probe (columnCount column : Nat) (value : Value) : Row :=
  ofValues ((List.replicate columnCount Value.null).set column value)

/-- Whether the row stands for a removed one. -/
def isTombstone (row : Row) : Bool :=
  row.key == tombstoneKey

/-- Whether the row has no values. -/
def isEmpty (row : Row) : Bool :=
  row.values.isEmpty

/-- Whether the row is committed or a session's own. -/
def visibleTo (row : Row) (session : Session) : Bool :=
  row.owner == noSession || row.owner == session

/-- The value in a column, if the row reaches that far. -/
def value? (row : Row) (column : Nat) : Option Value :=
  row.values[column]?

/-- The row without an owner. -/
def committed (row : Row) : Row :=
  { row with owner := noSession }

@[simp]
theorem tombstone_isTombstone : tombstone.isTombstone = true := rfl

@[simp]
theorem tombstone_isEmpty : tombstone.isEmpty = true := rfl

@[simp]
theorem stored_isTombstone (key : Key) (values : List Value) :
    (stored key values).isTombstone = (key == tombstoneKey) := rfl

@[simp]
theorem stored_visibleTo (key : Key) (values : List Value) (session : Session) :
    (stored key values).visibleTo session = true := rfl

@[simp]
theorem committed_visibleTo (row : Row) (session : Session) :
    row.committed.visibleTo session = true := by
  simp [committed, visibleTo]

theorem visibleTo_iff {row : Row} {session : Session} :
    row.visibleTo session = true ↔
      row.owner = noSession ∨ row.owner = session := by
  simp [visibleTo]

/-- A probe holds the searched value where the row has the column. -/
theorem probe_value? {columnCount column : Nat} (value : Value)
    (inside : column < columnCount) :
    (probe columnCount column value).value? column = some value := by
  simp [probe, value?, ofValues, stored, inside]

end Row

end VersionedColumns
