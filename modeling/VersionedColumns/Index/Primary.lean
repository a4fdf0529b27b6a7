import VersionedColumns.Config
import VersionedColumns.Grid
import VersionedColumns.PendingChanges

/-!
# The primary index of a table

Every table has one primary index.  It holds the cells and the uncommitted
changes and can be walked in the order of the keys, but it cannot look a value
up.

Inserts and deletes reach the cells at once.  What a session does not see yet
is told apart by the uncommitted changes: a stored row that is pending as an
insert carries its owner, and a row that is pending as a delete is kept there
with its last values.
-/

namespace VersionedColumns

/-- The cells of a table, its uncommitted changes and the number of its rows. -/
structure PrimaryIndex where
  table : TableId
  tableName : String
  grid : Grid
  pending : PendingChanges
  /-- Rows inserted less rows removed, whether committed or not. -/
  rowCount : Nat
  scanCost : Binary64
deriving DecidableEq

namespace PrimaryIndex

/-- The primary index of a table without rows. -/
def empty (table : TableId) (tableName : String) (columnNames : List String)
    (config : Config) : PrimaryIndex where
  table := table
  tableName := tableName
  grid := Grid.empty columnNames
  pending := PendingChanges.empty config.versioned
  rowCount := 0
  scanCost := config.scanCost

/-- The name of the index, which follows from the name of its table. -/
def name (index : PrimaryIndex) : String :=
  index.tableName ++ "_DATA"

/-- Whether changes wait for a commit. -/
def versioned (index : PrimaryIndex) : Bool :=
  index.pending.recorded

/-- The key that the next row will have. -/
def nextKey (index : PrimaryIndex) : Key :=
  index.grid.nextKey

/-! ## Reading -/

/-- Give a stored row the owner of its uncommitted insert, if it has one. -/
def withOwner (index : PrimaryIndex) (key : Key) (row : Row) : Row :=
  match index.pending.row? key with
  | some change =>
    if !change.deleted && !row.isTombstone then
      { row with owner := change.owner }
    else row
  | none => row

/-- The row at a key: none past the last key, the tombstone if removed. -/
def row? (index : PrimaryIndex) (key : Key) : Option Row :=
  (index.grid.row? key).map (index.withOwner key)

/-- Whether a row read from the index is a live one. -/
def holdsValues (row : Row) : Bool :=
  !row.isEmpty && !row.isTombstone

/-- The first live row among so many keys from a given one. -/
def seek (index : PrimaryIndex) (key : Key) : (keys : Nat) → Option Row
  | 0 => none
  | keys + 1 =>
    match index.row? key with
    | none => none
    | some row =>
      if holdsValues row then some row else index.seek (key + 1) keys

/-- The key behind a row, and the first key where there is no row. -/
def keyAfter : Option Row → Key
  | none => 0
  | some row => row.key + 1

/-- The next live row behind a given one, or the first. -/
def nextRow? (index : PrimaryIndex) (behind : Option Row) : Option Row :=
  index.seek (keyAfter behind) (index.nextKey - keyAfter behind)

/-- The number of rows that a session sees. -/
def visibleRowCount (index : PrimaryIndex) (session : Session) : Nat :=
  index.pending.rowCount session index.rowCount

/-- The cost of walking all rows. -/
def cost (index : PrimaryIndex) : Binary64 :=
  (Binary64.ofInteger index.rowCount).add index.scanCost

/-! ## Changing -/

/-- A row as it is kept once it has been inserted. -/
def inserted (index : PrimaryIndex) (session : Session) (key : Key)
    (row : Row) : Row :=
  { row with
    key := key
    deleted := false
    owner := if index.versioned then session else row.owner }

/-- Store a row under the next key; the answer is the row with that key. -/
def insert (index : PrimaryIndex) (session : Session) (row : Row) :
    Outcome PrimaryIndex Row :=
  match index.grid.append row.values with
  | (.error error, grid) => (.error error, { index with grid := grid })
  | (.ok key, grid) =>
    let stored := index.inserted session key row
    (.ok stored,
      { index with
        grid := grid
        pending := index.pending.recordInsert session stored
        rowCount := index.rowCount + 1 })

/-- Remove the row with the key of the given one. -/
def remove (index : PrimaryIndex) (session : Session) (row : Row) :
    Outcome PrimaryIndex Unit :=
  match index.grid.remove row.key with
  | (.error error, grid) => (.error error, { index with grid := grid })
  | (.ok (), grid) =>
    (.ok (),
      { index with
        grid := grid
        pending :=
          index.pending.recordDelete session { row with owner := session }
        rowCount := index.rowCount - 1 })

/-- Let an uncommitted change to a row count for every session. -/
def commit (index : PrimaryIndex) (kind : ChangeKind) (row : Row) :
    PrimaryIndex :=
  { index with pending := index.pending.commit kind row }

/-- Forget all rows and all changes. -/
def clear (index : PrimaryIndex) : PrimaryIndex :=
  { index with
    grid := index.grid.clear
    pending := index.pending.clear
    rowCount := 0 }

@[simp]
theorem empty_row? (table : TableId) (tableName : String)
    (columnNames : List String) (config : Config) (key : Key) :
    (empty table tableName columnNames config).row? key = none := by
  simp [row?, empty]

@[simp]
theorem clear_row? (index : PrimaryIndex) (key : Key) :
    index.clear.row? key = none := by
  simp [row?, clear]

@[simp]
theorem commit_grid (index : PrimaryIndex) (kind : ChangeKind) (row : Row) :
    (index.commit kind row).grid = index.grid := rfl

theorem row?_eq_none_iff {index : PrimaryIndex} {key : Key} :
    index.row? key = none ↔ index.nextKey ≤ key := by
  simp [row?, Grid.row?_eq_none_iff, nextKey]

end PrimaryIndex

end VersionedColumns
