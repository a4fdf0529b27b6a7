import VersionedColumns.Error

/-!
# Columns of cells

The stored rows, transposed: one sequence of cells per column, all of them
indexed by the same keys.  Keys are handed out in increasing order and never
again until everything is cleared.  A removed key keeps its place, but its
cells become null and it reads as the tombstone.

Every operation keeps all columns at the length `nextKey` and `bytes` at the
footprint of the cells of the keys that are not removed.
-/

namespace VersionedColumns

/-- The cells of all columns, with the keys that were removed. -/
structure Grid where
  names : List String
  columns : List (Array Value)
  removed : List Key
  nextKey : Key
  bytes : Nat
deriving DecidableEq

namespace Grid

/-- No rows under the given column names. -/
def empty (names : List String) : Grid where
  names := names
  columns := names.map fun _ => #[]
  removed := []
  nextKey := 0
  bytes := 0

/-- Whether the key was removed. -/
def isRemoved (grid : Grid) (key : Key) : Bool :=
  grid.removed.contains key

/-- Whether the key was handed out and not removed. -/
def isLive (grid : Grid) (key : Key) : Bool :=
  key < grid.nextKey && !grid.isRemoved key

/-- The number of keys that are not removed. -/
def liveCount (grid : Grid) : Nat :=
  grid.nextKey - grid.removed.length

/-- The cells of all columns at one key. -/
def cells (grid : Grid) (key : Key) : List Value :=
  grid.columns.map fun column => column.getD key .null

/-- The row at a key: none past the last key, the tombstone if removed. -/
def row? (grid : Grid) (key : Key) : Option Row :=
  if grid.nextKey ≤ key then none
  else if grid.isRemoved key then some Row.tombstone
  else some (Row.stored key (grid.cells key))

/-- The sequence of cells under a column name, removed keys included. -/
def column? (grid : Grid) (name : String) : Option (Array Value) :=
  ((grid.names.zip grid.columns).find? fun column => column.1 == name).map
    Prod.snd

/-- Store one value per column under the next key. -/
def append (grid : Grid) (values : List Value) : Outcome Grid Key :=
  if values.length = grid.columns.length then
    (.ok grid.nextKey,
      { grid with
        columns := List.zipWith Array.push grid.columns values
        nextKey := grid.nextKey + 1
        bytes := grid.bytes + Value.footprints values })
  else
    (.error (.columnCountMismatch grid.columns.length values.length), grid)

/-- Remove a key and clear its cells. -/
def remove (grid : Grid) (key : Key) : Outcome Grid Unit :=
  if grid.isLive key then
    (.ok (),
      { grid with
        columns := grid.columns.map fun column =>
          column.setIfInBounds key .null
        removed := key :: grid.removed
        bytes := grid.bytes - Value.footprints (grid.cells key) })
  else
    (.error (.nothingToRemove key grid.nextKey), grid)

/-- Forget all rows and start again with the first key. -/
def clear (grid : Grid) : Grid :=
  { grid with
    columns := grid.columns.map fun _ => #[]
    removed := []
    nextKey := 0
    bytes := 0 }

/-- The sequences of cells as text, a line for every column. -/
def listing (grid : Grid) : String :=
  let line (column : String × Array Value) : String :=
    "  " ++ column.1 ++ ": [" ++
      ", ".intercalate (column.2.toList.map Value.display) ++ "]\n"
  "columnStore: [\n" ++
    String.join ((grid.names.zip grid.columns).map line) ++ "]"

@[simp]
theorem empty_row? (names : List String) (key : Key) :
    (empty names).row? key = none := by
  simp [row?, empty]

@[simp]
theorem clear_row? (grid : Grid) (key : Key) : grid.clear.row? key = none := by
  simp [row?, clear]

@[simp]
theorem cells_length (grid : Grid) (key : Key) :
    (grid.cells key).length = grid.columns.length := by
  simp [cells]

theorem isLive_iff {grid : Grid} {key : Key} :
    grid.isLive key = true ↔ key < grid.nextKey ∧ key ∉ grid.removed := by
  simp [isLive, isRemoved]

theorem row?_eq_none_iff {grid : Grid} {key : Key} :
    grid.row? key = none ↔ grid.nextKey ≤ key := by
  unfold row?
  split
  · simp [*]
  · split <;> simp [*]

/-- A live key reads as the row of its cells. -/
theorem row?_of_isLive {grid : Grid} {key : Key}
    (live : grid.isLive key = true) :
    grid.row? key = some (Row.stored key (grid.cells key)) := by
  obtain ⟨inside, present⟩ := isLive_iff.1 live
  have notRemoved : grid.isRemoved key = false := by
    simp [isRemoved, present]
  rw [row?, if_neg (Nat.not_le.2 inside), notRemoved, if_neg Bool.false_ne_true]

/-- A refused row leaves the grid as it was. -/
theorem append_of_length_ne {grid : Grid} {values : List Value}
    (differs : values.length ≠ grid.columns.length) :
    grid.append values =
      (.error (.columnCountMismatch grid.columns.length values.length),
        grid) := by
  rw [append, if_neg differs]

/-- A removal that fails leaves the grid as it was. -/
theorem remove_of_not_isLive {grid : Grid} {key : Key}
    (dead : grid.isLive key = false) :
    grid.remove key = (.error (.nothingToRemove key grid.nextKey), grid) := by
  rw [remove, dead, if_neg Bool.false_ne_true]

end Grid

end VersionedColumns
