import VersionedColumns.Index.Basic

/-!
# Tables

A table has named and typed columns, one primary index and any number of
equality indexes.  Values are converted to the types of their columns before
they are stored, and every change reaches all indexes: an insert goes to the
primary index first, which hands out the key, and a removal goes there last.
-/

namespace VersionedColumns

/-- A column by its name and the type of its values. -/
structure Column where
  name : String
  type : ColumnType
deriving DecidableEq

/-- What a table is made from.  Tables stay in memory in any case. -/
structure Schema where
  name : String
  columns : List Column
  persistent : Bool
deriving DecidableEq

/-- A table with its rows and indexes. -/
structure Table where
  id : TableId
  name : String
  columns : List Column
  primary : PrimaryIndex
  secondary : List EqualityIndex
deriving DecidableEq

namespace Table

/-- A table without rows. -/
def create (id : TableId) (schema : Schema) (config : Config) : Table where
  id := id
  name := schema.name
  columns := schema.columns
  primary :=
    PrimaryIndex.empty id schema.name (schema.columns.map Column.name) config
  secondary := []

/-- Whether changes wait for a commit before other sessions see them. -/
def versioned (table : Table) : Bool :=
  table.primary.versioned

/-- The number of rows that a session sees. -/
def rowCount (table : Table) (session : Session) : Nat :=
  table.primary.visibleRowCount session

/-- The number of rows stored, whoever may see them. -/
def storedRowCount (table : Table) : Nat :=
  table.primary.rowCount

/-- The bytes that the stored values take. -/
def memoryUse (table : Table) : Nat :=
  table.primary.grid.bytes

/-- Nothing is kept on disk. -/
def diskUse (_ : Table) : Nat := 0

/-- The position of the first column with a name, letter case aside. -/
def columnNamed (table : Table) (name : String) : Except Error Nat :=
  let named (column : Column) : Bool := Text.sameLetters column.name name
  match table.columns.findIdx? named with
  | some position => .ok position
  | none => .error (.columnNotFound name)

/-! ## Reading -/

/-- The row at a key; the tombstone if it was removed. -/
def row (table : Table) (key : Key) : Except Error Row :=
  match table.primary.row? key with
  | some row => .ok row
  | none => .error (.rowNotFound key)

/-- A cursor over the rows that a session sees. -/
def scan (table : Table) (session : Session) : Cursor :=
  .scan (Scan.start table.primary session)

/-- The first equality index on a column. -/
def indexOn? (table : Table) (column : Nat) : Option EqualityIndex :=
  table.secondary.find? fun index => index.column == column

/-- The first row with a value in a column, found through an equality index. -/
def findEqual (table : Table) (session : Session) (column : String)
    (value : Value) : Except Error (Option Row) := do
  let position ← table.columnNamed column
  match table.indexOn? position with
  | none => .error (.columnNotIndexed column)
  | some index =>
    let bound := some (Row.probe table.columns.length position value)
    let cursor ← index.find table.primary session bound bound
    return cursor.next.2.current?

/-! ## Changing rows -/

/-- Convert values to the types of their columns, up to the first failure. -/
def convert : List Column → List Value → Except Error (List Value)
  | column :: columns, value :: values => do
    let converted ← value.convertTo column.type
    let others ← convert columns values
    return converted :: others
  | _, _ => .ok []

/-- Insert one value per column; the answer is the key of the new row. -/
def insert (table : Table) (session : Session) (values : List Value) :
    Outcome Table Key :=
  if values.length = table.columns.length then
    match convert table.columns values with
    | .error error => (.error error, table)
    | .ok converted =>
      match table.primary.insert session (Row.ofValues converted) with
      | (.error error, primary) =>
        (.error error, { table with primary := primary })
      | (.ok row, primary) =>
        let (outcome, secondary) :=
          EqualityIndex.changeEach (·.insert row) table.secondary
        (outcome.map fun _ => row.key,
          { table with primary := primary, secondary := secondary })
  else
    (.error (.columnCountMismatch table.columns.length values.length), table)

/-- The live row at a key. -/
def liveRow? (table : Table) (key : Key) : Option Row :=
  (table.primary.row? key).filter fun row => !row.isTombstone

/-- Remove the row at a key; the answer is the row as it was. -/
def remove (table : Table) (session : Session) (key : Key) :
    Outcome Table Row :=
  match table.liveRow? key with
  | none => (.error (.nothingToRemove key table.primary.nextKey), table)
  | some row =>
    match EqualityIndex.changeEach (·.remove row) table.secondary with
    | (.error error, secondary) =>
      (.error error, { table with secondary := secondary })
    | (.ok (), secondary) =>
      let (outcome, primary) := table.primary.remove session row
      (outcome.map fun _ => row,
        { table with primary := primary, secondary := secondary })

/-! ## The whole table -/

/-- Forget all rows; every index stays, without rows. -/
def truncate (table : Table) : Table :=
  { table with
    primary := table.primary.clear
    secondary := table.secondary.map EqualityIndex.clear }

/-- Close the table, which empties the equality indexes and keeps the rows. -/
def close (table : Table) : Table :=
  { table with secondary := table.secondary.map EqualityIndex.clear }

/-- Forget all rows and drop every equality index. -/
def discard (table : Table) : Table :=
  { table with
    primary := table.primary.clear
    secondary := [] }

@[simp]
theorem create_row (id : TableId) (schema : Schema) (config : Config)
    (key : Key) :
    (create id schema config).row key = .error (.rowNotFound key) := by
  simp [create, row]

@[simp]
theorem truncate_row (table : Table) (key : Key) :
    table.truncate.row key = .error (.rowNotFound key) := by
  simp [truncate, row]

@[simp]
theorem discard_row (table : Table) (key : Key) :
    table.discard.row key = .error (.rowNotFound key) := by
  simp [discard, row]

@[simp]
theorem close_row (table : Table) (key : Key) :
    table.close.row key = table.row key := rfl

@[simp]
theorem close_rowCount (table : Table) (session : Session) :
    table.close.rowCount session = table.rowCount session := rfl

/-- A row with the wrong number of values is refused and changes nothing. -/
theorem insert_of_length_ne {table : Table} {values : List Value}
    (session : Session) (differs : values.length ≠ table.columns.length) :
    table.insert session values =
      (.error (.columnCountMismatch table.columns.length values.length),
        table) := by
  rw [insert, if_neg differs]

end Table

end VersionedColumns
