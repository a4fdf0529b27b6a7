import VersionedColumns.KeyMap
import VersionedColumns.Table.Action

/-!
# The catalog

All tables of one database under one configuration.  A table gets a number from
one counter and a session from another; both counters go on from one, and come
round to zero when their bits are used up.  Two maps lead to a table: its number
to a handle, and its name, in capitals, to its number.  A table that is dropped
loses its rows and leaves both maps; whoever still holds the handle can go on
using it.
-/

namespace VersionedColumns

/--
What reaches a table, dropped or not: its place, from one, among all tables
that were ever created.
-/
abbrev Handle := Nat

/-- The number of a table, and what reaches it. -/
structure TableHandle where
  id : TableId
  handle : Handle
deriving DecidableEq

/-- The tables of one database and the sessions it has opened. -/
structure Catalog where
  config : Config
  /-- Every table ever created; the table with handle `n + 1` is at `n`. -/
  tables : List Table
  /-- The tables that are not dropped, by number. -/
  handles : KeyMap TableId Handle
  /-- The numbers of these tables, by name in capitals. -/
  names : KeyMap String TableId
  /-- The number that the next table will have. -/
  nextTable : UInt64
  /-- The number that the next session will have. -/
  nextSession : UInt32
deriving DecidableEq

namespace Catalog

/-- A catalog without tables. -/
def empty (config : Config) : Catalog where
  config := config
  tables := []
  handles := .empty
  names := .empty
  nextTable := 1
  nextSession := 1

/-- The number of tables that are not dropped. -/
def tableCount (catalog : Catalog) : Nat :=
  catalog.handles.size

/-! ## Finding tables -/

/-- The table that a handle reaches. -/
def held? (catalog : Catalog) (handle : Handle) : Option Table :=
  if handle = 0 then none else catalog.tables[handle - 1]?

/-- The handle of the table with a number. -/
def handle (catalog : Catalog) (id : TableId) : Except Error Handle :=
  match catalog.handles.get? id with
  | some handle => .ok handle
  | none => .error (.tableNotFound id)

/-- The table with a number. -/
def table (catalog : Catalog) (id : TableId) : Except Error Table :=
  match (catalog.handles.get? id).bind catalog.held? with
  | some table => .ok table
  | none => .error (.tableNotFound id)

/-- The number and the handle of the table with a name, letter case aside. -/
def handleNamed? (catalog : Catalog) (name : String) : Option TableHandle := do
  let id ← catalog.names.get? (Text.capitals name)
  let handle ← catalog.handles.get? id
  return ⟨id, handle⟩

/-- The number of the table with a name, and the table. -/
def tableNamed? (catalog : Catalog) (name : String) :
    Option (TableId × Table) := do
  let found ← catalog.handleNamed? name
  let table ← catalog.held? found.handle
  return (found.id, table)

/-! ## Changing the catalog -/

/-- Replace the table that a handle reaches. -/
def update (catalog : Catalog) (handle : Handle) (table : Table) : Catalog :=
  { catalog with
    tables :=
      if handle = 0 then catalog.tables
      else catalog.tables.set (handle - 1) table }

/-- Create a table; the answer is its number and its handle. -/
def createTable (catalog : Catalog) (schema : Schema) :
    Outcome Catalog TableHandle :=
  let name := Text.capitals schema.name
  if catalog.names.contains name then
    (.error (.duplicateTable schema.name), catalog)
  else
    let id := catalog.nextTable.toNat
    let handle := catalog.tables.length + 1
    (.ok ⟨id, handle⟩,
      { catalog with
        tables := catalog.tables ++ [Table.create id schema catalog.config]
        handles := catalog.handles.insert id handle
        names := catalog.names.insert name id
        nextTable := catalog.nextTable + 1 })

/-- Create a table; the answer is its number alone. -/
def create (catalog : Catalog) (schema : Schema) : Outcome Catalog TableId :=
  let (outcome, catalog) := catalog.createTable schema
  (outcome.map TableHandle.id, catalog)

/-- Take a number out of both maps, out of the names by what they lead to. -/
def unlist (catalog : Catalog) (id : TableId) : Catalog :=
  { catalog with
    handles := catalog.handles.erase id
    names := catalog.names.retain fun _ other => other != id }

/-- Drop the table with a number: it leaves both maps and loses its rows. -/
def drop (catalog : Catalog) (id : TableId) : Outcome Catalog Unit :=
  match catalog.handle id with
  | .error error => (.error error, catalog)
  | .ok handle =>
    let unlisted := catalog.unlist id
    match unlisted.held? handle with
    | none => (.ok (), unlisted)
    | some table => (.ok (), unlisted.update handle table.discard)

/-- Open a session; the answer is its number. -/
def openSession (catalog : Catalog) : Session × Catalog :=
  (catalog.nextSession.toNat,
    { catalog with nextSession := catalog.nextSession + 1 })

/-- A name that is taken cannot be given to another table. -/
theorem createTable_of_named {catalog : Catalog} {schema : Schema}
    {id : TableId}
    (taken : catalog.names.get? (Text.capitals schema.name) = some id) :
    catalog.createTable schema =
      (.error (.duplicateTable schema.name), catalog) := by
  rw [createTable, KeyMap.contains, taken]
  rfl

end Catalog

end VersionedColumns
