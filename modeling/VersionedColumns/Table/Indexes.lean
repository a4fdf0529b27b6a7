import VersionedColumns.Table.Basic

/-!
# The indexes of a table

The primary index comes first and keeps its name; equality indexes follow in
the order in which they were added.  Names are unique within the table.  A new
equality index is filled with the rows that are stored already.
-/

namespace VersionedColumns.Table

/-- All indexes, the primary one first. -/
def indexes (table : Table) : List Index :=
  .primary table.primary :: table.secondary.map .equality

/-- The equality index with a name. -/
def equalityIndex? (table : Table) (name : String) : Option EqualityIndex :=
  table.secondary.find? fun index => index.name == name

/-- The index with a name. -/
def index (table : Table) (name : String) : Except Error Index :=
  match table.indexes.find? fun index => index.name == name with
  | some index => .ok index
  | none => .error (.indexNotFound name)

/-- Whether an index has the name. -/
def hasIndex (table : Table) (name : String) : Bool :=
  name == table.primary.name || (table.equalityIndex? name).isSome

/-- Search the index with a name between two bounds. -/
def find (table : Table) (session : Session) (name : String)
    (first last : Option Row) : Except Error Cursor := do
  let index ← table.index name
  index.find table.primary session first last

/-- Fill an index with the rows behind a given one, among so many keys. -/
def fill (rows : PrimaryIndex) (behind : Option Row) :
    (keys : Nat) → EqualityIndex → Outcome EqualityIndex Unit
  | 0, index => (.ok (), index)
  | keys + 1, index =>
    match rows.nextRow? behind with
    | none => (.ok (), index)
    | some row =>
      match index.insert row with
      | (.error error, index) => (.error error, index)
      | (.ok (), index) => fill rows (some row) keys index

/-- Add an equality index on the column with a name. -/
def addIndex (table : Table) (name column : String) : Outcome Table Unit :=
  if table.hasIndex name then (.error (.duplicateIndex name), table)
  else
    match table.columnNamed column with
    | .error error => (.error error, table)
    | .ok position =>
      match table.columns[position]? with
      | none => (.error (.columnNotFound column), table)
      | some definition =>
        let index :=
          EqualityIndex.empty table.id name position definition.type
        match fill table.primary none table.primary.nextKey index with
        | (.error error, _) => (.error error, table)
        | (.ok (), filled) =>
          (.ok (), { table with secondary := table.secondary ++ [filled] })

/-- Drop the equality index with a name. -/
def dropIndex (table : Table) (name : String) : Outcome Table Unit :=
  if name = table.primary.name then (.error (.dropOfPrimary name), table)
  else
    match table.equalityIndex? name with
    | none => (.error (.indexNotFound name), table)
    | some _ =>
      (.ok (),
        { table with
          secondary := table.secondary.eraseP fun index => index.name == name })

/-- Give the first index with a name another one. -/
def renameFirst (name newName : String) :
    List EqualityIndex → List EqualityIndex
  | [] => []
  | index :: rest =>
    if index.name = name then { index with name := newName } :: rest
    else index :: renameFirst name newName rest

/-- Give the equality index with a name another one. -/
def renameIndex (table : Table) (name newName : String) :
    Outcome Table Unit :=
  if name = table.primary.name then
    ((Index.primary table.primary).checkRename, table)
  else if table.hasIndex newName then
    (.error (.duplicateIndex newName), table)
  else
    match table.equalityIndex? name with
    | none => (.error (.indexNotFound name), table)
    | some _ =>
      (.ok (),
        { table with secondary := renameFirst name newName table.secondary })

@[simp]
theorem indexes_length (table : Table) :
    table.indexes.length = table.secondary.length + 1 := by
  simp [indexes]

/-- The primary index is found under its name. -/
@[simp]
theorem index_primary_name (table : Table) :
    table.index table.primary.name = .ok (.primary table.primary) := by
  simp [index, indexes, Index.name]

/-- The primary index cannot be dropped. -/
@[simp]
theorem dropIndex_primary_name (table : Table) :
    table.dropIndex table.primary.name =
      (.error (.dropOfPrimary table.primary.name), table) := by
  rw [dropIndex, if_pos rfl]

end VersionedColumns.Table
