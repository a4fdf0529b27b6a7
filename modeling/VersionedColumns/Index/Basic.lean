import VersionedColumns.Index.Equality

/-!
# Indexes

What the primary index and the equality indexes have in common: what a planner
asks of them before it takes the cheapest, and how they are searched.
-/

namespace VersionedColumns

/-- An index of either kind. -/
inductive Index where
  | primary (index : PrimaryIndex)
  | equality (index : EqualityIndex)
deriving DecidableEq

/-- The kinds of indexes. -/
inductive IndexKind where
  | primary
  | equality
deriving DecidableEq

namespace Index

/-- The kind of an index. -/
def kind : Index → IndexKind
  | primary _ => .primary
  | equality _ => .equality

/-- The name of an index. -/
def name : Index → String
  | primary index => index.name
  | equality index => index.name

/-- The columns that an index can compare. -/
def columns : Index → List Nat
  | primary _ => []
  | equality index => [index.column]

/-- The number of rows in the index, whoever may see them. -/
def storedRowCount : Index → Nat
  | primary index => index.rowCount
  | equality index => index.rowCount

/-- The number of rows that an index tells a session it has. -/
def rowCount (index : Index) (session : Session) : Nat :=
  match index with
  | primary index => index.visibleRowCount session
  | equality index => index.rowCount

/-- The cost of a query, given by its comparisons on every column. -/
def cost (index : Index) (query : Option (List Comparisons)) : Binary64 :=
  match index with
  | primary index => index.cost
  | equality index => index.cost query

/-- Search between two bounds, which a primary index does not look at. -/
def find (index : Index) (rows : PrimaryIndex) (session : Session)
    (first last : Option Row) : Except Error Cursor :=
  match index with
  | primary index => .ok (.scan (Scan.start index session))
  | equality index => index.find rows session first last

/-- Whether the index may be given another name. -/
def checkRename : Index → Except Error Unit
  | primary _ => .error .notForPrimary
  | equality _ => .ok ()

/-- Whether the index can find its first or last row at once. -/
def canSeekEnds (_ : Index) : Bool := false

/-- No index has an order to seek the first or the last row in. -/
def seekEnd : Index → Except Error Cursor
  | primary _ => .error .notForPrimary
  | equality _ => .error .notForEquality

/-- Whether the index can be walked from its first row to its last. -/
def canScan : Index → Bool
  | primary _ => true
  | equality _ => false

/-- Whether the index has to be filled again when the table is opened. -/
def needsRebuild : Index → Bool
  | primary _ => false
  | equality _ => true

/-- Nothing is kept on disk. -/
def diskUse (_ : Index) : Nat := 0

/-- How a query plan names the use of the index. -/
def planText : Index → String
  | primary index => index.tableName ++ ".tableScan"
  | equality index => index.name

end Index

end VersionedColumns
