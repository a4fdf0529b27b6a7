import VersionedColumns.Index.Comparison
import VersionedColumns.Index.Cursor
import VersionedColumns.Value.Conversion

/-!
# Equality indexes

An equality index groups the keys of a table by the value in one column.  The
group of a value holds its keys in the order of their insertion, and a value
without keys has no group.  A search finds the first key of a group; the later
ones are not reached through the index.
-/

namespace VersionedColumns

/-- The keys that share a value, in the order of their insertion. -/
abbrev Group := Value × List Key

namespace Group

/-- The keys under a value. -/
def keys? (value : Value) (groups : List Group) : Option (List Key) :=
  groups.lookup value

/-- Put a key at the end of the group of a value. -/
def insert (value : Value) (key : Key) : List Group → List Group
  | [] => [(value, [key])]
  | (other, keys) :: rest =>
    if other = value then (other, keys ++ [key]) :: rest
    else (other, keys) :: insert value key rest

/-- Take a key out of the group of a value; an empty group is dropped. -/
def erase (value : Value) (key : Key) : List Group → List Group
  | [] => []
  | (other, keys) :: rest =>
    if other = value then
      if (keys.erase key).isEmpty then rest
      else (other, keys.erase key) :: rest
    else (other, keys) :: erase value key rest

/-- Whether the group of a value holds a key. -/
def contains (value : Value) (key : Key) (groups : List Group) : Bool :=
  (keys? value groups).any fun keys => keys.contains key

end Group

/-- An index for equality on one column. -/
structure EqualityIndex where
  table : TableId
  name : String
  column : Nat
  columnType : ColumnType
  groups : List Group
  /-- The number of keys in all groups. -/
  rowCount : Nat
deriving DecidableEq

namespace EqualityIndex

/-- An index without rows. -/
def empty (table : TableId) (name : String) (column : Nat)
    (columnType : ColumnType) : EqualityIndex where
  table := table
  name := name
  column := column
  columnType := columnType
  groups := []
  rowCount := 0

/-- The keys under a value, in the order of their insertion. -/
def keys? (index : EqualityIndex) (value : Value) : Option (List Key) :=
  Group.keys? value index.groups

/-- The value of a row in the indexed column. -/
def valueOf (index : EqualityIndex) (row : Row) : Except Error Value :=
  match row.value? index.column with
  | some value => .ok value
  | none => .error (.rowTooShort row.key index.column index.name)

/-- Add a row that has its key already. -/
def insert (index : EqualityIndex) (row : Row) : Outcome EqualityIndex Unit :=
  match index.valueOf row with
  | .error error => (.error error, index)
  | .ok value =>
    (.ok (),
      { index with
        groups := Group.insert value row.key index.groups
        rowCount := index.rowCount + 1 })

/-- Remove a row; one that is not in the index leaves it as it is. -/
def remove (index : EqualityIndex) (row : Row) : Outcome EqualityIndex Unit :=
  match index.valueOf row with
  | .error error => (.error error, index)
  | .ok value =>
    if Group.contains value row.key index.groups then
      (.ok (),
        { index with
          groups := Group.erase value row.key index.groups
          rowCount := index.rowCount - 1 })
    else (.ok (), index)

/-- Forget all rows. -/
def clear (index : EqualityIndex) : EqualityIndex :=
  { index with
    groups := []
    rowCount := 0 }

/-- The first key under a value. -/
def firstKey? (index : EqualityIndex) (value : Value) : Option Key :=
  (index.keys? value).bind List.head?

/-- The row of the first key under a value, if the session sees it. -/
def visibleRow? (index : EqualityIndex) (rows : PrimaryIndex)
    (session : Session) (value : Value) : Option Row :=
  ((index.firstKey? value).bind rows.row?).filter fun row =>
    !row.isTombstone && row.visibleTo session

/--
Search for the value that the first bound has in the indexed column, converted
to the type of the column.  Both bounds must be given.
-/
def find (index : EqualityIndex) (rows : PrimaryIndex) (session : Session)
    (first last : Option Row) : Except Error Cursor :=
  match first, last with
  | some row, some _ => do
    let value ← index.valueOf row
    let searched ← value.convertTo index.columnType
    return Cursor.ofOption (index.visibleRow? rows session searched)
  | _, _ => .error (.boundMissing index.name first last)

/-- The cost of a query: low only if it compares the column for equality. -/
def cost (index : EqualityIndex) (query : Option (List Comparisons)) :
    Binary64 :=
  let comparisons := query.bind fun columns => columns[index.column]?
  if comparisons.any Comparisons.hasEquality then lookupCost
  else unusableCost

/-! ## Several indexes at once -/

/-- Change indexes one after the other, up to the first that refuses. -/
def changeEach (change : EqualityIndex → Outcome EqualityIndex Unit) :
    List EqualityIndex → Outcome (List EqualityIndex) Unit
  | [] => (.ok (), [])
  | index :: rest =>
    match change index with
    | (.error error, changed) => (.error error, changed :: rest)
    | (.ok (), changed) =>
      let (outcome, others) := changeEach change rest
      (outcome, changed :: others)

end EqualityIndex

/-! ## Groups by value -/

/-- Inserting a key changes the group of its value alone. -/
theorem Group.keys?_insert (value other : Value) (key : Key)
    (groups : List Group) :
    Group.keys? other (Group.insert value key groups) =
      if other = value then some ((Group.keys? value groups).getD [] ++ [key])
      else Group.keys? other groups := by
  induction groups with
  | nil =>
    by_cases same : other = value
    · simp [Group.insert, Group.keys?, same]
    · have differs : (other == value) = false := by simp [same]
      simp [Group.insert, Group.keys?, List.lookup_cons, same, differs]
  | cons first rest induction =>
    obtain ⟨held, keys⟩ := first
    by_cases here : held = value
    · subst here
      by_cases same : other = held
      · simp [Group.insert, Group.keys?, same]
      · have differs : (other == held) = false := by simp [same]
        simp [Group.insert, Group.keys?, List.lookup_cons, same, differs]
    · have elsewhere : (value == held) = false := by simp [Ne.symm here]
      by_cases same : other = held
      · subst same
        simp [Group.insert, Group.keys?, here]
      · have differs : (other == held) = false := by simp [same]
        simpa [Group.insert, Group.keys?, List.lookup_cons, here, differs, elsewhere]
          using induction

end VersionedColumns
