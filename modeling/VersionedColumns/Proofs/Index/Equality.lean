import VersionedColumns.Proofs.Index.Groups

/-!
# What an equality index holds

An equality index holds a list of keys for every value when its groups are
tidy, have these lists as their keys and are counted.  To insert a row puts its
key at the end of one list, and to remove it takes the key out of that list if
it is there.  Neither is refused as long as the row reaches the indexed column,
so that a change by such a row reaches all indexes of a table.
-/

namespace VersionedColumns

namespace EqualityIndex

theorem insert_eq_of_value? {index : EqualityIndex} {row : Row} {value : Value}
    (held : row.value? index.column = some value) :
    index.insert row =
      (.ok (),
        { index with
          groups := Group.insert value row.key index.groups
          rowCount := index.rowCount + 1 }) := by
  rw [insert, valueOf, held]

theorem remove_eq_of_value? {index : EqualityIndex} {row : Row} {value : Value}
    (held : row.value? index.column = some value) :
    index.remove row =
      if Group.contains value row.key index.groups then
        (.ok (),
          { index with
            groups := Group.erase value row.key index.groups
            rowCount := index.rowCount - 1 })
      else (.ok (), index) := by
  rw [remove, valueOf, held]

/-- A row that reaches the indexed column is accepted. -/
theorem insert_ok {index : EqualityIndex} {row : Row}
    (reaches : index.column < row.values.length) :
    (index.insert row).1 = .ok () := by
  rw [insert_eq_of_value? (List.getElem?_eq_getElem reaches)]

theorem remove_ok {index : EqualityIndex} {row : Row}
    (reaches : index.column < row.values.length) :
    (index.remove row).1 = .ok () := by
  rw [remove_eq_of_value? (List.getElem?_eq_getElem reaches)]
  split <;> rfl

/-- To insert a row changes nothing that an index without rows has. -/
theorem clear_insert (index : EqualityIndex) (row : Row) :
    (index.insert row).2.clear = index.clear := by
  rw [insert]
  split <;> rfl

/-- To remove a row changes nothing that an index without rows has. -/
theorem clear_remove (index : EqualityIndex) (row : Row) :
    (index.remove row).2.clear = index.clear := by
  rw [remove]
  split
  · rfl
  · split <;> rfl

@[simp]
theorem insert_column (index : EqualityIndex) (row : Row) :
    (index.insert row).2.column = index.column := by
  have kept := congrArg column (index.clear_insert row)
  exact kept

@[simp]
theorem remove_column (index : EqualityIndex) (row : Row) :
    (index.remove row).2.column = index.column := by
  have kept := congrArg column (index.clear_remove row)
  exact kept

/-- A change that no index refuses reaches all of them. -/
theorem changeEach_eq_map {change : EqualityIndex → Outcome EqualityIndex Unit}
    {indexes : List EqualityIndex}
    (accepted : ∀ index ∈ indexes, (change index).1 = .ok ()) :
    changeEach change indexes =
      (.ok (), indexes.map fun index => (change index).2) := by
  induction indexes with
  | nil => rfl
  | cons index rest induction =>
      have first : change index = (.ok (), (change index).2) :=
        Prod.ext (accepted index List.mem_cons_self) rfl
      rw [changeEach, first,
        induction fun other member => accepted other (List.mem_cons_of_mem _ member)]
      rfl

/-- Changes that reach nothing but rows leave the rest of all indexes alone. -/
theorem map_clear_changeEach
    {change : EqualityIndex → Outcome EqualityIndex Unit}
    (rowsOnly : ∀ index, (change index).2.clear = index.clear)
    (indexes : List EqualityIndex) :
    (changeEach change indexes).2.map clear = indexes.map clear := by
  induction indexes with
  | nil => rfl
  | cons index rest induction =>
      have kept := rowsOnly index
      rw [changeEach]
      split
      · rename_i refused
        rw [refused] at kept
        rw [List.map_cons, List.map_cons, kept]
      · rename_i accepted
        rw [accepted] at kept
        rw [List.map_cons, List.map_cons, kept, induction]

/-! ## The keys of every value -/

/-- An index holds a list of keys for every value. -/
structure Holds (index : EqualityIndex) (keys : Value → List Key) : Prop where
  tidy : Group.Tidy index.groups
  keysOf_eq : ∀ value, Group.keysOf value index.groups = keys value
  rowCount_eq : index.rowCount = Group.size index.groups

variable {index : EqualityIndex} {keys : Value → List Key}

theorem Holds.congr (holds : index.Holds keys) {others : Value → List Key}
    (same : ∀ value, keys value = others value) :
    index.Holds others :=
  ⟨holds.tidy, fun value => (holds.keysOf_eq value).trans (same value),
    holds.rowCount_eq⟩

theorem Holds.empty (table : TableId) (name : String) (column : Nat)
    (columnType : ColumnType) :
    (empty table name column columnType).Holds fun _ => [] :=
  ⟨Group.Tidy.nil, fun _ => rfl, rfl⟩

theorem Holds.clear (index : EqualityIndex) :
    index.clear.Holds fun _ => [] :=
  ⟨Group.Tidy.nil, fun _ => rfl, rfl⟩

theorem Holds.insert (holds : index.Holds keys) {row : Row} {value : Value}
    (held : row.value? index.column = some value) :
    (index.insert row).2.Holds fun other =>
      if other = value then keys other ++ [row.key] else keys other := by
  rw [insert_eq_of_value? held]
  refine ⟨holds.tidy.insert value row.key, ?_, ?_⟩
  · intro other
    rw [Group.keysOf_insert, holds.keysOf_eq, holds.keysOf_eq]
    split
    · rename_i same
      rw [same]
    · rfl
  · change index.rowCount + 1 = _
    rw [Group.size_insert, holds.rowCount_eq]

/-- A removal takes the key out of the list of its value, if it is there. -/
theorem Holds.remove (holds : index.Holds keys) {row : Row} {value : Value}
    (held : row.value? index.column = some value) :
    (index.remove row).2.Holds fun other =>
      if other = value then (keys other).erase row.key else keys other := by
  rw [remove_eq_of_value? held]
  by_cases contained : Group.contains value row.key index.groups = true
  · rw [if_pos contained]
    refine ⟨holds.tidy.erase value row.key, ?_, ?_⟩
    · intro other
      rw [holds.tidy.keysOf_erase, holds.keysOf_eq, holds.keysOf_eq]
      split
      · rename_i same
        rw [same]
      · rfl
    · have shorter := Group.size_erase (Group.contains_iff.1 contained)
      change index.rowCount - 1 = _
      rw [holds.rowCount_eq, ← shorter, Nat.add_sub_cancel]
  · rw [if_neg contained]
    apply holds.congr
    intro other
    split
    · rename_i same
      rw [Group.contains_iff, holds.keysOf_eq] at contained
      rw [same, List.erase_of_not_mem contained]
    · rfl

theorem Holds.keys?_eq (holds : index.Holds keys) (value : Value) :
    index.keys? value = if keys value = [] then none else some (keys value) := by
  rw [EqualityIndex.keys?, holds.tidy.keys?_eq, holds.keysOf_eq]

/-- The list of a group is that of its value. -/
theorem Holds.of_mem (holds : index.Holds keys) {group : Group}
    (member : group ∈ index.groups) :
    keys group.1 = group.2 := by
  rw [← holds.keysOf_eq, Group.keysOf, holds.tidy.keys?_of_mem member,
    Option.getD_some]

/-- An index has counted every key that it holds. -/
theorem Holds.rowCount_pos (holds : index.Holds keys) {value : Value}
    {key : Key} (contained : Group.contains value key index.groups = true) :
    1 ≤ index.rowCount := by
  rw [holds.rowCount_eq, ← Group.size_erase (Group.contains_iff.1 contained)]
  exact Nat.le_add_left _ _

end EqualityIndex

end VersionedColumns
