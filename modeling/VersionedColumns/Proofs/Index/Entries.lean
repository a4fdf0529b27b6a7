import Mathlib.Data.Finset.Card
import VersionedColumns.Proofs.Index.Equality

/-!
# An equality index as a list of entries

What an equality index means, without groups and counters: a list of entries,
each a value and a key, in the order in which the rows were inserted.  To remove
a row drops the first entry that is equal to its own, if there is one, and a row
that does not reach the indexed column is refused.

The index may be called in any way: with rows that are inserted twice, with
rows that were never inserted, and with keys that have another value by now.
The main statement says that it answers every call as the list does, and that
its groups and counts are those of the list.
-/

namespace VersionedColumns

namespace EqualityIndex

/-- A call that changes an equality index. -/
inductive Action where
  | insert (row : Row)
  | remove (row : Row)
  | truncate
  | discard
  | close
deriving DecidableEq

/-- Carry out a call. -/
def perform (index : EqualityIndex) : Action → Outcome EqualityIndex Unit
  | .insert row => index.insert row
  | .remove row => index.remove row
  | .truncate | .discard | .close => (.ok (), index.clear)

/-- The index after a call, whether it succeeds or fails. -/
def after (index : EqualityIndex) (action : Action) : EqualityIndex :=
  (index.perform action).2

/-- The index after a sequence of calls. -/
def run (index : EqualityIndex) (actions : List Action) : EqualityIndex :=
  actions.foldl after index

end EqualityIndex

/-! ## The same calls on entries -/

/-- Values with the keys of their rows, in the order of their insertion. -/
abbrev Entries := List (Value × Key)

namespace Entries

/-- Carry out a call on the entries of an index with a name and a column. -/
def perform (name : String) (column : Nat) (entries : Entries) :
    EqualityIndex.Action → Outcome Entries Unit
  | .insert row =>
    match row.value? column with
    | some value => (.ok (), entries ++ [(value, row.key)])
    | none => (.error (.rowTooShort row.key column name), entries)
  | .remove row =>
    match row.value? column with
    | some value => (.ok (), entries.erase (value, row.key))
    | none => (.error (.rowTooShort row.key column name), entries)
  | .truncate | .discard | .close => (.ok (), [])

/-- The entries after a sequence of calls. -/
def run (name : String) (column : Nat) (entries : Entries)
    (actions : List EqualityIndex.Action) : Entries :=
  actions.foldl (fun entries action => (perform name column entries action).2)
    entries

/-- The keys that are entered with a value. -/
def keysOf (value : Value) (entries : Entries) : List Key :=
  (entries.filter fun entry => entry.1 == value).map Prod.snd

@[simp]
theorem keysOf_nil (value : Value) : keysOf value [] = [] := rfl

theorem keysOf_cons (value : Value) (entry : Value × Key)
    (entries : Entries) :
    keysOf value (entry :: entries) =
      if value = entry.1 then entry.2 :: keysOf value entries
      else keysOf value entries := by
  rw [keysOf, List.filter_cons]
  by_cases same : value = entry.1
  · rw [if_pos (beq_iff_eq.2 same.symm), if_pos same]
    rfl
  · rw [if_neg (by simpa using Ne.symm same), if_neg same]
    rfl

theorem mem_keysOf {value : Value} {key : Key} {entries : Entries} :
    key ∈ keysOf value entries ↔ (value, key) ∈ entries := by
  simp [keysOf]

theorem keysOf_eq_nil_iff {value : Value} {entries : Entries} :
    keysOf value entries = [] ↔ value ∉ entries.map Prod.fst := by
  rw [List.eq_nil_iff_forall_not_mem]
  simp [mem_keysOf]

/-- A new entry comes last among those with its value. -/
theorem keysOf_concat (value other : Value) (key : Key) (entries : Entries) :
    keysOf other (entries ++ [(value, key)]) =
      if other = value then keysOf other entries ++ [key]
      else keysOf other entries := by
  by_cases same : other = value
  · simp [keysOf, same]
  · simp [keysOf, same, Ne.symm same]

/-- To drop an entry drops its key from those of its value. -/
theorem keysOf_erase (value other : Value) (key : Key) (entries : Entries) :
    keysOf other (entries.erase (value, key)) =
      if other = value then (keysOf other entries).erase key
      else keysOf other entries := by
  induction entries with
  | nil => simp
  | cons first rest induction =>
      rcases first with ⟨held, number⟩
      rw [List.erase_cons, keysOf_cons]
      by_cases here : (held, number) = (value, key)
      · cases here
        rw [beq_self_eq_true, if_pos rfl]
        split <;> simp
      · rw [beq_eq_false_iff_ne.2 here, if_neg Bool.false_ne_true, keysOf_cons,
          induction]
        by_cases same : other = value
        · subst same
          by_cases entered : other = held
          · have differs : number ≠ key := fun equal =>
              here (Prod.ext entered.symm equal)
            simp [entered, differs]
          · simp [entered]
        · simp [same]

end Entries

namespace EqualityIndex

variable {index : EqualityIndex} {entries : Entries} {row : Row}

/-! ## Calls in step -/

/-- An index holds the keys of entries and has counted them. -/
structure Represents (index : EqualityIndex) (entries : Entries) : Prop where
  holds : index.Holds fun value => entries.keysOf value
  rowCount_eq : index.rowCount = entries.length

theorem Represents.empty (table : TableId) (name : String) (column : Nat)
    (columnType : ColumnType) :
    (empty table name column columnType).Represents [] where
  holds := Holds.empty table name column columnType
  rowCount_eq := rfl

theorem Represents.insert (represents : index.Represents entries)
    {value : Value} (held : row.value? index.column = some value) :
    (index.insert row).2.Represents (entries ++ [(value, row.key)]) where
  holds :=
    (represents.holds.insert held).congr fun other =>
      (Entries.keysOf_concat value other row.key entries).symm
  rowCount_eq := by
    rw [insert_eq_of_value? held, List.length_append, List.length_singleton,
      ← represents.rowCount_eq]

theorem Represents.remove (represents : index.Represents entries)
    {value : Value} (held : row.value? index.column = some value) :
    (index.remove row).2.Represents (entries.erase (value, row.key)) where
  holds :=
    (represents.holds.remove held).congr fun other =>
      (Entries.keysOf_erase value other row.key entries).symm
  rowCount_eq := by
    have entered : Group.contains value row.key index.groups = true ↔
        (value, row.key) ∈ entries := by
      rw [Group.contains_iff, represents.holds.keysOf_eq, Entries.mem_keysOf]
    rw [remove_eq_of_value? held]
    split
    · rename_i contained
      rw [List.length_erase_of_mem (entered.1 contained),
        ← represents.rowCount_eq]
    · rename_i missing
      rw [List.erase_of_not_mem (mt entered.2 missing)]
      exact represents.rowCount_eq

theorem Represents.clear (index : EqualityIndex) :
    index.clear.Represents [] where
  holds := Holds.clear index
  rowCount_eq := rfl

/-- A row that does not reach the indexed column is refused. -/
theorem insert_of_value?_none (short : row.value? index.column = none) :
    index.insert row =
      (.error (.rowTooShort row.key index.column index.name), index) := by
  rw [EqualityIndex.insert, valueOf, short]

theorem remove_of_value?_none (short : row.value? index.column = none) :
    index.remove row =
      (.error (.rowTooShort row.key index.column index.name), index) := by
  rw [EqualityIndex.remove, valueOf, short]

/-- An index answers a call as its entries do, and holds them after it. -/
theorem Represents.perform (represents : index.Represents entries)
    (action : Action) :
    (index.perform action).1 =
        (entries.perform index.name index.column action).1 ∧
      (index.after action).Represents
        (entries.perform index.name index.column action).2 := by
  rw [after]
  cases action with
  | insert row =>
      rw [EqualityIndex.perform, Entries.perform]
      cases held : row.value? index.column with
      | none =>
          rw [insert_of_value?_none held]
          exact ⟨rfl, represents⟩
      | some value =>
          refine ⟨?_, represents.insert held⟩
          rw [insert_eq_of_value? held]
  | remove row =>
      rw [EqualityIndex.perform, Entries.perform]
      cases held : row.value? index.column with
      | none =>
          rw [remove_of_value?_none held]
          exact ⟨rfl, represents⟩
      | some value =>
          refine ⟨?_, represents.remove held⟩
          rw [remove_eq_of_value? held]
          split <;> rfl
  | truncate | discard | close => exact ⟨rfl, Represents.clear index⟩

/-- No call changes anything that an index without rows has. -/
theorem clear_after (index : EqualityIndex) (action : Action) :
    (index.after action).clear = index.clear := by
  cases action with
  | insert row => exact index.clear_insert row
  | remove row => exact index.clear_remove row
  | truncate | discard | close => rfl

@[simp]
theorem after_name (index : EqualityIndex) (action : Action) :
    (index.after action).name = index.name := by
  have kept := congrArg EqualityIndex.name (index.clear_after action)
  exact kept

@[simp]
theorem after_column (index : EqualityIndex) (action : Action) :
    (index.after action).column = index.column := by
  have kept := congrArg EqualityIndex.column (index.clear_after action)
  exact kept

theorem run_name_and_column (index : EqualityIndex) (actions : List Action) :
    (index.run actions).name = index.name ∧
      (index.run actions).column = index.column := by
  induction actions generalizing index with
  | nil => exact ⟨rfl, rfl⟩
  | cons action rest induction =>
      have later := induction (index.after action)
      rw [after_name, after_column] at later
      exact later

theorem Represents.run (represents : index.Represents entries)
    (actions : List Action) :
    (index.run actions).Represents
      (entries.run index.name index.column actions) := by
  induction actions generalizing index entries with
  | nil => exact represents
  | cons action rest induction =>
      have later := induction (represents.perform action).2
      rw [after_name, after_column] at later
      exact later

/-! ## What the entries tell -/

/-- A value has a group exactly if it has keys. -/
theorem Holds.mem_values_iff {keys : Value → List Key}
    (holds : index.Holds keys) {value : Value} :
    value ∈ index.groups.map Prod.fst ↔ keys value ≠ [] := by
  constructor
  · intro member
    rcases List.mem_map.1 member with ⟨group, listed, rfl⟩
    rw [holds.of_mem listed]
    exact holds.tidy.filled group listed
  · intro filled
    by_contra absent
    apply filled
    rw [← holds.keysOf_eq, Group.keysOf, Group.keys?_eq_none absent,
      Option.getD_none]

/-- There are as many groups as values that are entered. -/
theorem Represents.length_groups (represents : index.Represents entries) :
    index.groups.length = (entries.map Prod.fst).toFinset.card := by
  have same : (index.groups.map Prod.fst).toFinset =
      (entries.map Prod.fst).toFinset := by
    ext value
    rw [List.mem_toFinset, List.mem_toFinset, represents.holds.mem_values_iff,
      ne_eq, Entries.keysOf_eq_nil_iff, not_not]
  rw [← same, List.toFinset_card_of_nodup represents.holds.tidy.distinct,
    List.length_map]

/-- All that an index can be asked is read off its entries. -/
structure ListsAs (index : EqualityIndex) (name : String) (column : Nat)
    (entries : Entries) : Prop where
  /-- The group of a value has the keys that are entered with it, in order. -/
  keys?_eq : ∀ value, index.keys? value =
    if entries.keysOf value = [] then none else some (entries.keysOf value)
  length_groups : index.groups.length = (entries.map Prod.fst).toFinset.card
  rowCount_eq : index.rowCount = entries.length
  answers : ∀ action,
    (index.perform action).1 = (entries.perform name column action).1
  /-- A row that is too short is refused and changes nothing. -/
  refuses : ∀ row : Row, row.value? column = none →
    ∃ error : Error, error.kind = .internal ∧
      index.insert row = (.error error, index) ∧
      index.remove row = (.error error, index)

/-- After any calls an index is the list of the entries that they leave. -/
theorem run_empty_lists_entries (table : TableId) (name : String)
    (column : Nat) (columnType : ColumnType) (actions : List Action) :
    ((empty table name column columnType).run actions).ListsAs name column
      (Entries.run name column [] actions) := by
  have represents :=
    (Represents.empty table name column columnType).run actions
  rcases (empty table name column columnType).run_name_and_column actions with
    ⟨sameName, sameColumn⟩
  change _ = name at sameName
  change _ = column at sameColumn
  refine ⟨represents.holds.keys?_eq, represents.length_groups,
    represents.rowCount_eq, ?_, ?_⟩
  · intro action
    have answer := (represents.perform action).1
    rw [sameName, sameColumn] at answer
    exact answer
  · intro row short
    rw [← sameColumn] at short
    exact
      ⟨_, rfl, insert_of_value?_none short, remove_of_value?_none short⟩

end EqualityIndex

end VersionedColumns
