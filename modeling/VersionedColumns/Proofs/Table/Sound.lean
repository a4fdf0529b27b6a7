import VersionedColumns.Proofs.Index.Equality
import VersionedColumns.Proofs.Index.Standing
import VersionedColumns.Table.Action

/-!
# Sound tables

A table is sound when its primary index is coherent, every value that is
stored or waits for a commit fits the type of its column, and every equality
index is on a column that exists.  A new table is sound.

In a sound table a change to a row either is refused and leaves the table as
it was, or reaches every index.  No index can refuse a row halfway, and the
table is sound again afterwards.
-/

namespace VersionedColumns

/-! ## Rows that fit their columns -/

/-- There is one value for every column, and it fits the type. -/
def Fits (columns : List Column) (values : List Value) : Prop :=
  List.Forall₂ (fun column value => value.fits column.type = true) columns values

theorem Fits.length_eq {columns : List Column} {values : List Value}
    (fits : Fits columns values) :
    values.length = columns.length :=
  (List.Forall₂.length_eq fits).symm

/-- Where a row converts, its first value does and so do the others. -/
theorem convert_cons_eq_ok {column : Column} {columns : List Column}
    {value : Value} {values converted : List Value}
    (converts : Table.convert (column :: columns) (value :: values) =
      .ok converted) :
    ∃ first rest, value.convertTo column.type = .ok first ∧
      Table.convert columns values = .ok rest ∧ converted = first :: rest := by
  rw [Table.convert] at converts
  cases head : value.convertTo column.type with
  | error error =>
      rw [head] at converts
      cases converts
  | ok first =>
      cases tail : Table.convert columns values with
      | error error =>
          rw [head, tail] at converts
          cases converts
      | ok rest =>
          rw [head, tail] at converts
          cases converts
          exact ⟨first, rest, rfl, rfl, rfl⟩

/-- What a conversion yields fits. -/
theorem fits_of_convert {columns : List Column} {values converted : List Value}
    (fitting : values.length = columns.length)
    (converts : Table.convert columns values = .ok converted) :
    Fits columns converted := by
  induction columns generalizing values converted with
  | nil =>
      cases List.length_eq_zero_iff.1 fitting
      cases converts
      exact List.Forall₂.nil
  | cons column columns induction =>
      rcases List.exists_cons_of_length_eq_add_one fitting with
        ⟨value, values, rfl⟩
      rcases convert_cons_eq_ok converts with ⟨first, rest, head, tail, rfl⟩
      exact
        List.Forall₂.cons (Value.fits_of_convertTo head)
          (induction (Nat.succ.inj fitting) tail)

/-- A row that fits is left as it is. -/
theorem convert_of_fits {columns : List Column} {values : List Value}
    (fits : Fits columns values) :
    Table.convert columns values = .ok values := by
  induction fits with
  | nil => rfl
  | cons fitting _ induction =>
      rw [Table.convert, Value.convertTo_of_fits fitting, induction]
      rfl

namespace Table

/-- Indexes, cells and uncommitted changes of a table belong together. -/
structure Sound (table : Table) : Prop where
  coherent : table.primary.Coherent
  width : table.primary.grid.columns.length = table.columns.length
  cells_fit : ∀ {key}, table.primary.grid.isLive key = true →
    Fits table.columns (table.primary.grid.cells key)
  changes_fit : ∀ change ∈ table.primary.pending.rows,
    Fits table.columns change.values
  indexed : ∀ index ∈ table.secondary, index.column < table.columns.length

/-- The grid of a table with columns has columns. -/
theorem Sound.grid_columns_ne_nil {table : Table} (sound : table.Sound)
    (columns : table.columns ≠ []) :
    table.primary.grid.columns ≠ [] := by
  intro none
  have width := sound.width
  rw [none] at width
  exact columns (List.length_eq_zero_iff.1 width.symm)

/-! ## Inserting and removing -/

/-- The table with one more row in all of its indexes. -/
def withRow (table : Table) (session : Session) (values : List Value) : Table :=
  { table with
    primary := table.primary.withRow session values
    secondary := table.secondary.map fun index =>
      (index.insert (table.primary.nextRow session values)).2 }

/-- The table without a row in any of its indexes. -/
def withoutRow (table : Table) (session : Session) (row : Row) : Table :=
  { table with
    primary := table.primary.withoutRow session row
    secondary := table.secondary.map fun index => (index.remove row).2 }

/-- A row that converts is stored under the next key in all indexes. -/
theorem Sound.insert_eq {table : Table} (sound : table.Sound)
    {values converted : List Value}
    (fitting : values.length = table.columns.length)
    (converts : convert table.columns values = .ok converted)
    (session : Session) :
    table.insert session values =
      (.ok table.primary.nextKey, table.withRow session converted) := by
  have width : converted.length = table.primary.grid.columns.length :=
    (fits_of_convert fitting converts).length_eq.trans sound.width.symm
  have accepted : ∀ index ∈ table.secondary,
      (index.insert (table.primary.nextRow session converted)).1 = .ok () := by
    intro index member
    apply EqualityIndex.insert_ok
    change index.column < converted.length
    rw [width, sound.width]
    exact sound.indexed index member
  rw [insert, if_pos fitting, converts]
  simp only [PrimaryIndex.insert_ofValues width,
    EqualityIndex.changeEach_eq_map accepted]
  rfl

/-- A call to insert a row is refused or stores the converted values. -/
theorem Sound.insert_converts {table : Table} (sound : table.Sound)
    (session : Session) (values : List Value) :
    (∃ error, table.insert session values = (.error error, table)) ∨
      values.length = table.columns.length ∧
        ∃ converted, convert table.columns values = .ok converted ∧
          table.insert session values =
            (.ok table.primary.nextKey, table.withRow session converted) := by
  by_cases fitting : values.length = table.columns.length
  · cases converts : convert table.columns values with
    | error error =>
        refine Or.inl ⟨error, ?_⟩
        rw [insert, if_pos fitting, converts]
    | ok converted =>
        exact
          Or.inr ⟨fitting, converted, rfl,
            sound.insert_eq fitting converts session⟩
  · exact Or.inl ⟨_, insert_of_length_ne session fitting⟩

/-- What a call to insert a row can do. -/
theorem Sound.insert_cases {table : Table} (sound : table.Sound)
    (session : Session) (values : List Value) :
    (∃ error, table.insert session values = (.error error, table)) ∨
      ∃ converted, Fits table.columns converted ∧
        table.insert session values =
          (.ok table.primary.nextKey, table.withRow session converted) := by
  rcases sound.insert_converts session values with
    refused | ⟨fitting, converted, converts, stored⟩
  · exact Or.inl refused
  · exact Or.inr ⟨converted, fits_of_convert fitting converts, stored⟩

/-- The live row at a key is read from the cells. -/
theorem liveRow?_eq_some {table : Table} {key : Key} {row : Row}
    (found : table.liveRow? key = some row) :
    table.primary.grid.isLive key = true ∧ row.key = key ∧
      row.values = table.primary.grid.cells key ∧ row.deleted = false := by
  rcases Option.filter_eq_some_iff.1 found with ⟨read, notTombstone⟩
  rcases Option.map_eq_some_iff.1 read with ⟨stored, storedFound, rfl⟩
  have inside : key < table.primary.grid.nextKey := by
    apply Nat.lt_of_not_le
    intro outside
    rw [Grid.row?_eq_none_iff.2 outside] at storedFound
    cases storedFound
  cases live : table.primary.grid.isLive key with
  | false =>
      rw [Grid.row?_eq_of_isLive_false inside live] at storedFound
      cases storedFound
      simp at notTombstone
  | true =>
      rw [Grid.row?_of_isLive live] at storedFound
      cases storedFound
      exact
        ⟨rfl, PrimaryIndex.withOwner_key _ _ _,
          PrimaryIndex.withOwner_values _ _ _,
          PrimaryIndex.withOwner_deleted _ _ _⟩

/-- Where there is a live row, rows are counted. -/
theorem Sound.rowCount_pos {table : Table} (sound : table.Sound) {key : Key}
    {row : Row} (found : table.liveRow? key = some row) :
    0 < table.primary.rowCount := by
  have live : key ∈ table.primary.grid.liveKeys :=
    Grid.mem_liveKeys.2 (liveRow?_eq_some found).1
  rw [sound.coherent.rowCount_eq]
  exact List.length_pos_of_mem live

/-- A live row is taken out of all indexes. -/
theorem Sound.remove_eq {table : Table} (sound : table.Sound) {key : Key}
    {row : Row} (found : table.liveRow? key = some row) (session : Session) :
    table.remove session key = (.ok row, table.withoutRow session row) := by
  rcases liveRow?_eq_some found with ⟨live, same, values, -⟩
  subst same
  have accepted : ∀ index ∈ table.secondary, (index.remove row).1 = .ok () := by
    intro index member
    apply EqualityIndex.remove_ok
    rw [values, Grid.cells_length, sound.width]
    exact sound.indexed index member
  rw [remove, found]
  simp only [EqualityIndex.changeEach_eq_map accepted,
    PrimaryIndex.remove_of_isLive live]
  rfl

/-- What a call to remove a row can do. -/
theorem Sound.remove_cases {table : Table} (sound : table.Sound)
    (session : Session) (key : Key) :
    table.liveRow? key = none ∧
        table.remove session key =
          (.error (.nothingToRemove key table.primary.nextKey), table) ∨
      ∃ row, table.liveRow? key = some row ∧
        table.remove session key = (.ok row, table.withoutRow session row) := by
  cases found : table.liveRow? key with
  | none =>
      refine Or.inl ⟨rfl, ?_⟩
      rw [remove, found]
  | some row => exact Or.inr ⟨row, rfl, sound.remove_eq found session⟩

/-! ## Sound again -/

/-- A new table is sound. -/
theorem Sound.create (id : TableId) (schema : Schema) (config : Config) :
    (create id schema config).Sound where
  coherent := PrimaryIndex.Coherent.empty _ _ _ _
  width := by simp [Table.create, PrimaryIndex.empty, Grid.empty]
  cells_fit := by
    intro key live
    exact absurd (Grid.lt_nextKey_of_isLive live) (Nat.not_lt_zero key)
  changes_fit := by
    intro change member
    cases member
  indexed := by
    intro index member
    cases member

theorem Sound.withRow {table : Table} (sound : table.Sound)
    {values : List Value} (fits : Fits table.columns values)
    (session : Session) :
    (table.withRow session values).Sound := by
  have fitting : values.length = table.primary.grid.columns.length :=
    fits.length_eq.trans sound.width.symm
  refine ⟨sound.coherent.withRow fitting session, ?_, ?_, ?_, ?_⟩
  · exact (Grid.appended_columns_length fitting).trans sound.width
  · intro key live
    have read := sound.coherent.inStep.cells_appended fitting key
    have known := sound.coherent.inStep.isLive_appended values key
    change (table.primary.grid.appended values).isLive key = true at live
    change Fits table.columns ((table.primary.grid.appended values).cells key)
    by_cases last : key = table.primary.grid.nextKey
    · rw [read, if_pos last]
      exact fits
    · rw [known, beq_eq_false_iff_ne.2 last, Bool.or_false] at live
      rw [read, if_neg last]
      exact sound.cells_fit live
  · intro change member
    rcases PendingChanges.mem_record_rows member with rfl | old
    · exact fits
    · exact sound.changes_fit change old
  · intro index member
    rcases List.mem_map.1 member with ⟨old, oldMember, rfl⟩
    rw [EqualityIndex.insert_column]
    exact sound.indexed old oldMember

theorem Sound.withoutRow {table : Table} (sound : table.Sound) {row : Row}
    (found : table.liveRow? row.key = some row) (session : Session) :
    (table.withoutRow session row).Sound := by
  rcases liveRow?_eq_some found with ⟨live, -, values, -⟩
  refine ⟨sound.coherent.withoutRow live session, ?_, ?_, ?_, ?_⟩
  · exact (Grid.without_columns_length _ _).trans sound.width
  · intro key stillLive
    change (table.primary.grid.without row.key).isLive key = true at stillLive
    change Fits table.columns ((table.primary.grid.without row.key).cells key)
    rw [Grid.isLive_without, Bool.and_eq_true, bne_iff_ne] at stillLive
    rw [Grid.cells_without_of_ne _ stillLive.2]
    exact sound.cells_fit stillLive.1
  · intro change member
    rcases PendingChanges.mem_record_rows member with rfl | old
    · change Fits table.columns row.values
      rw [values]
      exact sound.cells_fit live
    · exact sound.changes_fit change old
  · intro index member
    rcases List.mem_map.1 member with ⟨old, oldMember, rfl⟩
    rw [EqualityIndex.remove_column]
    exact sound.indexed old oldMember

theorem Sound.commitRow {table : Table} (sound : table.Sound)
    (kind : ChangeKind) (row : Row) :
    (table.commitRow kind row).Sound where
  coherent := sound.coherent.commit kind row
  width := sound.width
  cells_fit := sound.cells_fit
  changes_fit := fun change member =>
    sound.changes_fit change (PendingChanges.mem_commit_rows member)
  indexed := sound.indexed

/-- A table without rows is sound if its cells have a place for each column. -/
theorem sound_clear {table : Table}
    (width : table.primary.grid.columns.length = table.columns.length)
    {secondary : List EqualityIndex}
    (indexed : ∀ index ∈ secondary, index.column < table.columns.length) :
    { table with
      primary := table.primary.clear
      secondary := secondary }.Sound where
  coherent := PrimaryIndex.Coherent.clear table.primary
  width := (Grid.clear_columns_length _).trans width
  cells_fit := by
    intro key live
    exact absurd (Grid.lt_nextKey_of_isLive live) (Nat.not_lt_zero key)
  changes_fit := by
    intro change member
    cases member
  indexed := indexed

/-- Other equality indexes on columns of the table keep it sound. -/
theorem Sound.reindexed {table : Table} (sound : table.Sound)
    {secondary : List EqualityIndex}
    (indexed : ∀ index ∈ secondary, index.column < table.columns.length) :
    { table with secondary := secondary }.Sound :=
  ⟨sound.coherent, sound.width, sound.cells_fit, sound.changes_fit, indexed⟩

/-! ## How keys stand afterwards -/

theorem Sound.standing_withRow {table : Table} (sound : table.Sound)
    (versioned : table.primary.versioned = true) {values : List Value}
    (fits : Fits table.columns values) (session : Session) (key : Key) :
    (table.withRow session values).primary.standing key =
      if key = table.primary.nextKey then .inserted session values
      else table.primary.standing key :=
  sound.coherent.standing_withRow versioned
    (fits.length_eq.trans sound.width.symm) session key

theorem Sound.standing_withoutRow {table : Table} (sound : table.Sound)
    (versioned : table.primary.versioned = true) {row : Row}
    (found : table.liveRow? row.key = some row) (session : Session)
    (key : Key) :
    (table.withoutRow session row).primary.standing key =
      if key = row.key then (table.primary.standing key).removedBy session
      else table.primary.standing key := by
  rcases liveRow?_eq_some found with ⟨live, -, cells, -⟩
  exact sound.coherent.standing_withoutRow versioned live cells session key

end Table

end VersionedColumns
