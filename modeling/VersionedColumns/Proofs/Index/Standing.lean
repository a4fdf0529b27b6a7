import Mathlib.Algebra.Group.Nat.Defs
import Mathlib.Data.List.Nodup
import VersionedColumns.Proofs.Index.Walk
import VersionedColumns.Proofs.PendingChanges

/-!
# How a key stands

The cells, the removed keys and the uncommitted changes of a primary index
together say one of four things about a key: nothing is stored under it, its
row is committed, its row is a session's uncommitted insert, or its row was
committed and a session has deleted it without committing.

A primary index is coherent when the changes agree with the cells.  Every
operation keeps an index coherent and alters the standing of one key only: a
stored row is an insert, a removal takes an insert back and turns a committed
row into a delete, and a commit settles either.
-/

namespace VersionedColumns

/-- What is stored under a key, and how far it is committed. -/
inductive Standing where
  /-- Nothing is stored. -/
  | absent
  /-- A row that counts for every session. -/
  | committed (values : List Value)
  /-- A row that its owner has inserted without committing. -/
  | inserted (owner : Session) (values : List Value)
  /-- A committed row that its owner has deleted without committing. -/
  | deleted (owner : Session) (values : List Value)
deriving DecidableEq

namespace Standing

/-- The values that a session sees under a key. -/
def seen (session : Session) : Standing → Option (List Value)
  | absent => none
  | committed values => some values
  | inserted owner values =>
    if owner = noSession ∨ owner = session then some values else none
  | deleted owner values => if owner = session then none else some values

/-- The session whose uncommitted change the key stands for. -/
def owner? : Standing → Option Session
  | absent | committed _ => none
  | inserted owner _ | deleted owner _ => some owner

/-- What a removal by a session makes of a key. -/
def removedBy (session : Session) : Standing → Standing
  | committed values => deleted session values
  | inserted _ _ => absent
  | other => other

/-- What a commit of the change to a key makes of it. -/
def settled : Standing → Standing
  | inserted _ values => committed values
  | deleted _ _ => absent
  | other => other

/-- The values that are stored under the key, whoever may see them. -/
def stored? : Standing → Option (List Value)
  | committed values | inserted _ values => some values
  | absent | deleted _ _ => none

/-- The row that is read under a key. -/
def row (key : Key) : Standing → Row
  | committed values => Row.stored key values
  | inserted owner values => ⟨key, values, false, owner⟩
  | absent | deleted _ _ => Row.tombstone

end Standing

namespace PrimaryIndex

/-- How a key stands in a primary index. -/
def standing (index : PrimaryIndex) (key : Key) : Standing :=
  match index.pending.row? key with
  | some change =>
    if change.deleted then .deleted change.owner change.values
    else .inserted change.owner change.values
  | none =>
    if index.grid.isLive key then .committed (index.grid.cells key)
    else .absent

/--
What a pending change says of the cells: an insert belongs to a live row and
repeats its values, and a delete belongs to a removed row.
-/
structure Agrees (grid : Grid) (key : Key) (change : Row) : Prop where
  key_lt : key < grid.nextKey
  of_insert : change.deleted = false →
    grid.isLive key = true ∧ change.values = grid.cells key
  of_delete : change.deleted = true → grid.isLive key = false

/-- A pending change to a live key is an insert. -/
theorem Agrees.insert_of_isLive {grid : Grid} {key : Key} {change : Row}
    (agrees : Agrees grid key change) (live : grid.isLive key = true) :
    change.deleted = false := by
  cases mark : change.deleted with
  | false => rfl
  | true =>
      rw [agrees.of_delete mark] at live
      cases live

/-- The uncommitted changes agree with the cells. -/
structure Coherent (index : PrimaryIndex) : Prop where
  inStep : index.grid.InStep
  ordered : index.pending.Ordered
  agrees : ∀ {key change}, index.pending.row? key = some change →
    Agrees index.grid key change
  /-- Where changes take effect at once none is pending. -/
  unrecorded : index.versioned = false → index.pending.rows = []
  rowCount_eq : index.rowCount = index.grid.liveKeys.length

theorem Coherent.key_lt {index : PrimaryIndex} (coherent : index.Coherent)
    {change : Row} (member : change ∈ index.pending.rows) :
    change.key < index.nextKey :=
  (coherent.agrees (coherent.ordered.row?_key member)).key_lt

theorem Coherent.row?_eq_none_of_le {index : PrimaryIndex}
    (coherent : index.Coherent) {key : Key} (outside : index.nextKey ≤ key) :
    index.pending.row? key = none := by
  cases found : index.pending.row? key with
  | none => rfl
  | some change =>
      exact absurd (coherent.agrees found).key_lt (Nat.not_lt.2 outside)

/-! ## Reading a standing -/

theorem standing_of_row?_none {index : PrimaryIndex} {key : Key}
    (unchanged : index.pending.row? key = none) :
    index.standing key =
      if index.grid.isLive key then .committed (index.grid.cells key)
      else .absent := by
  rw [standing, unchanged]

/-- The two standings of a key with a pending change. -/
theorem standing_of_row?_some {index : PrimaryIndex} {key : Key} {change : Row}
    (found : index.pending.row? key = some change) :
    index.standing key =
      if change.deleted then .deleted change.owner change.values
      else .inserted change.owner change.values := by
  rw [standing, found]

theorem row?_of_standing_inserted {index : PrimaryIndex} {key : Key}
    {owner : Session} {values : List Value}
    (stands : index.standing key = .inserted owner values) :
    ∃ change, index.pending.row? key = some change ∧ change.deleted = false ∧
      change.owner = owner := by
  cases found : index.pending.row? key with
  | none =>
      rw [standing_of_row?_none found] at stands
      split at stands <;> cases stands
  | some change =>
      rw [standing_of_row?_some found] at stands
      cases mark : change.deleted with
      | false =>
          rw [mark] at stands
          cases stands
          exact ⟨change, rfl, mark, rfl⟩
      | true =>
          rw [mark] at stands
          cases stands

/-- Exactly the live keys stand for stored values, which are their cells. -/
theorem Coherent.stored?_standing {index : PrimaryIndex}
    (coherent : index.Coherent) (key : Key) :
    (index.standing key).stored? =
      if index.grid.isLive key then some (index.grid.cells key) else none := by
  cases found : index.pending.row? key with
  | none =>
      rw [standing_of_row?_none found]
      cases index.grid.isLive key <;> rfl
  | some change =>
      have agrees := coherent.agrees found
      rw [standing_of_row?_some found]
      cases mark : change.deleted with
      | false => simp [Standing.stored?, agrees.of_insert mark]
      | true => simp [Standing.stored?, agrees.of_delete mark]

/-- Nothing stands behind the last key. -/
theorem Coherent.standing_of_le {index : PrimaryIndex}
    (coherent : index.Coherent) {key : Key} (outside : index.nextKey ≤ key) :
    index.standing key = .absent := by
  rw [standing_of_row?_none (coherent.row?_eq_none_of_le outside),
    Grid.isLive_eq_false_of_le outside]
  rfl

/-- A key that stands for anything was handed out. -/
theorem Coherent.lt_nextKey_of_standing {index : PrimaryIndex}
    (coherent : index.Coherent) {key : Key}
    (stands : index.standing key ≠ .absent) :
    key < index.nextKey := by
  apply Nat.lt_of_not_le
  intro outside
  exact stands (coherent.standing_of_le outside)

/-- No key of a row is the one that marks removed rows. -/
theorem ne_tombstoneKey_of_lt {index : PrimaryIndex} {key : Key}
    (inside : key < index.nextKey) (fits : index.nextKey < 2 ^ 64) :
    key ≠ Row.tombstoneKey := by
  rw [Row.tombstoneKey]
  grind

/-- A row is read as its key stands. -/
theorem Coherent.row?_eq {index : PrimaryIndex} (coherent : index.Coherent)
    {key : Key} (inside : key < index.nextKey)
    (notLast : key ≠ Row.tombstoneKey) :
    index.row? key = some ((index.standing key).row key) := by
  have stored := coherent.stored?_standing key
  cases live : index.grid.isLive key with
  | false =>
      have read : index.row? key = some Row.tombstone := by
        rw [row?, Grid.row?_eq_of_isLive_false inside live, Option.map_some,
          withOwner_tombstone]
      rw [live] at stored
      rw [read]
      cases stands : index.standing key with
      | absent | deleted owner values => rfl
      | committed values | inserted owner values =>
          simp [stands, Standing.stored?] at stored
  | true =>
      rw [row?, Grid.row?_of_isLive live, Option.map_some]
      cases found : index.pending.row? key with
      | none =>
          rw [standing_of_row?_none found, withOwner, found, live]
          rfl
      | some change =>
          have agrees := coherent.agrees found
          have insert := agrees.insert_of_isLive live
          rw [standing_of_row?_some found, withOwner, found,
            (agrees.of_insert insert).2]
          simp [Row.stored, Row.isTombstone, Standing.row, notLast, insert]

/-! ## An index without rows -/

theorem Coherent.empty (table : TableId) (tableName : String)
    (columnNames : List String) (config : Config) :
    (empty table tableName columnNames config).Coherent where
  inStep := Grid.InStep.empty columnNames
  ordered := List.Pairwise.nil
  agrees := by
    intro key change found
    cases found
  unrecorded := fun _ => rfl
  rowCount_eq := rfl

theorem Coherent.clear (index : PrimaryIndex) : index.clear.Coherent where
  inStep := Grid.InStep.clear index.grid
  ordered := List.Pairwise.nil
  agrees := by
    intro key change found
    cases found
  unrecorded := fun _ => rfl
  rowCount_eq := rfl

@[simp]
theorem clear_standing (index : PrimaryIndex) (key : Key) :
    index.clear.standing key = .absent :=
  (Coherent.clear index).standing_of_le (Nat.zero_le key)

/-! ## Storing a row -/

/-- A row of given values as it is kept under the next key. -/
def nextRow (index : PrimaryIndex) (session : Session) (values : List Value) :
    Row :=
  index.inserted session index.nextKey (Row.ofValues values)

/-- The index with one more row. -/
def withRow (index : PrimaryIndex) (session : Session) (values : List Value) :
    PrimaryIndex :=
  { index with
    grid := index.grid.appended values
    pending :=
      index.pending.recordInsert session (index.nextRow session values)
    rowCount := index.rowCount + 1 }

theorem insert_ofValues {index : PrimaryIndex} {values : List Value}
    (fitting : values.length = index.grid.columns.length) (session : Session) :
    index.insert session (Row.ofValues values) =
      (.ok (index.nextRow session values), index.withRow session values) := by
  have stored : index.grid.append (Row.ofValues values).values =
      (.ok index.nextKey, index.grid.appended values) :=
    Grid.append_of_length_eq fitting
  rw [insert, stored]
  rfl

@[simp]
theorem withRow_versioned (index : PrimaryIndex) (session : Session)
    (values : List Value) :
    (index.withRow session values).versioned = index.versioned :=
  PendingChanges.record_recorded _ _ _ _

theorem nextRow_eq {index : PrimaryIndex} (versioned : index.versioned = true)
    (session : Session) (values : List Value) :
    index.nextRow session values = ⟨index.nextKey, values, false, session⟩ := by
  simp [nextRow, inserted, versioned, Row.ofValues, Row.stored]

/-- A stored row is the only change that is new. -/
theorem Coherent.row?_withRow {index : PrimaryIndex}
    (coherent : index.Coherent) (versioned : index.versioned = true)
    (session : Session) (values : List Value) (key : Key) :
    (index.withRow session values).pending.row? key =
      if key = index.nextKey then some (index.nextRow session values)
      else index.pending.row? key := by
  have toggled :=
    coherent.ordered.row?_record versioned session 1
      (index.nextRow session values) key
  have fresh := coherent.row?_eq_none_of_le (Nat.le_refl _)
  by_cases last : key = index.nextKey
  · subst last
    rw [fresh] at toggled
    rw [if_pos rfl]
    exact toggled.trans (if_pos rfl)
  · rw [if_neg last]
    exact toggled.trans (if_neg last)

/-- What agreed with the cells still agrees once a row is stored. -/
theorem Agrees.appended {grid : Grid} (inStep : grid.InStep) {key : Key}
    {change : Row} (agrees : Agrees grid key change) {values : List Value}
    (fitting : values.length = grid.columns.length) :
    Agrees (grid.appended values) key change where
  key_lt := Nat.lt_succ_of_lt agrees.key_lt
  of_insert := by
    intro mark
    rcases agrees.of_insert mark with ⟨live, same⟩
    rw [inStep.isLive_appended, live, inStep.cells_appended fitting,
      if_neg (Nat.ne_of_lt agrees.key_lt)]
    exact ⟨rfl, same⟩
  of_delete := by
    intro mark
    have differs : (key == grid.nextKey) = false := by
      simpa using Nat.ne_of_lt agrees.key_lt
    rw [inStep.isLive_appended, agrees.of_delete mark, differs]
    rfl

theorem Coherent.withRow {index : PrimaryIndex} (coherent : index.Coherent)
    {values : List Value}
    (fitting : values.length = index.grid.columns.length) (session : Session) :
    (index.withRow session values).Coherent where
  inStep := coherent.inStep.appended values
  ordered := coherent.ordered.record session _ _
  agrees := by
    intro key change found
    cases versioned : index.versioned with
    | false =>
        have same := PendingChanges.record_of_not_recorded versioned session 1
          (index.nextRow session values)
        have old : index.pending.row? key = some change := by
          rw [← found]
          exact congrArg (·.row? key) same.symm
        exact (coherent.agrees old).appended coherent.inStep fitting
    | true =>
        rw [coherent.row?_withRow versioned] at found
        split at found
        · rename_i last
          cases found
          subst last
          refine ⟨Nat.lt_succ_self _, fun _ => ⟨?_, ?_⟩, fun mark => ?_⟩
          · simp [PrimaryIndex.withRow, coherent.inStep.isLive_appended, nextKey]
          · have read := coherent.inStep.cells_appended fitting index.nextKey
            exact (read.trans (if_pos rfl)).symm
          · cases mark
        · exact (coherent.agrees found).appended coherent.inStep fitting
  unrecorded := by
    intro immediate
    rw [withRow_versioned] at immediate
    have same := PendingChanges.record_of_not_recorded immediate session 1
      (index.nextRow session values)
    exact (congrArg PendingChanges.rows same).trans (coherent.unrecorded immediate)
  rowCount_eq := by
    have longer := congrArg List.length (coherent.inStep.liveKeys_appended values)
    rw [List.length_append, ← coherent.rowCount_eq] at longer
    exact longer.symm

/-- A stored row is its session's insert until it is committed. -/
theorem Coherent.standing_withRow {index : PrimaryIndex}
    (coherent : index.Coherent) (versioned : index.versioned = true)
    {values : List Value}
    (fitting : values.length = index.grid.columns.length) (session : Session)
    (key : Key) :
    (index.withRow session values).standing key =
      if key = index.nextKey then .inserted session values
      else index.standing key := by
  have row? := coherent.row?_withRow versioned session values key
  by_cases last : key = index.nextKey
  · rw [if_pos last] at row? ⊢
    rw [standing_of_row?_some row?, nextRow_eq versioned]
    rfl
  · rw [if_neg last] at row? ⊢
    have differs : (key == index.grid.nextKey) = false :=
      beq_eq_false_iff_ne.2 last
    have live : (index.withRow session values).grid.isLive key =
        index.grid.isLive key := by
      simp [PrimaryIndex.withRow, coherent.inStep.isLive_appended, differs]
    have cells : (index.withRow session values).grid.cells key =
        index.grid.cells key :=
      (coherent.inStep.cells_appended fitting key).trans (if_neg last)
    simp only [standing, row?, live, cells]

/-! ## Removing a row -/

/-- The index without the row of a live key. -/
def withoutRow (index : PrimaryIndex) (session : Session) (row : Row) :
    PrimaryIndex :=
  { index with
    grid := index.grid.without row.key
    pending := index.pending.recordDelete session { row with owner := session }
    rowCount := index.rowCount - 1 }

theorem remove_of_isLive {index : PrimaryIndex} {row : Row}
    (live : index.grid.isLive row.key = true) (session : Session) :
    index.remove session row = (.ok (), index.withoutRow session row) := by
  rw [remove, Grid.remove_of_isLive live]
  rfl

@[simp]
theorem withoutRow_nextKey (index : PrimaryIndex) (session : Session)
    (row : Row) :
    (index.withoutRow session row).nextKey = index.nextKey := rfl

@[simp]
theorem withoutRow_versioned (index : PrimaryIndex) (session : Session)
    (row : Row) :
    (index.withoutRow session row).versioned = index.versioned :=
  PendingChanges.record_recorded _ _ _ _

/-- A removed row is a change of its session, unless it was an insert. -/
theorem Coherent.row?_withoutRow {index : PrimaryIndex}
    (coherent : index.Coherent) (versioned : index.versioned = true)
    (session : Session) (row : Row) (key : Key) :
    (index.withoutRow session row).pending.row? key =
      if key = row.key then
        match index.pending.row? key with
        | some _ => none
        | none => some { row with owner := session, deleted := true }
      else index.pending.row? key :=
  coherent.ordered.row?_record versioned session (-1)
    { row with owner := session, deleted := true } key

/-- What agreed with the cells of other keys still agrees after a removal. -/
theorem Agrees.without {grid : Grid} {key gone : Key} {change : Row}
    (agrees : Agrees grid key change) (differs : key ≠ gone) :
    Agrees (grid.without gone) key change where
  key_lt := agrees.key_lt
  of_insert := by
    intro mark
    rcases agrees.of_insert mark with ⟨live, same⟩
    rw [Grid.isLive_without, live, Grid.cells_without_of_ne grid differs]
    exact ⟨by simpa using differs, same⟩
  of_delete := by
    intro mark
    rw [Grid.isLive_without, agrees.of_delete mark, Bool.false_and]

theorem Coherent.withoutRow {index : PrimaryIndex} (coherent : index.Coherent)
    {row : Row} (live : index.grid.isLive row.key = true) (session : Session) :
    (index.withoutRow session row).Coherent where
  inStep := coherent.inStep.without live
  ordered := coherent.ordered.record session _ _
  agrees := by
    intro key change found
    cases versioned : index.versioned with
    | false =>
        have same := PendingChanges.record_of_not_recorded versioned session (-1)
          { row with owner := session, deleted := true }
        have old : index.pending.row? key = some change := by
          rw [← found]
          exact congrArg (·.row? key) same.symm
        have none : index.pending.row? key = none := by
          rw [PendingChanges.row?, coherent.unrecorded versioned]
          rfl
        rw [none] at old
        cases old
    | true =>
        rw [coherent.row?_withoutRow versioned] at found
        split at found
        · rename_i same
          subst same
          split at found
          · cases found
          · cases found
            have inside : row.key < index.grid.nextKey :=
              Grid.lt_nextKey_of_isLive live
            refine ⟨inside, fun mark => ?_, fun _ => ?_⟩
            · cases mark
            · simp [PrimaryIndex.withoutRow, Grid.isLive_without]
        · rename_i differs
          exact (coherent.agrees found).without differs
  unrecorded := by
    intro immediate
    rw [withoutRow_versioned] at immediate
    have same := PendingChanges.record_of_not_recorded immediate session (-1)
      { row with owner := session, deleted := true }
    exact (congrArg PendingChanges.rows same).trans (coherent.unrecorded immediate)
  rowCount_eq := by
    have member : row.key ∈ index.grid.liveKeys := Grid.mem_liveKeys.2 live
    have nodup : index.grid.liveKeys.Nodup :=
      List.Nodup.filter _ List.nodup_range
    have shorter := List.length_erase_of_mem member
    rw [nodup.erase_eq_filter, ← Grid.liveKeys_without,
      ← coherent.rowCount_eq] at shorter
    exact shorter.symm

/-- A removal alters the standing of its key alone. -/
theorem Coherent.standing_withoutRow {index : PrimaryIndex}
    (coherent : index.Coherent) (versioned : index.versioned = true)
    {row : Row} (live : index.grid.isLive row.key = true)
    (values : row.values = index.grid.cells row.key) (session : Session)
    (key : Key) :
    (index.withoutRow session row).standing key =
      if key = row.key then (index.standing key).removedBy session
      else index.standing key := by
  have row? := coherent.row?_withoutRow versioned session row key
  by_cases same : key = row.key
  · subst same
    rw [if_pos rfl] at row? ⊢
    cases found : index.pending.row? row.key with
    | none =>
        rw [found] at row?
        rw [standing_of_row?_some row?, standing_of_row?_none found, if_pos live,
          values]
        rfl
    | some change =>
        have insert := (coherent.agrees found).insert_of_isLive live
        have gone : (index.withoutRow session row).grid.isLive row.key = false := by
          simp [PrimaryIndex.withoutRow, Grid.isLive_without]
        rw [found] at row?
        rw [standing_of_row?_none row?, gone, standing_of_row?_some found, insert]
        rfl
  · rw [if_neg same] at row? ⊢
    have live : (index.withoutRow session row).grid.isLive key =
        index.grid.isLive key := by
      simp [PrimaryIndex.withoutRow, Grid.isLive_without, same]
    have cells : (index.withoutRow session row).grid.cells key =
        index.grid.cells key := Grid.cells_without_of_ne _ same
    simp only [standing, row?, live, cells]

/-! ## Committing a change -/

@[simp]
theorem commit_versioned (index : PrimaryIndex) (kind : ChangeKind)
    (row : Row) :
    (index.commit kind row).versioned = index.versioned :=
  PendingChanges.commit_recorded _ _ _

theorem Coherent.commit {index : PrimaryIndex} (coherent : index.Coherent)
    (kind : ChangeKind) (row : Row) :
    (index.commit kind row).Coherent where
  inStep := coherent.inStep
  ordered := coherent.ordered.commit kind row
  agrees := by
    intro key change found
    rcases PendingChanges.mem_rows_of_row? found with ⟨member, same⟩
    have old := coherent.ordered.row?_key (PendingChanges.mem_commit_rows member)
    exact coherent.agrees (same ▸ old)
  unrecorded := by
    intro immediate
    rw [commit_versioned] at immediate
    have none := coherent.unrecorded immediate
    rw [List.eq_nil_iff_forall_not_mem] at none ⊢
    exact fun change member => none change (PendingChanges.mem_commit_rows member)
  rowCount_eq := coherent.rowCount_eq

/-- A commit alters the standing of its key alone. -/
theorem Coherent.standing_commit {index : PrimaryIndex}
    (coherent : index.Coherent) (versioned : index.versioned = true)
    (kind : ChangeKind) (row : Row) (key : Key) :
    (index.commit kind row).standing key =
      if key = row.key then (index.standing key).settled
      else index.standing key := by
  have row? : (index.commit kind row).pending.row? key =
      if key = row.key then none else index.pending.row? key :=
    PendingChanges.commit_row? versioned kind row key
  by_cases same : key = row.key
  · rw [if_pos same] at row? ⊢
    rw [standing_of_row?_none row?, commit_grid]
    cases found : index.pending.row? key with
    | none =>
        rw [standing_of_row?_none found]
        cases index.grid.isLive key <;> rfl
    | some change =>
        have agrees := coherent.agrees found
        rw [standing_of_row?_some found]
        cases mark : change.deleted with
        | false =>
            rcases agrees.of_insert mark with ⟨live, values⟩
            simp [live, values, Standing.settled]
        | true => simp [agrees.of_delete mark, Standing.settled]
  · rw [if_neg same] at row? ⊢
    rw [standing, row?]
    rfl

end PrimaryIndex

end VersionedColumns
