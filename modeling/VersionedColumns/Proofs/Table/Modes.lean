import VersionedColumns.Proofs.Table.RowCounts

/-!
# Tables with and without uncommitted changes

A table in which changes wait for a commit becomes one in which they take
effect at once when its uncommitted changes are forgotten.  Every call but a
rollback has the same effect before and after that, and every call but a
rollback and a commit has the same answer, owners of rows aside.  So a run
without rollbacks leaves the same cells, counts and indexes behind whether
changes wait for a commit or not.

Where no change is left that waits, both tables also read the same.
-/

namespace VersionedColumns

namespace PrimaryIndex

/-- The index without its uncommitted changes, where none is recorded. -/
def immediate (index : PrimaryIndex) : PrimaryIndex :=
  { index with pending := PendingChanges.empty false }

@[simp]
theorem immediate_grid (index : PrimaryIndex) :
    index.immediate.grid = index.grid := rfl

@[simp]
theorem immediate_nextKey (index : PrimaryIndex) :
    index.immediate.nextKey = index.nextKey := rfl

theorem withOwner_committed (index : PrimaryIndex) (key : Key) (row : Row) :
    (index.withOwner key row).committed = row.committed := by
  rw [withOwner]
  split
  · split <;> rfl
  · rfl

/-- A row is read without its owner. -/
theorem row?_immediate (index : PrimaryIndex) (key : Key) :
    index.immediate.row? key = (index.row? key).map Row.committed := by
  have unowned : index.immediate.withOwner key = id := rfl
  rw [row?, row?, unowned, immediate_grid, Option.map_id, Option.map_map]
  cases found : index.grid.row? key with
  | none => rfl
  | some row =>
      have stored : row.committed = row := by
        rw [Grid.row?] at found
        split at found
        · cases found
        · split at found <;>
            · cases found
              rfl
      change some row = some (index.withOwner key row).committed
      rw [withOwner_committed, stored]

/-- Where no change waits for a commit, rows have no owners to be forgotten. -/
theorem row?_immediate_of_settled {index : PrimaryIndex}
    (settled : index.pending.rows = []) (key : Key) :
    index.immediate.row? key = index.row? key := by
  have unchanged : index.pending.row? key = none := by
    rw [PendingChanges.row?, settled]
    rfl
  have unowned : index.withOwner key = id := by
    funext row
    rw [withOwner, unchanged]
    rfl
  rw [row?, row?, unowned]
  rfl

theorem liveRows_immediate_of_settled {index : PrimaryIndex}
    (settled : index.pending.rows = []) :
    index.immediate.liveRows = index.liveRows := by
  have read : index.immediate.row? = index.row? :=
    funext (row?_immediate_of_settled settled)
  have filled : index.immediate.filledRow? = index.filledRow? := by
    funext key
    rw [filledRow?, filledRow?, read]
  rw [liveRows, liveRows, immediate_nextKey, filled]

/-- A walk comes by the same rows without owners. -/
theorem seek_immediate (index : PrimaryIndex) (key : Key) (keys : Nat) :
    index.immediate.seek key keys =
      (index.seek key keys).map Row.committed := by
  induction keys generalizing key with
  | zero => rfl
  | succ keys induction =>
      rw [seek, seek, row?_immediate]
      cases index.row? key with
      | none => rfl
      | some row =>
          have holds : holdsValues row.committed = holdsValues row := rfl
          simp only [Option.map_some, holds, induction]
          split <;> rfl

theorem nextRow?_immediate (index : PrimaryIndex) (behind : Option Row) :
    index.immediate.nextRow? (behind.map Row.committed) =
      (index.nextRow? behind).map Row.committed := by
  have after : keyAfter (behind.map Row.committed) = keyAfter behind := by
    cases behind <;> rfl
  rw [nextRow?, after]
  exact index.seek_immediate _ _

/-- A row is stored under the same key. -/
theorem insert_immediate (index : PrimaryIndex) (session : Session)
    (values : List Value) :
    index.immediate.insert session (Row.ofValues values) =
      ((index.insert session (Row.ofValues values)).1.map Row.committed,
        (index.insert session (Row.ofValues values)).2.immediate) := by
  rw [insert, insert, immediate_grid]
  cases index.grid.append (Row.ofValues values).values with
  | mk outcome grid => cases outcome <;> rfl

theorem remove_immediate (index : PrimaryIndex) (session : Session)
    (row : Row) :
    index.immediate.remove session row.committed =
      ((index.remove session row).1, (index.remove session row).2.immediate) := by
  have key : row.committed.key = row.key := rfl
  rw [remove, remove, immediate_grid, key]
  cases index.grid.remove row.key with
  | mk outcome grid => cases outcome <;> rfl

end PrimaryIndex

/-- Where no change waits for a commit, a search finds the same row. -/
theorem EqualityIndex.find_immediate_of_settled {rows : PrimaryIndex}
    (settled : rows.pending.rows = []) (index : EqualityIndex)
    (session : Session) (first last : Option Row) :
    index.find rows.immediate session first last =
      index.find rows session first last := by
  have read : rows.immediate.row? = rows.row? :=
    funext (PrimaryIndex.row?_immediate_of_settled settled)
  have visible : index.visibleRow? rows.immediate session =
      index.visibleRow? rows session := by
    funext value
    rw [visibleRow?, visibleRow?, read]
  unfold find
  rw [visible]

namespace Table

/-- The table without its uncommitted changes, where none is recorded. -/
def immediate (table : Table) : Table :=
  { table with primary := table.primary.immediate }

@[simp]
theorem immediate_id (table : Table) : table.immediate.id = table.id := rfl

@[simp]
theorem immediate_columns (table : Table) :
    table.immediate.columns = table.columns := rfl

@[simp]
theorem immediate_primary (table : Table) :
    table.immediate.primary = table.primary.immediate := rfl

@[simp]
theorem immediate_columnNamed (table : Table) (name : String) :
    table.immediate.columnNamed name = table.columnNamed name := rfl

@[simp]
theorem immediate_hasIndex (table : Table) (name : String) :
    table.immediate.hasIndex name = table.hasIndex name := rfl

@[simp]
theorem immediate_equalityIndex? (table : Table) (name : String) :
    table.immediate.equalityIndex? name = table.equalityIndex? name := rfl

/-- A reply without the owner of the row that it tells. -/
def Reply.committed : Reply → Reply
  | .row removed => .row removed.committed
  | reply => reply

/-! ## Calls -/

theorem insert_immediate (table : Table) (session : Session)
    (values : List Value) :
    table.immediate.insert session values =
      ((table.insert session values).1,
        (table.insert session values).2.immediate) := by
  by_cases fitting : values.length = table.columns.length
  · rw [insert, insert, if_pos fitting, if_pos (by exact fitting),
      immediate_columns]
    cases convert table.columns values with
    | error error => rfl
    | ok converted =>
        dsimp only
        rw [immediate_primary, PrimaryIndex.insert_immediate]
        cases table.primary.insert session (Row.ofValues converted) with
        | mk outcome primary => cases outcome <;> rfl
  · rw [insert_of_length_ne session fitting,
      insert_of_length_ne session (by exact fitting)]
    rfl

theorem liveRow?_immediate (table : Table) (key : Key) :
    table.immediate.liveRow? key = (table.liveRow? key).map Row.committed := by
  rw [liveRow?, liveRow?, immediate_primary, PrimaryIndex.row?_immediate]
  cases table.primary.row? key with
  | none => rfl
  | some row =>
      have tombstone : row.committed.isTombstone = row.isTombstone := rfl
      simp only [Option.map_some, Option.filter, tombstone]
      split <;> rfl

/-- A row is removed from the same indexes. -/
theorem remove_immediate (table : Table) (session : Session) (key : Key) :
    table.immediate.remove session key =
      ((table.remove session key).1.map Row.committed,
        (table.remove session key).2.immediate) := by
  rw [remove, remove, liveRow?_immediate]
  cases table.liveRow? key with
  | none => rfl
  | some row =>
      have same : EqualityIndex.changeEach (·.remove row.committed)
          table.immediate.secondary =
            EqualityIndex.changeEach (·.remove row) table.secondary := rfl
      simp only [Option.map_some, same, immediate_primary,
        PrimaryIndex.remove_immediate]
      cases EqualityIndex.changeEach (·.remove row) table.secondary with
      | mk outcome secondary =>
          cases outcome with
          | error error => rfl
          | ok done =>
              cases table.primary.remove session row with
              | mk outcome primary => cases outcome <;> rfl

/-- A commit is a matter of the uncommitted changes alone. -/
theorem commit_immediate (table : Table) (session : Session) :
    (table.immediate.commit session).2 =
      (table.commit session).2.immediate := by
  rw [table.commit_snd session]
  rfl

/-- An index is filled with the same keys. -/
theorem fill_immediate (rows : PrimaryIndex) (behind : Option Row) (keys : Nat)
    (index : EqualityIndex) :
    fill rows.immediate (behind.map Row.committed) keys index =
      fill rows behind keys index := by
  induction keys generalizing behind index with
  | zero => rfl
  | succ keys induction =>
      rw [fill, fill, PrimaryIndex.nextRow?_immediate]
      cases rows.nextRow? behind with
      | none => rfl
      | some row =>
          have same : index.insert row.committed = index.insert row := rfl
          simp only [Option.map_some, same]
          cases index.insert row with
          | mk outcome changed =>
              cases outcome with
              | error error => rfl
              | ok done => exact induction (some row) changed

theorem addIndex_immediate (table : Table) (name column : String) :
    table.immediate.addIndex name column =
      ((table.addIndex name column).1,
        (table.addIndex name column).2.immediate) := by
  have filled := fill_immediate table.primary none
  rw [Option.map_none] at filled
  simp only [addIndex, immediate_hasIndex, immediate_columnNamed,
    immediate_columns, immediate_id, immediate_primary,
    PrimaryIndex.immediate_nextKey, filled]
  split
  · rfl
  · cases table.columnNamed column with
    | error error => rfl
    | ok position =>
        dsimp only
        cases table.columns[position]? with
        | none => rfl
        | some definition =>
            dsimp only
            cases fill table.primary none table.primary.nextKey
                (EqualityIndex.empty table.id name position definition.type) with
            | mk outcome changed => cases outcome <;> rfl

theorem dropIndex_immediate (table : Table) (name : String) :
    table.immediate.dropIndex name =
      ((table.dropIndex name).1, (table.dropIndex name).2.immediate) := by
  by_cases primary : name = table.primary.name
  · rw [dropIndex, dropIndex, if_pos primary, if_pos (by exact primary)]
  · rw [dropIndex, dropIndex, if_neg primary, if_neg (by exact primary),
      immediate_equalityIndex?]
    cases table.equalityIndex? name <;> rfl

theorem renameIndex_immediate (table : Table) (name newName : String) :
    table.immediate.renameIndex name newName =
      ((table.renameIndex name newName).1,
        (table.renameIndex name newName).2.immediate) := by
  by_cases primary : name = table.primary.name
  · rw [renameIndex, renameIndex, if_pos primary, if_pos (by exact primary)]
    rfl
  · rw [renameIndex, renameIndex, if_neg primary, if_neg (by exact primary),
      immediate_hasIndex, immediate_equalityIndex?]
    split
    · rfl
    · cases table.equalityIndex? name <;> rfl

/-- The call neither commits changes nor takes them back. -/
def Action.LeavesChanges (action : Action) : Prop :=
  ∀ session, action ≠ .commit session ∧ action ≠ .rollback session

/-- Every other call has the same answer and the same effect. -/
theorem perform_immediate (table : Table) {action : Action}
    (leaves : action.LeavesChanges) :
    table.immediate.perform action =
      ((table.perform action).1.map Reply.committed,
        (table.perform action).2.immediate) := by
  cases action with
  | insert session values =>
      rw [perform, perform, insert_immediate]
      rcases table.insert session values with ⟨_ | _, _⟩ <;> rfl
  | remove session key =>
      rw [perform, perform, remove_immediate]
      rcases table.remove session key with ⟨_ | _, _⟩ <;> rfl
  | commit session => exact absurd rfl (leaves session).1
  | rollback session => exact absurd rfl (leaves session).2
  | addIndex name column =>
      rw [perform, perform, addIndex_immediate]
      rcases table.addIndex name column with ⟨_ | _, _⟩ <;> rfl
  | dropIndex name =>
      rw [perform, perform, dropIndex_immediate]
      rcases table.dropIndex name with ⟨_ | _, _⟩ <;> rfl
  | renameIndex name newName =>
      rw [perform, perform, renameIndex_immediate]
      rcases table.renameIndex name newName with ⟨_ | _, _⟩ <;> rfl
  | truncate | close | discard => rfl

/-- Every call but a rollback has the same effect. -/
theorem after_immediate (table : Table) {action : Action}
    (keeps : ∀ session, action ≠ .rollback session) :
    table.immediate.after action = (table.after action).immediate := by
  by_cases commits : ∃ session, action = .commit session
  -- its answer counts the changes of the session, so only the effect is the same
  · rcases commits with ⟨session, rfl⟩
    exact table.commit_immediate session
  · have leaves : action.LeavesChanges := fun session =>
      ⟨fun same => commits ⟨session, same⟩, keeps session⟩
    rw [after, table.perform_immediate leaves]
    rfl

/-- A run without rollbacks has the same effect. -/
theorem run_immediate {actions : List Action}
    (keeps : ∀ session, .rollback session ∉ actions) (table : Table) :
    table.immediate.run actions = (table.run actions).immediate := by
  induction actions generalizing table with
  | nil => rfl
  | cons action rest induction =>
      have first : ∀ session, action ≠ .rollback session :=
        fun session same => keeps session (same ▸ List.mem_cons_self)
      have others : ∀ session, .rollback session ∉ rest :=
        fun session member => keeps session (List.mem_cons_of_mem _ member)
      rw [run_cons, run_cons, table.after_immediate first, induction others]

/-! ## Reading where no change waits for a commit -/

theorem row_immediate_of_settled {table : Table}
    (settled : table.primary.pending.rows = []) (key : Key) :
    table.immediate.row key = table.row key := by
  rw [row, row, immediate_primary,
    PrimaryIndex.row?_immediate_of_settled settled]

theorem scanned_immediate_of_settled {table : Table}
    (settled : table.primary.pending.rows = []) (session : Session) :
    table.immediate.scanned session = table.scanned session := by
  have stored : table.immediate.scanned session = table.primary.liveRows := by
    rw [← PrimaryIndex.liveRows_immediate_of_settled settled]
    exact Scan.remaining_start_of_immediate rfl session
  rw [stored]
  exact (PrimaryIndex.remaining_start_of_settled settled session).symm

theorem findEqual_immediate_of_settled {table : Table}
    (settled : table.primary.pending.rows = []) (session : Session)
    (column : String) (value : Value) :
    table.immediate.findEqual session column value =
      table.findEqual session column value := by
  have indexOn : table.immediate.indexOn? = table.indexOn? := rfl
  simp only [findEqual, immediate_columnNamed, indexOn, immediate_columns,
    immediate_primary, EqualityIndex.find_immediate_of_settled settled]

/-- With balanced counts and no change that waits, all rows are counted. -/
theorem rowCount_of_settled {table : Table}
    (balanced : table.primary.versioned = true →
      table.primary.pending.Balanced)
    (settled : table.primary.pending.rows = [])
    (countFits : table.primary.rowCount < 2 ^ 63) (session : Session) :
    table.rowCount session = table.storedRowCount := by
  rw [rowCount, PrimaryIndex.visibleRowCount, PendingChanges.rowCount]
  split
  · rename_i recorded
    have own : table.primary.pending.adjustment session = 0 := by
      rw [(balanced recorded).adjustment_eq, PendingChanges.ownedBy, settled]
      rfl
    have all : table.primary.pending.total = 0 := by
      rw [(balanced recorded).total_eq, settled]
      rfl
    rw [own, all, PendingChanges.signedCount_of_lt countFits]
    exact Int.toNat_natCast _
  · rfl

/--
A run without rollbacks leaves the same cells, counts and indexes behind
whether or not changes wait for a commit, and both tables answer the next call
alike, owners of rows aside, unless it is a commit or a rollback.  Where no
change waits any more both tables read the same for every session, and count
the same rows if no session has removed what another one had inserted without
committing.
-/
theorem run_same_in_both_modes (id : TableId) (schema : Schema)
    (config : Config) (actions : List Action)
    (keeps : ∀ session, .rollback session ∉ actions)
    (immediate versioned : Table)
    (atOnce : (create id schema { config with versioned := false }).run
      actions = immediate)
    (waiting : (create id schema { config with versioned := true }).run
      actions = versioned) :
    (immediate.primary.grid = versioned.primary.grid ∧
        immediate.memoryUse = versioned.memoryUse ∧
        immediate.storedRowCount = versioned.storedRowCount ∧
        immediate.secondary = versioned.secondary) ∧
      (∀ action : Action, action.LeavesChanges →
        (immediate.perform action).1 =
          (versioned.perform action).1.map Reply.committed) ∧
      (versioned.primary.pending.rows = [] →
        ∀ session,
          immediate.scanned session = versioned.scanned session ∧
          (∀ key, immediate.row key = versioned.row key) ∧
          (∀ column value,
            immediate.findEqual session column value =
              versioned.findEqual session column value) ∧
          (Obeys SparesInserts
              (create id schema { config with versioned := true }) actions →
            Obeys KeysFit
              (create id schema { config with versioned := true }) actions →
            versioned.primary.rowCount < 2 ^ 63 →
            immediate.rowCount session = versioned.rowCount session)) := by
  let new := create id schema { config with versioned := true }
  have same : immediate = versioned.immediate := by
    rw [← atOnce, ← waiting]
    exact new.run_immediate keeps
  subst same
  refine ⟨⟨rfl, rfl, rfl, rfl⟩, ?_, ?_⟩
  · intro action leaves
    exact congrArg Prod.fst (versioned.perform_immediate leaves)
  · intro settled session
    refine
      ⟨scanned_immediate_of_settled settled session,
        row_immediate_of_settled settled,
        findEqual_immediate_of_settled settled session, ?_⟩
    intro spares limits countFits
    have none : new.primary.pending.Balanced :=
      PendingChanges.Balanced.empty true
    have balanced : versioned.primary.pending.Balanced := by
      rw [← waiting]
      exact (Sound.create id schema _).balanced_run rfl none spares limits
    rw [rowCount_of_settled (fun _ => balanced) settled countFits]
    rfl

/-- Once every change is committed, the one row left is counted in both. -/
theorem run_sample_same_in_both_modes :
    ((create 1 sampleSchema { sampleConfig with versioned := false }).run
        (sampleActions.take 5 ++ [.commit 2])).rowCount 1 = 1 ∧
      ((create 1 sampleSchema { sampleConfig with versioned := true }).run
        (sampleActions.take 5 ++ [.commit 2])).rowCount 1 = 1 := by
  have same :=
    run_same_in_both_modes 1 sampleSchema sampleConfig
      (sampleActions.take 5 ++ [.commit 2])
      (by simp [sampleActions]) _ _ rfl rfl
  have counted :=
    (same.2.2 (by decide +kernel) 1).2.2.2 (by decide +kernel)
      (by decide +kernel) (by decide +kernel)
  have one : ((create 1 sampleSchema
      { sampleConfig with versioned := true }).run
        (sampleActions.take 5 ++ [.commit 2])).rowCount 1 = 1 := by
    decide +kernel
  exact ⟨counted.trans one, one⟩

end Table

end VersionedColumns
