import VersionedColumns.Proofs.Table.Isolation
import VersionedColumns.Proofs.Table.Origins

/-!
# What a rollback does

A rollback undoes every uncommitted change of its session and nothing else.
The rows that the session had inserted are removed, and those that it had
deleted are stored once more under the next keys, committed and with the values
that they had.  All other keys read as before, no other session sees a
difference, and a second rollback has nothing to do.
-/

namespace VersionedColumns

/-- A rollback takes no row but an insert of its session from sight. -/
theorem Standing.row_undoneFor {session : Session} {standing : Standing}
    (kept : standing.insertedBy session = none) (key : Key) :
    (standing.undoneFor session).row key = standing.row key := by
  cases standing with
  | absent | committed values => rfl
  | inserted owner values =>
      have other : (inserted owner values).owner? ≠ some session := by
        rintro ⟨⟩
        simp [insertedBy] at kept
      rw [undoneFor_of_owner? other]
  | deleted owner values =>
      rw [undoneFor]
      split <;> rfl

namespace Table

variable {table : Table} {session : Session}

/-! ## The changes that are undone -/

/-- The uncommitted deletes of a session, in the order of their keys. -/
def pendingDeletes (table : Table) (session : Session) : List Row :=
  (table.pendingOf session).filter Row.deleted

theorem length_pendingDeletes (table : Table) (session : Session) :
    (table.pendingDeletes session).length =
      table.primary.pending.deletesOf session :=
  (List.countP_eq_length_filter).symm

/-- A session's changes are its inserts and its deletes. -/
theorem length_pendingOf (table : Table) (session : Session) :
    (table.pendingOf session).length =
      table.primary.pending.insertsOf session +
        table.primary.pending.deletesOf session := by
  have split :=
    List.length_eq_countP_add_countP Row.deleted (l := table.pendingOf session)
  simpa [PendingChanges.insertsOf, PendingChanges.deletesOf, pendingOf,
    Nat.add_comm] using split

theorem deletedValues_eq_map (changes : List Row) :
    deletedValues changes = (changes.filter Row.deleted).map Row.values := by
  induction changes with
  | nil => rfl
  | cons change rest induction =>
      rw [deletedValues_cons, List.filter_cons, induction]
      split <;> rfl

theorem Sound.map_values_pendingDeletes (sound : table.Sound)
    (session : Session) :
    (table.pendingDeletes session).map Row.values =
      table.primary.deletedBy session := by
  rw [← sound.deletedValues_pendingOf, deletedValues_eq_map, pendingDeletes]

/-! ## Rows after a rollback -/

theorem Sound.rolledBack (sound : table.Sound)
    (limit : (table.rollback session).2.primary.nextKey < 2 ^ 64) :
    (table.rolledBack session).Sound := by
  have later := sound.rollback session limit
  rw [sound.rollback_eq session limit] at later
  exact later

/-- A key that the session has not inserted does not stand for its insert. -/
theorem insertedBy_eq_none {key : Key}
    (notInserted : ∀ change ∈ table.pendingOf session,
      change.deleted = false → change.key ≠ key) :
    (table.primary.standing key).insertedBy session = none := by
  cases stands : table.primary.standing key with
  | absent | committed values | deleted owner values => rfl
  | inserted owner values =>
      rcases PrimaryIndex.row?_of_standing_inserted stands with
        ⟨change, found, mark, rfl⟩
      rcases PendingChanges.mem_rows_of_row? found with ⟨member, same⟩
      refine if_neg fun own => ?_
      have mine : change ∈ table.pendingOf session :=
        List.mem_filter.2 ⟨member, beq_iff_eq.2 own⟩
      exact notInserted change mine mark same

theorem Sound.nextKey_rolledBack (sound : table.Sound) (session : Session) :
    (table.rolledBack session).primary.nextKey =
      table.primary.nextKey + table.primary.pending.deletesOf session := by
  rw [rolledBack_nextKey, sound.deletedValues_pendingOf,
    ← sound.map_values_pendingDeletes, List.length_map, length_pendingDeletes]

/-- The keys fit after a rollback, and so they did before. -/
theorem Sound.keysFit_rolledBack (sound : table.Sound)
    (limit : (table.rollback session).2.primary.nextKey < 2 ^ 64) :
    table.primary.nextKey < 2 ^ 64 ∧
      (table.rolledBack session).primary.nextKey < 2 ^ 64 := by
  rw [sound.rollback_eq session limit] at limit
  refine ⟨Nat.lt_of_le_of_lt ?_ limit, limit⟩
  rw [sound.nextKey_rolledBack]
  exact Nat.le_add_right _ _

/-- A key that was there before reads as undone for the session. -/
theorem Sound.row_rolledBack (sound : table.Sound)
    (limit : (table.rollback session).2.primary.nextKey < 2 ^ 64) {key : Key}
    (inside : key < table.primary.nextKey) :
    (table.rolledBack session).row key =
      .ok (((table.primary.standing key).undoneFor session).row key) := by
  have room := (sound.keysFit_rolledBack limit).2
  have stillInside : key < (table.rolledBack session).primary.nextKey := by
    rw [sound.nextKey_rolledBack]
    exact Nat.lt_add_right _ inside
  rw [(sound.rolledBack limit).row_eq room stillInside,
    sound.standing_rolledBack session limit, if_pos inside]

/-- What the session had inserted is gone. -/
theorem Sound.row_rolledBack_of_mem (sound : table.Sound)
    (limit : (table.rollback session).2.primary.nextKey < 2 ^ 64) {change : Row}
    (member : change ∈ table.pendingOf session) :
    (table.rolledBack session).row change.key = .ok Row.tombstone := by
  have inside := sound.coherent.key_lt (List.mem_of_mem_filter member)
  have owned := sound.mem_keys_pendingOf.1 (List.mem_map_of_mem member)
  rw [sound.row_rolledBack limit inside, Standing.undoneFor, if_pos owned]
  rfl

/-- What the session had deleted is stored again behind all rows. -/
theorem Sound.row_rolledBack_of_delete (sound : table.Sound)
    (limit : (table.rollback session).2.primary.nextKey < 2 ^ 64)
    {position : Nat} {change : Row}
    (deleted : (table.pendingDeletes session)[position]? = some change) :
    (table.rolledBack session).row (table.primary.nextKey + position) =
      .ok (Row.stored (table.primary.nextKey + position) change.values) := by
  have room := (sound.keysFit_rolledBack limit).2
  have inside : table.primary.nextKey + position <
      (table.rolledBack session).primary.nextKey := by
    have within := (List.getElem?_eq_some_iff.1 deleted).1
    rw [length_pendingDeletes] at within
    rw [sound.nextKey_rolledBack]
    exact Nat.add_lt_add_left within _
  have values : (table.primary.deletedBy session)[position]? =
      some change.values := by
    rw [← sound.map_values_pendingDeletes, List.getElem?_map, deleted]
    rfl
  rw [(sound.rolledBack limit).row_eq room inside,
    sound.standing_rolledBack session limit,
    if_neg (Nat.not_lt.2 (Nat.le_add_right _ _)), Nat.add_sub_cancel_left,
    values]
  rfl

/-- Any other key reads as before. -/
theorem Sound.row_rolledBack_of_other (sound : table.Sound)
    (limit : (table.rollback session).2.primary.nextKey < 2 ^ 64) {key : Key}
    (notInserted : ∀ change ∈ table.pendingOf session,
      change.deleted = false → change.key ≠ key)
    (notRestored : key < table.primary.nextKey ∨
      table.primary.nextKey + table.primary.pending.deletesOf session ≤ key) :
    (table.rolledBack session).row key = table.row key := by
  rcases notRestored with inside | outside
  · have room := (sound.keysFit_rolledBack limit).1
    rw [sound.row_rolledBack limit inside, sound.row_eq room inside,
      Standing.row_undoneFor (insertedBy_eq_none notInserted)]
  · have behind : table.primary.nextKey ≤ key :=
      Nat.le_trans (Nat.le_add_right _ _) outside
    rw [row_of_le behind]
    apply row_of_le
    rw [sound.nextKey_rolledBack]
    exact outside

/-! ## Counts after a rollback -/

/-- To undo a change takes its effect on the row count back. -/
theorem Sound.rowCount_undone (sound : table.Sound) (session : Session)
    {change : Row} (member : change ∈ table.primary.pending.rows)
    (limit : table.primary.nextKey < 2 ^ 64) :
    ((table.undone session change).primary.rowCount : Int) + change.effect =
      table.primary.rowCount := by
  rw [undone, Row.effect]
  split
  · change ((table.primary.rowCount + 1 : Nat) : Int) + -1 = _
    push_cast
    exact Int.add_neg_cancel_right _ _
  · rename_i mark
    have insert : change.deleted = false := by simpa using mark
    have positive :=
      sound.rowCount_pos (sound.liveRow?_of_pending limit member insert)
    change ((table.primary.rowCount - 1 : Nat) : Int) + 1 = _
    rw [Nat.cast_sub positive]
    push_cast
    exact Int.sub_add_cancel _ _

theorem Sound.rowCount_rolledBack (sound : table.Sound)
    (limit : (table.rollback session).2.primary.nextKey < 2 ^ 64) :
    ((table.rolledBack session).primary.rowCount : Int) +
        PendingChanges.effects (table.pendingOf session) =
      table.primary.rowCount := by
  refine
    Sound.undoing
      (motive := fun changes table =>
        ((changes.foldl (fun table change => table.undone session change)
            table).primary.rowCount : Int) + PendingChanges.effects changes =
          table.primary.rowCount)
      ?_ ?_ sound rfl limit
  · intro table _ _
    exact Int.add_zero _
  · intro table change rest sound member own limit _ later
    have once := sound.rowCount_undone session member limit
    rw [List.foldl_cons, PendingChanges.effects_cons, ← once, ← later]
    abel

/-! ## Everything that a rollback does -/

/-- What a rollback of a session makes of a table. -/
structure RollsBackTo (table : Table) (session : Session) (later : Table) :
    Prop where
  /-- Exactly the changes of the other sessions are left. -/
  changes : later.primary.pending.rows =
    table.primary.pending.rows.filter fun change => change.owner != session
  /-- What the session had inserted is removed. -/
  inserted : ∀ change ∈ table.pendingOf session, change.deleted = false →
    later.row change.key = .ok Row.tombstone
  /-- What it had deleted is committed under the next keys, in its order. -/
  deleted : ∀ position change,
    (table.pendingDeletes session)[position]? = some change →
      later.row (table.primary.nextKey + position) =
        .ok (Row.stored (table.primary.nextKey + position) change.values)
  nextKey : later.primary.nextKey =
    table.primary.nextKey + table.primary.pending.deletesOf session
  /-- Any other key reads as before. -/
  elsewhere : ∀ key,
    (∀ change ∈ table.pendingOf session,
      change.deleted = false → change.key ≠ key) →
    key < table.primary.nextKey ∨ later.primary.nextKey ≤ key →
      later.row key = table.row key
  /-- Other sessions see and count what they did before. -/
  others : ∀ other, other ≠ session →
    (later.scannedValues other).Perm (table.scannedValues other) ∧
      later.rowCount other = table.rowCount other
  storedRowCount : (later.storedRowCount : Int) - table.storedRowCount =
    table.primary.pending.deletesOf session -
      table.primary.pending.insertsOf session

/-- Another session sees and counts after a rollback what it did before. -/
theorem Shared.view_rolledBack (shared : table.Shared)
    (columns : table.columns ≠ []) (opened : session ≠ noSession)
    (limit : KeysFit table (.rollback session))
    (countFits : table.primary.rowCount < 2 ^ 63)
    (countStillFits : (table.rolledBack session).primary.rowCount < 2 ^ 63)
    {other : Session} (differs : other ≠ session) :
    ((table.rolledBack session).scannedValues other).Perm
        (table.scannedValues other) ∧
      (table.rolledBack session).rowCount other = table.rowCount other := by
  have sound := shared.sound
  have same : table.after (.rollback session) = table.rolledBack session := by
    rw [Table.after, perform, sound.rollback_eq session limit]
  have later : (table.rolledBack session).Shared := by
    rw [← same]
    exact shared.after (fun none => opened (Option.some.inj none)) limit
  have named : (table.rolledBack session).columns ≠ [] := by
    rw [← same, (sound.after_frame (.rollback session) limit).1]
    exact columns
  have room := sound.keysFit_rolledBack limit
  have seen := shared.scannedValues_perm columns room.1 other
  have seenLater := later.scannedValues_perm named room.2 other
  have view := shared.valuesSeenBy_rolledBack limit opened differs.symm
  have counted := shared.ownRowCount_rolledBack limit opened differs.symm
  refine ⟨seenLater.trans (view.trans seen.symm), ?_⟩
  rw [later.rowCount_eq, shared.rowCount_eq,
    signedRowCount_eq_ownRowCount countStillFits,
    signedRowCount_eq_ownRowCount countFits, counted]

theorem Shared.rollsBackTo (shared : table.Shared)
    (columns : table.columns ≠ []) (opened : session ≠ noSession)
    (limit : KeysFit table (.rollback session))
    (countFits : table.primary.rowCount < 2 ^ 63)
    (countStillFits : (table.rolledBack session).primary.rowCount < 2 ^ 63) :
    table.RollsBackTo session (table.rolledBack session) where
  changes := shared.sound.rows_rolledBack session limit
  inserted := fun _ member _ => shared.sound.row_rolledBack_of_mem limit member
  deleted := fun _ _ deleted =>
    shared.sound.row_rolledBack_of_delete limit deleted
  nextKey := shared.sound.nextKey_rolledBack session
  elsewhere := by
    intro key notInserted notRestored
    rw [shared.sound.nextKey_rolledBack] at notRestored
    exact
      shared.sound.row_rolledBack_of_other limit notInserted notRestored
  others := fun _ differs =>
    shared.view_rolledBack columns opened limit countFits countStillFits differs
  storedRowCount := by
    have counted := shared.sound.rowCount_rolledBack limit
    rw [PendingChanges.effects_eq, pendingOf] at counted
    rw [storedRowCount, storedRowCount, PendingChanges.insertsOf,
      PendingChanges.deletesOf]
    omega

/--
In every table with changes that wait for a commit which a run from a new one
reaches, a rollback of a session succeeds, tells the number of its changes and
does what it should.  The deletes that it takes back come in the order of their
keys, and each has the values that were read before a call of the session
deleted the row.  A second rollback leaves the table as it is.
-/
theorem rollback_effect_of_run (id : TableId) (schema : Schema)
    (config : Config) (versioned : config.versioned = true)
    (columns : schema.columns ≠ []) (actions : List Action)
    (sessions : Obeys BySession (create id schema config) actions)
    (limits : Obeys KeysFit (create id schema config) actions)
    (table : Table) (reached : (create id schema config).run actions = table)
    (session : Session) (opened : session ≠ noSession)
    (limit : KeysFit table (.rollback session))
    (countFits : table.primary.rowCount < 2 ^ 63) (later : Table)
    (rolledBack : (table.rollback session).2 = later)
    (countStillFits : later.primary.rowCount < 2 ^ 63) :
    (table.rollback session).1 =
        .ok (table.primary.pending.insertsOf session +
          table.primary.pending.deletesOf session) ∧
      table.RollsBackTo session later ∧
      (table.pendingDeletes session).Pairwise
        (fun first second => first.key < second.key) ∧
      (∀ change ∈ table.pendingDeletes session,
        change.owner = session ∧
          (create id schema config).DeletedDuring actions change) ∧
      later.rollback session = (.ok 0, later) := by
  have new := Shared.create id schema versioned
  have shared := new.run sessions limits
  have kept := new.sound.run_columns limits
  rw [reached] at shared kept
  have done := shared.sound.rollback_eq session limit
  have idle := shared.sound.pendingOf_rollback session limit
  rw [rolledBack] at idle
  rw [done] at rolledBack ⊢
  cases rolledBack
  refine ⟨?_, ?_, ?_, ?_, rollback_of_pendingOf_nil idle⟩
  · rw [length_pendingOf]
  · exact shared.rollsBackTo (kept ▸ columns) opened limit countFits countStillFits
  · exact
      List.Pairwise.filter _ (List.Pairwise.filter _ shared.sound.coherent.ordered)
  · intro change member
    rcases List.mem_filter.1 member with ⟨pending, deleted⟩
    rcases List.mem_filter.1 pending with ⟨waiting, own⟩
    rw [← reached] at waiting
    exact
      ⟨beq_iff_eq.1 own, new.sound.deletedDuring rfl limits waiting deleted⟩

/-- The second session undoes its insert and stores the row it had deleted. -/
theorem rollback_effect_of_sample_run :
    (((create 1 sampleSchema sampleConfig).run
        (sampleActions.take 5)).rollback 2).1 = .ok 2 ∧
      (((create 1 sampleSchema sampleConfig).run
        (sampleActions.take 5)).rollback 2).2.row 1 = .ok Row.tombstone ∧
      (((create 1 sampleSchema sampleConfig).run
        (sampleActions.take 5)).rollback 2).2.row 2 =
          .ok (Row.stored 2 [.int 7]) := by
  rcases rollback_effect_of_run 1 sampleSchema sampleConfig rfl
      (List.cons_ne_nil _ _) (sampleActions.take 5) (by decide +kernel)
      (by decide +kernel) _ rfl 2 (by decide) (by decide +kernel)
      (by decide +kernel) _ rfl (by decide +kernel) with
    ⟨counted, effect, -, -, -⟩
  have changes : ((create 1 sampleSchema sampleConfig).run
      (sampleActions.take 5)).primary.pending.insertsOf 2 +
        ((create 1 sampleSchema sampleConfig).run
          (sampleActions.take 5)).primary.pending.deletesOf 2 = 2 := by
    decide +kernel
  have removed :=
    effect.inserted ⟨1, [.int 8], false, 2⟩ (by decide +kernel) rfl
  have restored :=
    effect.deleted 0 ⟨0, [.int 7], true, 2⟩ (by decide +kernel)
  have next : ((create 1 sampleSchema sampleConfig).run
      (sampleActions.take 5)).primary.nextKey + 0 = 2 := by
    decide +kernel
  rw [changes] at counted
  rw [next] at restored
  exact ⟨counted, removed, restored⟩

end Table

end VersionedColumns
