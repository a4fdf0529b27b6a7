import VersionedColumns.Proofs.PendingChanges.Balance
import VersionedColumns.Proofs.Table.Shared
import VersionedColumns.Proofs.Table.Transaction

/-!
# Row counts and scans

The row count of a session comes from three counters, and a scan walks over
cells and changes.  In a shared table with balanced changes both tell the same
number.  Counts stay balanced along every run in which no session removes what
another one has inserted without committing.
-/

namespace VersionedColumns

/-- A sum over a partial map is one over its domain. -/
theorem sum_map_filterMap {Item Image : Type} (items : List Item)
    (pick : Item → Option Image) (weight : Image → Int) :
    ((items.filterMap pick).map weight).sum =
      (items.map fun item => ((pick item).map weight).getD 0).sum := by
  induction items with
  | nil => rfl
  | cons item rest induction =>
      rw [List.filterMap_cons, List.map_cons, List.sum_cons, ← induction]
      cases pick item with
      | none => exact (Int.zero_add _).symm
      | some image => rfl

theorem length_filterMap {Item Image : Type} (items : List Item)
    (pick : Item → Option Image) :
    ((items.filterMap pick).length : Int) =
      (items.map fun item => if (pick item).isSome then 1 else 0).sum := by
  have ones : ((items.filterMap pick).length : Int) =
      ((items.filterMap pick).map fun _ => (1 : Int)).sum := by
    simp
  rw [ones, sum_map_filterMap]
  refine congrArg List.sum (List.map_congr_left ?_)
  intro item _
  cases pick item <;> rfl

theorem length_filter {Item : Type} (items : List Item) (keep : Item → Bool) :
    ((items.filter keep).length : Int) =
      (items.map fun item => if keep item then 1 else 0).sum := by
  rw [← List.filterMap_eq_filter, length_filterMap]
  simp only [Option.isSome_guard]

namespace Standing

/-- By how much the change to a key alters the row count of its owner. -/
def effect : Standing → Int
  | inserted _ _ => 1
  | deleted _ _ => -1
  | absent | committed _ => 0

/-- What a session sees is what is stored, other sessions' changes aside. -/
theorem seen_add_effect {standing : Standing}
    (owned : standing.owner? ≠ some noSession) (session : Session) :
    ((if (standing.seen session).isSome then 1 else 0) + standing.effect : Int) =
      (if standing.stored?.isSome then 1 else 0) +
        if standing.owner? = some session then standing.effect else 0 := by
  cases standing with
  | absent | committed values => rfl
  | inserted owner values =>
      have opened : owner ≠ noSession := fun same => owned (congrArg some same)
      by_cases own : owner = session <;>
        simp [seen, effect, stored?, owner?, opened, own]
  | deleted owner values =>
      by_cases own : owner = session <;>
        simp [seen, effect, stored?, owner?, own]

end Standing

namespace PrimaryIndex

theorem effect_standing (index : PrimaryIndex) (key : Key) :
    (index.standing key).effect =
      ((index.pending.row? key).map Row.effect).getD 0 := by
  cases found : index.pending.row? key with
  | none =>
      rw [standing_of_row?_none found]
      cases index.grid.isLive key <;> rfl
  | some change =>
      rw [standing_of_row?_some found, Option.map_some, Option.getD_some,
        Row.effect]
      cases change.deleted <;> rfl

theorem Coherent.effects_rows {index : PrimaryIndex}
    (coherent : index.Coherent) :
    PendingChanges.effects index.pending.rows =
      ((List.range index.nextKey).map fun key =>
        (index.standing key).effect).sum := by
  simp only [effect_standing]
  rw [PendingChanges.effects,
    coherent.ordered.rows_eq_filterMap fun _ member => coherent.key_lt member,
    sum_map_filterMap]

theorem Coherent.effects_ownedBy {index : PrimaryIndex}
    (coherent : index.Coherent) (session : Session) :
    PendingChanges.effects (index.pending.ownedBy session) =
      ((List.range index.nextKey).map fun key =>
        if (index.standing key).owner? = some session then
          (index.standing key).effect
        else 0).sum := by
  simp only [effect_standing, owner?_standing]
  rw [PendingChanges.effects, PendingChanges.ownedBy,
    coherent.ordered.rows_eq_filterMap fun _ member => coherent.key_lt member,
    List.filter_filterMap, sum_map_filterMap]
  refine congrArg List.sum (List.map_congr_left ?_)
  intro key member
  cases found : index.pending.row? key with
  | none => rfl
  | some change =>
      by_cases own : change.owner = session <;>
        simp [Option.filter, own]

/-- The number of rows that a session sees, from three other numbers. -/
theorem Coherent.length_seenBy {index : PrimaryIndex}
    (coherent : index.Coherent)
    (owned : ∀ key, (index.standing key).owner? ≠ some noSession)
    (session : Session) :
    ((index.seenBy session).length : Int) +
        PendingChanges.effects index.pending.rows =
      index.rowCount +
        PendingChanges.effects (index.pending.ownedBy session) := by
  rw [coherent.rowCount_eq, coherent.effects_rows,
    coherent.effects_ownedBy session, seenBy, length_filterMap, Grid.liveKeys,
    length_filter]
  change _ = ((List.range index.nextKey).map _).sum + _
  rw [← List.sum_map_add, ← List.sum_map_add]
  refine congrArg List.sum (List.map_congr_left ?_)
  intro key member
  have same := Standing.seen_add_effect (owned key) session
  rw [coherent.stored?_standing key] at same
  rw [Option.isSome_map, same]
  cases index.grid.isLive key <;> rfl

end PrimaryIndex

namespace Table

/-! ## Balanced counts along a run -/

theorem Sound.balanced_withRow {table : Table} (sound : table.Sound)
    (versioned : table.primary.versioned = true)
    (balanced : table.primary.pending.Balanced) (session : Session)
    (values : List Value) :
    (table.withRow session values).primary.pending.Balanced := by
  have row := PrimaryIndex.nextRow_eq versioned session values
  have fresh :=
    sound.coherent.row?_eq_none_of_le (Nat.le_refl table.primary.nextKey)
  have recorded : (table.withRow session values).primary.pending =
      table.primary.pending.record session 1
        ⟨table.primary.nextKey, values, false, session⟩ := by
    rw [← row]
    exact PendingChanges.recordInsert_eq _ _ _
  rw [recorded]
  exact balanced.record versioned fresh

theorem Sound.balanced_withoutRow {table : Table} (sound : table.Sound)
    (versioned : table.primary.versioned = true)
    (balanced : table.primary.pending.Balanced) {row : Row}
    (found : table.liveRow? row.key = some row) {session : Session}
    (own : ∀ change ∈ table.primary.pending.row? row.key,
      change.deleted = false → change.owner = session) :
    (table.withoutRow session row).primary.pending.Balanced := by
  have coherent := sound.coherent
  let removed : Row := { row with owner := session, deleted := true }
  have recorded : (table.withoutRow session row).primary.pending =
      table.primary.pending.record session (-1) removed :=
    PendingChanges.recordDelete_eq _ _ _
  rw [recorded]
  cases pending : table.primary.pending.row? row.key with
  | none =>
      have absent : table.primary.pending.row? removed.key = none := pending
      exact balanced.record versioned absent
  | some change =>
      have live := (liveRow?_eq_some found).1
      have insert := (coherent.agrees pending).insert_of_isLive live
      have taken : table.primary.pending.row? removed.key = some change := pending
      have undone := balanced.record_of_row? coherent.ordered versioned taken
      rw [Row.effect, insert, own change pending insert] at undone
      exact undone

theorem Sound.balanced_steps {session : Session} {table later : Table}
    (sound : table.Sound) (versioned : table.primary.versioned = true)
    (balanced : table.primary.pending.Balanced)
    (steps : Steps session table later) :
    later.primary.pending.Balanced := by
  have both :=
    steps.preserve
      (motive := fun later =>
        later.primary.versioned = true ∧ later.primary.pending.Balanced)
      ?_ sound ⟨versioned, balanced⟩
  · exact both.2
  · rintro table later sound ⟨versioned, balanced⟩ step
    refine ⟨step.frame.2.trans versioned, ?_⟩
    have ordered := sound.coherent.ordered
    cases step with
    | stored fits => exact sound.balanced_withRow versioned balanced _ _
    | takenBack found member own =>
        apply sound.balanced_withoutRow versioned balanced found
        intro change pending _
        have same := ordered.row?_key member
        rw [pending] at same
        cases same
        exact own
    | settled member => exact balanced.commit ordered versioned member

/-- A call that spares the inserts of other sessions keeps counts balanced. -/
theorem Sound.balanced_after {table : Table} (sound : table.Sound)
    (versioned : table.primary.versioned = true)
    (balanced : table.primary.pending.Balanced) {action : Action}
    (spares : SparesInserts table action) (limit : KeysFit table action) :
    (table.after action).primary.pending.Balanced := by
  have effect := sound.perform_effect action limit
  generalize (table.perform action).1 = answer at effect
  generalize table.after action = later at effect ⊢
  cases effect with
  | refused error => exact balanced
  | inserted fits => exact sound.balanced_withRow versioned balanced _ _
  | removed found =>
      rename_i owner key row
      have same := (liveRow?_eq_some found).2.1
      subst same
      refine sound.balanced_withoutRow versioned balanced found (spares ?_)
      rw [sound.remove_eq found]
      rfl
  | committed steps | rolledBack steps =>
      exact sound.balanced_steps versioned balanced steps
  | indexAdded inside accepted | indexDropped found | indexRenamed | closed =>
      exact balanced
  | truncated | discarded => exact PendingChanges.Balanced.empty _

/-- Calls that spare the inserts of other sessions keep counts balanced. -/
theorem Sound.balanced_run {table : Table} (sound : table.Sound)
    (versioned : table.primary.versioned = true)
    (balanced : table.primary.pending.Balanced) {actions : List Action}
    (spares : Obeys SparesInserts table actions)
    (limits : Obeys KeysFit table actions) :
    (table.run actions).primary.pending.Balanced := by
  induction actions generalizing table with
  | nil => exact balanced
  | cons action rest induction =>
      exact
        induction (sound.after action limits.1)
          ((sound.after_frame action limits.1).2.trans versioned)
          (sound.balanced_after versioned balanced spares.1 limits.1)
          spares.2 limits.2

/-! ## What a session counts -/

/-- The value of a session's row count before it is cut off below zero. -/
def signedRowCount (table : Table) (session : Session) : Int :=
  PendingChanges.signedCount table.primary.rowCount +
    table.primary.pending.adjustment session - table.primary.pending.total

/-- With balanced counts the signed row count is the length of a scan. -/
theorem Shared.signedRowCount_eq {table : Table} (shared : table.Shared)
    (balanced : table.primary.pending.Balanced) (columns : table.columns ≠ [])
    (keysFit : table.primary.nextKey < 2 ^ 64)
    (countFits : table.primary.rowCount < 2 ^ 63) (session : Session) :
    table.signedRowCount session = (table.scanned session).length := by
  have seen :=
    shared.sound.coherent.length_seenBy shared.owned session
  have scanned :=
    (shared.scanned_perm columns keysFit session).length_eq
  rw [List.length_map] at scanned
  rw [signedRowCount, PendingChanges.signedCount_of_lt countFits,
    balanced.adjustment_eq, balanced.total_eq, scanned]
  omega

theorem Shared.rowCount_eq {table : Table} (shared : table.Shared)
    (session : Session) :
    table.rowCount session = (table.signedRowCount session).toNat := by
  rw [rowCount, PrimaryIndex.visibleRowCount, PendingChanges.rowCount]
  exact if_pos shared.versioned

/-- After its commit or rollback a session has nothing of its own to count. -/
theorem Shared.adjustment_after_end {table : Table} (shared : table.Shared)
    {session : Session} {action : Action}
    (ends : action = .commit session ∨ action = .rollback session)
    (limit : KeysFit table action)
    (balanced : (table.after action).primary.pending.Balanced) :
    (table.after action).primary.pending.adjustment session = 0 := by
  have idle : (table.after action).pendingOf session = [] := by
    rcases ends with rfl | rfl
    · exact shared.sound.pendingOf_commit shared.versioned session
    · exact shared.sound.pendingOf_rollback session limit
  rw [balanced.adjustment_eq]
  exact congrArg PendingChanges.effects idle

/--
In every table that a run from a new one reaches, the row count of a session
is the number of rows that its scan yields.  The adjustment of a session is
the number of its pending inserts less that of its pending deletes, which is
nothing after its commit or rollback, and no row count is cut off below zero.
-/
theorem rowCount_eq_length_scanned (id : TableId) (schema : Schema)
    (config : Config) (versioned : config.versioned = true)
    (columns : schema.columns ≠ []) (actions : List Action)
    (sessions : Obeys BySession (create id schema config) actions)
    (spares : Obeys SparesInserts (create id schema config) actions)
    (limits : Obeys KeysFit (create id schema config) actions)
    (table : Table) (reached : (create id schema config).run actions = table)
    (countFits : table.primary.rowCount < 2 ^ 63) (session : Session) :
    table.rowCount session = (table.scanned session).length ∧
      table.primary.pending.adjustment session =
        table.primary.pending.insertsOf session -
          table.primary.pending.deletesOf session ∧
      0 ≤ table.signedRowCount session ∧
      ∀ earlier,
        actions = earlier ++ [.commit session] ∨
            actions = earlier ++ [.rollback session] →
          table.primary.pending.adjustment session = 0 := by
  have new := Shared.create id schema versioned
  have none : (create id schema config).primary.pending.Balanced :=
    PendingChanges.Balanced.empty _
  have shared := new.run sessions limits
  have balanced := new.sound.balanced_run new.versioned none spares limits
  have kept := new.sound.run_columns limits
  have keysFit := limits.nextKey_lt (Nat.two_pow_pos 64)
  rw [reached] at shared balanced kept keysFit
  have counted :=
    shared.signedRowCount_eq balanced (kept ▸ columns) keysFit countFits session
  refine ⟨?_, balanced.adjustment_eq_sub session, ?_, ?_⟩
  · rw [shared.rowCount_eq, counted, Int.toNat_natCast]
  · rw [counted]
    exact Int.natCast_nonneg _
  · intro earlier ends
    have split : ∃ action, actions = earlier ++ [action] ∧
        (action = .commit session ∨ action = .rollback session) := by
      rcases ends with ended | ended
      · exact ⟨_, ended, Or.inl rfl⟩
      · exact ⟨_, ended, Or.inr rfl⟩
    rcases split with ⟨action, rfl, ended⟩
    have before := new.run sessions.append.1 limits.append.1
    rw [run_append] at reached
    change ((create id schema config).run earlier).after action = table at reached
    rw [← reached] at balanced ⊢
    exact before.adjustment_after_end ended limits.append.2.1 balanced

/-- A session that has rolled back counts the row that it has restored. -/
theorem rowCount_run_sample :
    ((create 1 sampleSchema sampleConfig).run sampleActions).rowCount 2 = 2 ∧
      ((create 1 sampleSchema sampleConfig).run sampleActions).rowCount 1 =
        (((create 1 sampleSchema sampleConfig).run sampleActions).scanned
          1).length := by
  have counted :=
    rowCount_eq_length_scanned 1 sampleSchema sampleConfig rfl
      (List.cons_ne_nil _ _) sampleActions (by decide +kernel)
      (by decide +kernel) (by decide +kernel) _ rfl (by decide +kernel)
  constructor
  · rw [(counted 2).1]
    decide +kernel
  · exact (counted 1).1

end Table

end VersionedColumns
