import VersionedColumns.Proofs.Snapshots
import VersionedColumns.Proofs.Table.Shared
import VersionedColumns.Proofs.Table.Transaction

/-!
# Tables refine snapshots

The standings of the keys of a table in which changes wait for a commit are
snapshots of it.  Every call has the effect and the answer on a table that it
has on these snapshots, as long as no session removes what another one has
inserted without committing.

The main statement follows by induction over a run from a new table: all
answers are those of the snapshots, and a scan of any session yields exactly
the rows that the session sees there.
-/

namespace VersionedColumns

namespace Standing

/-- The committed values under a key, those that wait to be deleted included. -/
def committed? : Standing → Option (List Value)
  | committed values | deleted _ values => some values
  | absent | inserted _ _ => none

/-- The session that has deleted a key without committing. -/
def deleter? : Standing → Option Session
  | deleted owner _ => some owner
  | absent | committed _ | inserted _ _ => none

theorem committed?_settledFor (session : Session) (standing : Standing) :
    (standing.settledFor session).committed? =
      if standing.deleter? = some session then none
      else (standing.insertedBy session).or standing.committed? := by
  cases standing with
  | absent | committed values => rfl
  | inserted owner values | deleted owner values =>
      by_cases own : owner = session <;>
        simp [settledFor, owner?, settled, committed?, insertedBy, deleter?, own]

theorem insertedBy_settledFor (session other : Session) (standing : Standing) :
    (standing.settledFor session).insertedBy other =
      if other = session then none else standing.insertedBy other := by
  cases standing with
  | absent | committed values => simp [settledFor, owner?, insertedBy]
  | deleted owner values =>
      by_cases own : owner = session <;>
        simp [settledFor, owner?, settled, insertedBy, own]
  | inserted owner values =>
      by_cases own : owner = session
      · by_cases same : other = session <;>
          simp [settledFor, owner?, settled, insertedBy, own, same, Ne.symm]
      · by_cases same : other = session <;>
          simp [settledFor, owner?, insertedBy, own, same]

theorem deleter?_settledFor (session other : Session) (standing : Standing) :
    (standing.settledFor session).deleter? = some other ↔
      standing.deleter? = some other ∧ other ≠ session := by
  cases standing with
  | absent | committed values => simp [settledFor, owner?, deleter?]
  | inserted owner values =>
      by_cases own : owner = session <;>
        simp [settledFor, owner?, settled, deleter?, own]
  | deleted owner values =>
      by_cases own : owner = session
      · simp [settledFor, owner?, settled, deleter?, own, eq_comm]
      · have elsewhere : owner = other → other ≠ session :=
          fun same back => own (same.trans back)
        simpa [settledFor, owner?, deleter?, own] using elsewhere

theorem committed?_undoneFor (session : Session) (standing : Standing) :
    (standing.undoneFor session).committed? =
      if standing.deleter? = some session then none
      else standing.committed? := by
  cases standing with
  | absent | committed values => rfl
  | inserted owner values | deleted owner values =>
      by_cases own : owner = session <;>
        simp [undoneFor, owner?, committed?, deleter?, own]

theorem insertedBy_undoneFor (session other : Session) (standing : Standing) :
    (standing.undoneFor session).insertedBy other =
      if other = session then none else standing.insertedBy other := by
  cases standing with
  | absent | committed values => simp [undoneFor, owner?, insertedBy]
  | inserted owner values | deleted owner values =>
      by_cases own : owner = session
      · by_cases same : other = session <;>
          simp [undoneFor, owner?, insertedBy, own, same, Ne.symm]
      · by_cases same : other = session <;>
          simp [undoneFor, owner?, insertedBy, own, same]

theorem deleter?_undoneFor (session other : Session) (standing : Standing) :
    (standing.undoneFor session).deleter? = some other ↔
      standing.deleter? = some other ∧ other ≠ session := by
  cases standing with
  | absent | committed values => simp [undoneFor, owner?, deleter?]
  | inserted owner values =>
      by_cases own : owner = session <;>
        simp [undoneFor, owner?, deleter?, own]
  | deleted owner values =>
      by_cases own : owner = session
      · simp [undoneFor, owner?, deleter?, own, eq_comm]
      · have elsewhere : owner = other → other ≠ session :=
          fun same back => own (same.trans back)
        simpa [undoneFor, owner?, deleter?, own] using elsewhere

end Standing

namespace Table

/-- The snapshots that a table stands for. -/
def snapshots (table : Table) : Snapshots where
  next := table.primary.nextKey
  committed key := (table.primary.standing key).committed?
  inserts session key := (table.primary.standing key).insertedBy session
  deletes :=
    ((List.range table.primary.nextKey).filterMap fun key =>
      ((table.primary.standing key).deleter?).map (·, key)).toFinset

theorem Sound.mem_deletes {table : Table} (sound : table.Sound)
    {session : Session} {key : Key} :
    (session, key) ∈ table.snapshots.deletes ↔
      (table.primary.standing key).deleter? = some session := by
  simp only [snapshots, List.mem_toFinset, List.mem_filterMap, List.mem_range,
    Option.map_eq_some_iff]
  constructor
  · rintro ⟨held, inside, owner, deleter, same⟩
    cases same
    exact deleter
  · intro deleter
    refine ⟨key, ?_, session, deleter, rfl⟩
    apply sound.coherent.lt_nextKey_of_standing
    intro absent
    rw [absent] at deleter
    cases deleter

/-- A table has the snapshots that every standing agrees with. -/
theorem Sound.snapshots_eq {table : Table} (sound : table.Sound)
    {store : Snapshots} (next : table.primary.nextKey = store.next)
    (committed : ∀ key,
      (table.primary.standing key).committed? = store.committed key)
    (inserts : ∀ session key,
      (table.primary.standing key).insertedBy session =
        store.inserts session key)
    (deletes : ∀ session key,
      (table.primary.standing key).deleter? = some session ↔
        (session, key) ∈ store.deletes) :
    table.snapshots = store := by
  apply Snapshots.ext
  · exact next
  · funext key
    exact committed key
  · funext session key
    exact inserts session key
  · ext ⟨session, key⟩
    rw [sound.mem_deletes]
    exact deletes session key

/-! ## Rows in snapshots -/

theorem Sound.snapshots_withRow {table : Table} (sound : table.Sound)
    (versioned : table.primary.versioned = true) {values : List Value}
    (fits : Fits table.columns values) (session : Session) :
    (table.withRow session values).snapshots =
      table.snapshots.insert session values := by
  have stored := sound.standing_withRow versioned fits session
  have fresh := sound.coherent.standing_of_le (Nat.le_refl table.primary.nextKey)
  apply (sound.withRow fits session).snapshots_eq
  · rfl
  · intro key
    rw [stored]
    split
    · rename_i last
      change _ = (table.primary.standing key).committed?
      rw [last, fresh]
      rfl
    · rfl
  · intro other key
    change _ = if other = session ∧ key = table.primary.nextKey then _ else _
    rw [stored]
    by_cases last : key = table.primary.nextKey
    · by_cases own : session = other
      · simp [last, own, Standing.insertedBy]
      · simp [last, own, Ne.symm own, Standing.insertedBy, snapshots, fresh]
    · simp [last, snapshots]
  · intro other key
    change _ ↔ (other, key) ∈ table.snapshots.deletes
    rw [stored, sound.mem_deletes]
    split
    · rename_i last
      rw [last, fresh]
      simp [Standing.deleter?]
    · rfl

theorem Sound.snapshots_takeBack {table : Table} (sound : table.Sound)
    (versioned : table.primary.versioned = true) {row : Row}
    (found : table.liveRow? row.key = some row) {session : Session}
    {values : List Value}
    (stands : table.primary.standing row.key = .inserted session values) :
    (table.withoutRow session row).snapshots =
      table.snapshots.takeBack session row.key := by
  have removed := sound.standing_withoutRow versioned found session
  apply (sound.withoutRow found session).snapshots_eq
  · rfl
  · intro key
    change _ = (table.primary.standing key).committed?
    rw [removed]
    split
    · rename_i same
      rw [same, stands]
      rfl
    · rfl
  · intro other key
    change _ = if other = session ∧ key = row.key then none
      else (table.primary.standing key).insertedBy other
    rw [removed]
    by_cases same : key = row.key
    · by_cases own : session = other
      · simp [same, own, stands, Standing.removedBy, Standing.insertedBy]
      · simp [same, own, Ne.symm own, stands, Standing.removedBy,
          Standing.insertedBy]
    · simp [same]
  · intro other key
    change _ ↔ (other, key) ∈ table.snapshots.deletes
    rw [removed, sound.mem_deletes]
    split
    · rename_i same
      rw [same, stands]
      simp [Standing.removedBy, Standing.deleter?]
    · rfl

theorem Sound.snapshots_delete {table : Table} (sound : table.Sound)
    (versioned : table.primary.versioned = true) {row : Row}
    (found : table.liveRow? row.key = some row) {values : List Value}
    (stands : table.primary.standing row.key = .committed values)
    (session : Session) :
    (table.withoutRow session row).snapshots =
      table.snapshots.delete session row.key := by
  have removed := sound.standing_withoutRow versioned found session
  apply (sound.withoutRow found session).snapshots_eq
  · rfl
  · intro key
    change _ = (table.primary.standing key).committed?
    rw [removed]
    split
    · rename_i same
      rw [same, stands]
      rfl
    · rfl
  · intro other key
    change _ = (table.primary.standing key).insertedBy other
    rw [removed]
    split
    · rename_i same
      rw [same, stands]
      rfl
    · rfl
  · intro other key
    change _ ↔ (other, key) ∈ Insert.insert (session, row.key)
      table.snapshots.deletes
    rw [removed, Finset.mem_insert, sound.mem_deletes, Prod.mk.injEq]
    by_cases same : key = row.key
    · simp [same, stands, Standing.removedBy, Standing.deleter?, eq_comm]
    · simp [same]

/-! ## Transactions in snapshots -/

theorem Sound.snapshots_commit {table : Table} (sound : table.Sound)
    (versioned : table.primary.versioned = true) (session : Session) :
    (table.commit session).2.snapshots = table.snapshots.commit session := by
  have settled := sound.standing_commit versioned session
  apply (sound.commit session).snapshots_eq
  · exact table.commit_nextKey session
  · intro key
    rw [settled, Standing.committed?_settledFor]
    exact if_congr sound.mem_deletes.symm rfl rfl
  · intro other key
    rw [settled, Standing.insertedBy_settledFor]
    rfl
  · intro other key
    change _ ↔ (other, key) ∈ table.snapshots.deletes.filter _
    rw [settled, Standing.deleter?_settledFor, Finset.mem_filter,
      sound.mem_deletes]

/-- The rows that a session has deleted are the same in the snapshots. -/
theorem Sound.deletedRows_snapshots {table : Table} (sound : table.Sound)
    (session : Session) :
    table.snapshots.deletedRows session = table.primary.deletedBy session := by
  apply List.filterMap_congr
  intro key member
  refine (if_congr sound.mem_deletes rfl rfl).trans ?_
  change (if _ then (table.primary.standing key).committed? else none) = _
  cases table.primary.standing key with
  | absent | committed values | inserted owner values => rfl
  | deleted owner values =>
      simp [Standing.deleter?, Standing.committed?, Standing.deletedBy]

theorem Sound.snapshots_rollback {table : Table} (sound : table.Sound)
    (session : Session)
    (limit : (table.rollback session).2.primary.nextKey < 2 ^ 64) :
    (table.rollback session).2.snapshots =
      table.snapshots.rollback session := by
  have later := sound.rollback session limit
  have stands := sound.standing_rolledBack session limit
  have next := table.rolledBack_nextKey session
  rw [sound.deletedValues_pendingOf, ← sound.deletedRows_snapshots] at next
  simp only [← sound.deletedRows_snapshots] at stands
  rw [sound.rollback_eq session limit] at later ⊢
  apply later.snapshots_eq
  · exact next
  · intro key
    change _ = if key < table.primary.nextKey then _ else _
    rw [stands]
    split
    · rw [Standing.committed?_undoneFor]
      exact if_congr sound.mem_deletes.symm rfl rfl
    · change _ =
        (table.snapshots.deletedRows session)[key - table.primary.nextKey]?
      cases (table.snapshots.deletedRows session)[key - table.primary.nextKey]? <;>
        rfl
  · intro other key
    change _ = if other = session then none
      else (table.primary.standing key).insertedBy other
    rw [stands]
    split
    · exact Standing.insertedBy_undoneFor session other _
    · rename_i outside
      rw [sound.coherent.standing_of_le (Nat.le_of_not_lt outside)]
      cases (table.snapshots.deletedRows session)[key - table.primary.nextKey]? <;>
        simp [Standing.insertedBy]
  · intro other key
    change _ ↔ (other, key) ∈ table.snapshots.deletes.filter _
    rw [stands, Finset.mem_filter, sound.mem_deletes]
    split
    · exact Standing.deleter?_undoneFor session other _
    · rename_i outside
      rw [sound.coherent.standing_of_le (Nat.le_of_not_lt outside)]
      cases (table.snapshots.deletedRows session)[key - table.primary.nextKey]? <;>
        simp [Standing.deleter?]

theorem Sound.pendingCount_snapshots {table : Table} (sound : table.Sound)
    (session : Session) :
    table.snapshots.pendingCount session =
      (table.pendingOf session).length := by
  have keys := congrArg List.length (sound.keys_pendingOf session)
  rw [List.length_map] at keys
  rw [keys]
  refine congrArg List.length (List.filter_congr ?_)
  intro key member
  have deletes : decide ((session, key) ∈ table.snapshots.deletes) =
      decide ((table.primary.standing key).deleter? = some session) :=
    decide_eq_decide.2 sound.mem_deletes
  rw [deletes]
  change (((table.primary.standing key).insertedBy session).isSome || _) = _
  cases table.primary.standing key with
  | absent | committed values => rfl
  | inserted owner values | deleted owner values =>
      by_cases own : owner = session <;>
        simp [Standing.insertedBy, Standing.deleter?, Standing.owner?, own]

/-! ## Calls in snapshots -/

/-- A call has the effect and the answer that it has on the snapshots. -/
def Refines (table : Table) (action : Action) : Prop :=
  (table.after action).snapshots =
      (table.snapshots.perform table.columns action).2 ∧
    ∀ answer ∈ (table.snapshots.perform table.columns action).1,
      (table.perform action).1 = answer

theorem Shared.insert_refines {table : Table} (shared : table.Shared)
    (session : Session) (values : List Value) :
    table.Refines (.insert session values) := by
  rw [Refines, Table.after, Table.perform, Snapshots.perform]
  by_cases fitting : values.length = table.columns.length
  · rw [if_pos fitting]
    cases converts : convert table.columns values with
    | error error =>
        have refused : table.insert session values = (.error error, table) := by
          rw [insert, if_pos fitting, converts]
        rw [refused]
        constructor
        · rfl
        · rintro _ ⟨⟩
          rfl
    | ok converted =>
        rw [shared.sound.insert_eq fitting converts session]
        constructor
        · exact
            shared.sound.snapshots_withRow shared.versioned
              (fits_of_convert fitting converts) session
        · rintro _ ⟨⟩
          rfl
  · rw [insert_of_length_ne session fitting, if_neg fitting]
    constructor
    · rfl
    · rintro _ ⟨⟩
      rfl

theorem Shared.remove_refines {table : Table} (shared : table.Shared)
    {session : Session} {key : Key}
    (spares : SparesInserts table (.remove session key))
    (limit : KeysFit table (.remove session key)) :
    table.Refines (.remove session key) := by
  have sound := shared.sound
  have room : table.primary.nextKey < 2 ^ 64 :=
    (table.remove_nextKey session key).symm.trans_lt limit
  have found := sound.liveRow?_eq room key
  have inserts : table.snapshots.inserts session key =
      (table.primary.standing key).insertedBy session := rfl
  have committed : table.snapshots.committed key =
      (table.primary.standing key).committed? := rfl
  rw [Refines, Table.after, Table.perform, Snapshots.perform, Snapshots.remove, inserts,
    committed]
  cases stands : table.primary.standing key with
  | absent =>
      rw [stands] at found
      have refused : table.remove session key =
          (.error (.nothingToRemove key table.primary.nextKey), table) := by
        rw [remove, found]
        rfl
      rw [refused]
      constructor
      · rfl
      · rintro _ ⟨⟩
        rfl
  | committed values =>
      rw [stands] at found
      have kept : table.snapshots.isDeleted key = false := by
        simp [Snapshots.isDeleted, sound.mem_deletes, stands, Standing.deleter?]
      rw [sound.remove_eq found]
      simp only [Standing.insertedBy, Standing.committed?, kept]
      let row := Row.stored key values
      have read : table.liveRow? row.key = some row := found
      constructor
      · exact sound.snapshots_delete shared.versioned read stands session
      · rintro _ ⟨⟩
        rfl
  | inserted owner values =>
      rw [stands] at found
      have succeeds : (table.remove session key).1.isOk = true := by
        rw [sound.remove_eq found]
        rfl
      rcases PrimaryIndex.row?_of_standing_inserted stands with
        ⟨change, pending, mark, rfl⟩
      have own : change.owner = session := spares succeeds change pending mark
      rw [own] at stands found ⊢
      rw [sound.remove_eq found]
      simp only [Standing.insertedBy, if_true]
      let row : Row := ⟨key, values, false, session⟩
      have read : table.liveRow? row.key = some row := found
      constructor
      · exact sound.snapshots_takeBack shared.versioned read stands
      · rintro _ ⟨⟩
        rfl
  | deleted owner values =>
      rw [stands] at found
      have gone : table.snapshots.isDeleted key = true := by
        simp only [Snapshots.isDeleted, decide_eq_true_eq, Finset.mem_image]
        exact ⟨(owner, key), sound.mem_deletes.2 (by rw [stands]; rfl), rfl⟩
      have refused : table.remove session key =
          (.error (.nothingToRemove key table.primary.nextKey), table) := by
        rw [remove, found]
        rfl
      rw [refused]
      simp only [Standing.insertedBy, Standing.committed?, gone, if_true]
      constructor
      · trivial
      · rintro _ ⟨⟩
        rfl

theorem Shared.commit_refines {table : Table} (shared : table.Shared)
    (session : Session) :
    table.Refines (.commit session) := by
  rw [Refines, Table.after, Table.perform, Snapshots.perform,
    shared.sound.pendingCount_snapshots]
  constructor
  · exact shared.sound.snapshots_commit shared.versioned session
  · rintro _ ⟨⟩
    rfl

theorem Shared.rollback_refines {table : Table} (shared : table.Shared)
    {session : Session} (limit : KeysFit table (.rollback session)) :
    table.Refines (.rollback session) := by
  have succeeds := shared.sound.rollback_eq session limit
  have same := shared.sound.snapshots_rollback session limit
  rw [Refines, Table.after, Table.perform, Snapshots.perform,
    shared.sound.pendingCount_snapshots]
  constructor
  · exact same
  · rintro _ ⟨⟩
    rw [succeeds]
    rfl

/-- A sound table without any key has empty snapshots. -/
theorem Sound.snapshots_eq_empty {table : Table} (sound : table.Sound)
    (next : table.primary.nextKey = 0) :
    table.snapshots = Snapshots.empty := by
  have stands : ∀ key, table.primary.standing key = .absent :=
    fun key => sound.coherent.standing_of_le (next ▸ Nat.zero_le key)
  apply sound.snapshots_eq
  · exact next
  · intro key
    rw [stands]
    rfl
  · intro session key
    rw [stands]
    rfl
  · intro session key
    rw [stands]
    simp [Standing.deleter?, Snapshots.empty]

/-- Every call has its effect and its answer on the snapshots. -/
theorem Shared.refines {table : Table} (shared : table.Shared)
    {action : Action} (spares : SparesInserts table action)
    (limit : KeysFit table action) :
    table.Refines action := by
  have later := shared.sound.after action limit
  have effect := shared.sound.perform_effect action limit
  cases action with
  | insert session values => exact shared.insert_refines session values
  | remove session key => exact shared.remove_refines spares limit
  | commit session => exact shared.commit_refines session
  | rollback session => exact shared.rollback_refines limit
  | addIndex name column =>
      refine ⟨?_, nofun⟩
      generalize (table.perform (.addIndex name column)).1 = answer at effect
      generalize table.after (.addIndex name column) = changed at effect ⊢
      cases effect <;> rfl
  | dropIndex name =>
      refine ⟨?_, nofun⟩
      generalize (table.perform (.dropIndex name)).1 = answer at effect
      generalize table.after (.dropIndex name) = changed at effect ⊢
      cases effect <;> rfl
  | renameIndex name newName =>
      refine ⟨?_, nofun⟩
      generalize (table.perform (.renameIndex name newName)).1 = answer at effect
      generalize table.after (.renameIndex name newName) = changed at effect ⊢
      cases effect <;> rfl
  | truncate | discard =>
      constructor
      · exact later.snapshots_eq_empty rfl
      · rintro _ ⟨⟩
        rfl
  | close =>
      constructor
      · rfl
      · rintro _ ⟨⟩
        rfl

/-! ## Runs in snapshots -/

/-- A run has the same effect on the snapshots. -/
theorem Shared.snapshots_run {table : Table} (shared : table.Shared)
    {actions : List Action} (sessions : Obeys BySession table actions)
    (spares : Obeys SparesInserts table actions)
    (limits : Obeys KeysFit table actions) :
    (table.run actions).snapshots =
      table.snapshots.run table.columns actions := by
  induction actions generalizing table with
  | nil => rfl
  | cons action rest induction =>
      have later := shared.after sessions.1 limits.1
      have once := (shared.refines spares.1 limits.1).1
      have columns := (shared.sound.after_frame action limits.1).1
      have others := induction later sessions.2 spares.2 limits.2
      rw [once, columns] at others
      exact others

/-- A session sees in a shared table what it sees in the snapshots. -/
theorem Shared.seenBy_eq_rows {table : Table} (shared : table.Shared)
    (session : Session) :
    table.primary.seenBy session = table.snapshots.rows session := by
  apply List.filterMap_congr
  intro key member
  congr 1
  have owned := shared.owned key
  have deletes :
      (if (session, key) ∈ table.snapshots.deletes then none
        else table.snapshots.committed key) =
      if (table.primary.standing key).deleter? = some session then none
      else (table.primary.standing key).committed? :=
    if_congr shared.sound.mem_deletes rfl rfl
  rw [Snapshots.seen, deletes]
  change _ = ((table.primary.standing key).insertedBy session).or _
  cases stands : table.primary.standing key with
  | absent | committed values => rfl
  | inserted owner values =>
      rw [stands] at owned
      have opened : owner ≠ noSession := fun same => owned (congrArg some same)
      by_cases own : owner = session <;>
        simp [Standing.seen, Standing.insertedBy, Standing.deleter?,
          Standing.committed?, opened, own]
  | deleted owner values =>
      by_cases own : owner = session <;>
        simp [Standing.seen, Standing.insertedBy, Standing.deleter?,
          Standing.committed?, own]

/--
From a new table on, every answer is that of the snapshots, and a scan of any
session yields exactly the rows that the session sees there.
-/
theorem run_create_refines_snapshots (id : TableId) (schema : Schema)
    (config : Config) (versioned : config.versioned = true)
    (columns : schema.columns ≠ []) (actions : List Action)
    (sessions : Obeys BySession (create id schema config) actions)
    (spares : Obeys SparesInserts (create id schema config) actions)
    (limits : Obeys KeysFit (create id schema config) actions) :
    (∀ session,
      ((((create id schema config).run actions).scanned session).map
          PrimaryIndex.content).Perm
        ((Snapshots.empty.run schema.columns actions).rows session)) ∧
      ∀ earlier action later, actions = earlier ++ action :: later →
        ∀ answer ∈ ((Snapshots.empty.run schema.columns earlier).perform
            schema.columns action).1,
          (((create id schema config).run earlier).perform action).1 =
            answer := by
  have shared := Shared.create id schema versioned
  have start : (create id schema config).snapshots = Snapshots.empty :=
    shared.sound.snapshots_eq_empty rfl
  constructor
  · intro session
    have final := shared.run sessions limits
    have kept := shared.sound.run_columns limits
    have same := shared.snapshots_run sessions spares limits
    rw [start] at same
    change _ = Snapshots.empty.run schema.columns actions at same
    rw [← same, ← final.seenBy_eq_rows session]
    refine final.scanned_perm ?_ (limits.nextKey_lt (Nat.two_pow_pos 64)) session
    rw [kept]
    exact columns
  · rintro earlier action later rfl
    have begun := shared.run sessions.append.1 limits.append.1
    have kept := shared.sound.run_columns limits.append.1
    have same :=
      shared.snapshots_run sessions.append.1 spares.append.1 limits.append.1
    have answers := (begun.refines spares.append.2.1 limits.append.2.1).2
    rw [same, start, kept] at answers
    exact answers

/-- A row whose delete is rolled back is seen under its new key. -/
theorem run_sample_refines_snapshots :
    ((((create 1 sampleSchema sampleConfig).run sampleActions).scanned 2).map
        PrimaryIndex.content).Perm [(2, [.int 7]), (3, [.int 9])] ∧
      (((create 1 sampleSchema sampleConfig).run (sampleActions.take 5)).perform
        (.rollback 2)).1 = .ok (.count 2) := by
  have refined :=
    run_create_refines_snapshots 1 sampleSchema sampleConfig rfl
      (List.cons_ne_nil _ _) sampleActions (by decide +kernel)
      (by decide +kernel) (by decide +kernel)
  have rows : (Snapshots.empty.run sampleSchema.columns sampleActions).rows 2 =
      [(2, [.int 7]), (3, [.int 9])] := by
    decide +kernel
  have counted : ((Snapshots.empty.run sampleSchema.columns
      (sampleActions.take 5)).perform sampleSchema.columns (.rollback 2)).1 =
        some (.ok (.count 2)) := by
    rfl
  constructor
  · rw [← rows]
    exact refined.1 2
  · exact
      refined.2 (sampleActions.take 5) (.rollback 2) (sampleActions.drop 6)
        rfl _ counted

end Table

end VersionedColumns
