import VersionedColumns.Proofs.Index.View
import VersionedColumns.Proofs.Table.Runs

/-!
# Tables that sessions share

A table is shared when it is sound, changes wait for a commit, and every
uncommitted change belongs to a session.  Calls of sessions leave it shared.
A scan of a shared table yields exactly the rows that its session sees.
-/

namespace VersionedColumns

namespace Table

/-- A sound table in which every change waits for the commit of a session. -/
structure Shared (table : Table) : Prop where
  sound : table.Sound
  versioned : table.primary.versioned = true
  owned : ∀ key, (table.primary.standing key).owner? ≠ some noSession

theorem Shared.create (id : TableId) (schema : Schema) {config : Config}
    (versioned : config.versioned = true) :
    (create id schema config).Shared where
  sound := Sound.create id schema config
  versioned := versioned
  owned := by
    intro key
    have sound := Sound.create id schema config
    rw [sound.coherent.standing_of_le (Nat.zero_le key)]
    exact nofun

theorem Shared.withRow {table : Table} (shared : table.Shared)
    {values : List Value} (fits : Fits table.columns values) {session : Session}
    (opened : session ≠ noSession) :
    (table.withRow session values).Shared where
  sound := shared.sound.withRow fits session
  versioned := (PrimaryIndex.withRow_versioned _ _ _).trans shared.versioned
  owned := by
    intro key
    rw [shared.sound.standing_withRow shared.versioned fits]
    split
    · exact fun same => opened (Option.some.inj same)
    · exact shared.owned key

theorem Shared.withoutRow {table : Table} (shared : table.Shared) {row : Row}
    (found : table.liveRow? row.key = some row) {session : Session}
    (opened : session ≠ noSession) :
    (table.withoutRow session row).Shared where
  sound := shared.sound.withoutRow found session
  versioned := (PrimaryIndex.withoutRow_versioned _ _ _).trans shared.versioned
  owned := by
    intro key
    have before := shared.owned key
    rw [shared.sound.standing_withoutRow shared.versioned found]
    split
    · cases stands : table.primary.standing key with
      | absent | inserted owner values => exact nofun
      | committed values => exact fun same => opened (Option.some.inj same)
      | deleted owner values =>
          rw [stands] at before
          exact before
    · exact before

theorem Shared.commitRow {table : Table} (shared : table.Shared)
    (kind : ChangeKind) (row : Row) :
    (table.commitRow kind row).Shared where
  sound := shared.sound.commitRow kind row
  versioned := (commitRow_versioned _ _ _).trans shared.versioned
  owned := by
    intro key
    have before := shared.owned key
    have settled :=
      shared.sound.coherent.standing_commit shared.versioned kind row key
    change (table.commitRow kind row).primary.standing key = _ at settled
    rw [settled]
    split
    · cases stands : table.primary.standing key with
      | absent | committed values | inserted owner values
      | deleted owner values => exact nofun
    · exact before

theorem Shared.steps {session : Session} {table later : Table}
    (shared : table.Shared) (opened : session ≠ noSession)
    (steps : Steps session table later) :
    later.Shared := by
  refine steps.preserve ?_ shared.sound shared
  intro table later _ shared step
  cases step with
  | stored fits => exact shared.withRow fits opened
  | takenBack found member own => exact shared.withoutRow found opened
  | settled member => exact shared.commitRow _ _

/-- Every call of a session leaves a shared table shared. -/
theorem Shared.after {table : Table} (shared : table.Shared) {action : Action}
    (session : BySession table action) (limit : KeysFit table action) :
    (table.after action).Shared := by
  have sound := shared.sound.after action limit
  have effect := shared.sound.perform_effect action limit
  generalize (table.perform action).1 = answer at effect
  generalize table.after action = later at effect sound ⊢
  cases effect with
  | refused error => exact shared
  | inserted fits =>
      exact shared.withRow fits fun same => session (congrArg some same)
  | removed found =>
      have same := (liveRow?_eq_some found).2.1
      exact
        shared.withoutRow (by rw [same]; exact found)
          fun same => session (congrArg some same)
  | committed steps | rolledBack steps =>
      exact shared.steps (fun same => session (congrArg some same)) steps
  | indexAdded inside accepted | indexDropped found | indexRenamed | closed =>
      exact ⟨sound, shared.versioned, shared.owned⟩
  | truncated | discarded =>
      refine ⟨sound, shared.versioned, ?_⟩
      intro key
      exact (congrArg Standing.owner? (table.primary.clear_standing key)).trans_ne nofun

/-! ## Scans -/

/-- The rows that a scan of a session yields, from the first to the last. -/
def scanned (table : Table) (session : Session) : List Row :=
  (table.scan session).remaining.1

/-- A scan yields the rows that its session sees, each once. -/
theorem Shared.scanned_perm {table : Table} (shared : table.Shared)
    (columns : table.columns ≠ []) (limit : table.primary.nextKey < 2 ^ 64)
    (session : Session) :
    ((table.scanned session).map PrimaryIndex.content).Perm
      (table.primary.seenBy session) :=
  shared.sound.coherent.remaining_perm_seenBy shared.versioned
    (shared.sound.grid_columns_ne_nil columns) limit session

/-- Calls of sessions leave a shared table shared, however many there are. -/
theorem Shared.run {table : Table} (shared : table.Shared)
    {actions : List Action} (sessions : Obeys BySession table actions)
    (limits : Obeys KeysFit table actions) :
    (table.run actions).Shared :=
  (sessions.and limits).preserve (fun shared kept => shared.after kept.1 kept.2)
    shared

end Table

end VersionedColumns
