import VersionedColumns.Proofs.Table.Transaction

/-!
# Where uncommitted changes come from

An uncommitted change is made by one call and waits for a commit from then on.
An insert is made by its owner's call that stores the row under the next key,
and a delete by its owner's call that removes a live row, whose values it
keeps.  No other call makes a change: a rollback, which removes and stores rows
too, leaves only changes that were there before.
-/

namespace VersionedColumns.Table

/-- The call makes an uncommitted change. -/
inductive Makes (table : Table) (change : Row) : Action → Prop
  /-- The row is stored under the next key. -/
  | inserted {values : List Value} (mark : change.deleted = false)
      (next : change.key = table.primary.nextKey) :
      Makes table change (.insert change.owner values)
  /-- The row was live, and the change has its values. -/
  | removed {row : Row} (mark : change.deleted = true)
      (read : table.row change.key = .ok row) (live : row.isTombstone = false)
      (same : row.values = change.values) :
      Makes table change (.remove change.owner change.key)

/-- A change waits for a commit before a run and after every call of it. -/
def PendingAlong (table : Table) (change : Row) (actions : List Action) : Prop :=
  ∀ begun, begun <+: actions →
    change ∈ (table.run begun).primary.pending.rows

theorem mem_rows_of_mem_commit {table : Table} {session : Session}
    {change : Row}
    (member : change ∈ (table.commit session).2.primary.pending.rows) :
    change ∈ table.primary.pending.rows := by
  rw [commit] at member
  generalize table.pendingOf session = changes at member
  dsimp only at member
  induction changes generalizing table with
  | nil => exact member
  | cons first rest induction =>
      exact PendingChanges.mem_commit_rows (induction member)

/-- A change that waits after a call waited before it or is made by it. -/
theorem Sound.pending_or_makes {table : Table} (sound : table.Sound)
    {action : Action} (limit : KeysFit table action) {change : Row}
    (member : change ∈ (table.after action).primary.pending.rows) :
    change ∈ table.primary.pending.rows ∨ table.Makes change action := by
  have versioned : table.primary.versioned = true :=
    (sound.after_frame action limit).2.symm.trans
      ((sound.after action limit).versioned_of_mem member)
  have effect := sound.perform_effect action limit
  generalize (table.perform action).1 = answer at effect
  generalize table.after action = later at effect member
  cases effect with
  | refused error => exact Or.inl member
  | inserted fits =>
      rename_i session values converted
      rcases PendingChanges.mem_record_rows member with rfl | old
      · right
        rw [PrimaryIndex.nextRow_eq versioned]
        exact Makes.inserted rfl rfl
      · exact Or.inl old
  | removed found =>
      rename_i session key row
      rcases PendingChanges.mem_record_rows member with rfl | old
      · right
        rcases Option.filter_eq_some_iff.1 found with ⟨read, live⟩
        rcases (liveRow?_eq_some found).2.1 with rfl
        have readRow : table.row row.key = .ok row := by
          rw [Table.row, read]
        have notTombstone : row.isTombstone = false := by simpa using live
        exact Makes.removed rfl readRow notTombstone rfl
      · exact Or.inl old
  | committed steps => exact Or.inl (mem_rows_of_mem_commit member)
  | rolledBack steps =>
      -- its steps store and remove rows, but leave no change of their own
      rw [sound.rows_rolledBack _ limit] at member
      exact Or.inl (List.mem_of_mem_filter member)
  | indexAdded inside accepted | indexDropped found | indexRenamed | closed =>
      exact Or.inl member
  | truncated | discarded => cases member

/-- Every change that waits after a run was made by a call or waited before. -/
theorem Sound.pendingAlong_or_makes {table : Table} (sound : table.Sound)
    {actions : List Action} (limits : Obeys KeysFit table actions)
    {change : Row}
    (member : change ∈ (table.run actions).primary.pending.rows) :
    table.PendingAlong change actions ∨
      ∃ earlier action rest, actions = earlier ++ action :: rest ∧
        (table.run earlier).Makes change action ∧
        ((table.run earlier).after action).PendingAlong change rest := by
  induction actions generalizing table with
  | nil =>
      left
      intro begun start
      rw [List.prefix_nil.1 start]
      exact member
  | cons action rest induction =>
      have later := sound.after action limits.1
      rcases induction later limits.2 member with
        along | ⟨earlier, made, others, split, makes, along⟩
      · -- it waits after the first call, which leaves the question to one call
        have once := along [] List.nil_prefix
        rcases sound.pending_or_makes limits.1 once with old | makes
        · left
          intro begun start
          cases begun with
          | nil => exact old
          | cons first begun =>
              rcases List.cons_prefix_cons.1 start with ⟨rfl, behind⟩
              exact along begun behind
        · exact Or.inr ⟨[], action, rest, rfl, makes, along⟩
      · refine Or.inr ⟨action :: earlier, made, others, ?_, makes, along⟩
        rw [split]
        rfl

/--
A call of the run has deleted a row, and the change has been waiting since: it
has the values that were read under its key just before the call.
-/
def DeletedDuring (table : Table) (actions : List Action) (change : Row) :
    Prop :=
  ∃ earlier rest row,
    actions = earlier ++ .remove change.owner change.key :: rest ∧
      (table.run earlier).row change.key = .ok row ∧ row.isTombstone = false ∧
      row.values = change.values ∧
      ((table.run earlier).after
        (.remove change.owner change.key)).PendingAlong change rest

/-- Where nothing waited before a run, its calls have made every delete. -/
theorem Sound.deletedDuring {table : Table} (sound : table.Sound)
    (settled : table.primary.pending.rows = []) {actions : List Action}
    (limits : Obeys KeysFit table actions) {change : Row}
    (member : change ∈ (table.run actions).primary.pending.rows)
    (deleted : change.deleted = true) :
    table.DeletedDuring actions change := by
  rcases sound.pendingAlong_or_makes limits member with
    along | ⟨earlier, action, rest, split, makes, along⟩
  · have before := along [] List.nil_prefix
    rw [run_nil, settled] at before
    cases before
  · cases makes with
    | inserted mark next =>
        rw [deleted] at mark
        cases mark
    | removed mark read live same =>
        exact ⟨earlier, rest, _, split, read, live, same, along⟩

end VersionedColumns.Table
