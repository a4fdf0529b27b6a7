import VersionedColumns.Proofs.Table.Origins

/-!
# Uncommitted changes tell what happened

An uncommitted change is taken out or put in by its key alone, without a look
at what it says.  Nevertheless it always says the truth: an insert repeats the
row that is stored under its key, a delete stands at a removed key and repeats
the row that was read there before, and the owner is the session that made the
call.

So every insert that waits for a commit can be taken back, in any order and by
anyone, and the changes of all sessions together are the changes there are,
each of them once.
-/

namespace VersionedColumns.Table

/-! ## The calls that record changes -/

/-- The call succeeds, and the change says what it did. -/
inductive Records (table : Table) (change : Row) : Action → Prop
  /-- The change has the key and the converted values of the inserted row. -/
  | inserted {values : List Value} (mark : change.deleted = false)
      (fitting : values.length = table.columns.length)
      (converts : convert table.columns values = .ok change.values)
      (answered : (table.perform (.insert change.owner values)).1 =
        .ok (.key change.key)) :
      Records table change (.insert change.owner values)
  /-- The change has the key and the values of the row that was removed. -/
  | removed {row : Row} (mark : change.deleted = true)
      (read : table.row change.key = .ok row) (live : row.isTombstone = false)
      (same : row.values = change.values)
      (answered : (table.perform (.remove change.owner change.key)).1 =
        .ok (.row row)) :
      Records table change (.remove change.owner change.key)

/-- A call of the run has recorded the change, which has waited since. -/
def RecordedDuring (table : Table) (actions : List Action) (change : Row) :
    Prop :=
  ∃ earlier action rest, actions = earlier ++ action :: rest ∧
    (table.run earlier).Records change action ∧
    ((table.run earlier).after action).PendingAlong change rest

variable {table : Table} {change : Row}

/-- A row that is read and is not the tombstone is live. -/
theorem liveRow?_of_row {key : Key} {row : Row}
    (read : table.row key = .ok row) (live : row.isTombstone = false) :
    table.liveRow? key = some row := by
  rw [Table.row] at read
  cases found : table.primary.row? key with
  | none =>
      rw [found] at read
      cases read
  | some other =>
      rw [found] at read
      cases read
      rw [liveRow?, found]
      exact Option.filter_some_pos (by rw [live]; rfl)

/-- A call that makes a change which waits afterwards has recorded it. -/
theorem Sound.records_of_makes (sound : table.Sound) {action : Action}
    (makes : table.Makes change action)
    (member : change ∈ (table.after action).primary.pending.rows) :
    table.Records change action := by
  cases makes with
  | inserted mark next =>
      rename_i values
      change change ∈
        (table.insert change.owner values).2.primary.pending.rows at member
      -- what waited before has smaller keys, so the call was not refused
      have fresh : change ∉ table.primary.pending.rows := fun old =>
        Nat.ne_of_lt (sound.coherent.key_lt old) next
      rcases sound.insert_converts change.owner values with
        ⟨_, refused⟩ | ⟨fitting, converted, converts, stored⟩
      · rw [refused] at member
        exact absurd member fresh
      · have kept : change.values = converted := by
          rw [stored] at member
          rcases PendingChanges.mem_record_rows member with same | old
          · rw [same]
            rfl
          · exact absurd old fresh
        refine Records.inserted mark fitting (kept ▸ converts) ?_
        rw [perform, stored, next]
        rfl
  | removed mark read live same =>
      rename_i row
      have found := liveRow?_of_row read live
      refine Records.removed mark read live same ?_
      rw [perform, sound.remove_eq found change.owner]
      rfl

/-- Where nothing waited before a run, its calls have recorded every change. -/
theorem Sound.recordedDuring (sound : table.Sound)
    (settled : table.primary.pending.rows = []) {actions : List Action}
    (limits : Obeys KeysFit table actions)
    (member : change ∈ (table.run actions).primary.pending.rows) :
    table.RecordedDuring actions change := by
  rcases sound.pendingAlong_or_makes limits member with
    along | ⟨earlier, action, rest, rfl, makes, along⟩
  · have before := along [] List.nil_prefix
    rw [run_nil, settled] at before
    cases before
  · have begun := sound.run limits.append.1
    have once := along [] List.nil_prefix
    exact
      ⟨earlier, action, rest, rfl, begun.records_of_makes makes once, along⟩

/-! ## What a change says of its key -/

/-- A change that inserts a row is the row that is read under its key. -/
theorem Sound.row_of_insert (sound : table.Sound)
    (limit : table.primary.nextKey < 2 ^ 64)
    (member : change ∈ table.primary.pending.rows)
    (mark : change.deleted = false) :
    table.row change.key = .ok change := by
  have found := sound.liveRow?_of_pending limit member mark
  rw [Table.row, (Option.filter_eq_some_iff.1 found).1]

/-- A change that deletes a row stands at a removed key. -/
theorem Sound.removed_of_delete (sound : table.Sound)
    (limit : table.primary.nextKey < 2 ^ 64)
    (member : change ∈ table.primary.pending.rows)
    (mark : change.deleted = true) :
    change.key ∈ table.primary.grid.removed ∧
      table.row change.key = .ok Row.tombstone := by
  have inside := sound.coherent.key_lt member
  have found := sound.coherent.ordered.row?_key member
  constructor
  · have dead := (sound.coherent.agrees found).of_delete mark
    by_contra present
    rw [Grid.isLive_iff.2 ⟨inside, present⟩] at dead
    cases dead
  · rw [sound.row_eq limit inside, PrimaryIndex.standing_of_row?_some found,
      mark]
    rfl

/-! ## Taking inserts back -/

/-- What the calls of a run answer. -/
def answers : Table → List Action → List (Except Error Reply)
  | _, [] => []
  | table, action :: rest =>
    (table.perform action).1 :: (table.after action).answers rest

/-- The calls of a session that remove the rows of some changes. -/
def removals (session : Session) (changes : List Row) : List Action :=
  changes.map fun change => .remove session change.key

/-- An insert that waits for a commit is taken back by removing its row. -/
theorem Sound.after_removal (sound : table.Sound)
    (limit : table.primary.nextKey < 2 ^ 64)
    (member : change ∈ table.primary.pending.rows)
    (mark : change.deleted = false) (session : Session) :
    (table.perform (.remove session change.key)).1 = .ok (.row change) ∧
      (table.after (.remove session change.key)).Sound ∧
      (table.after (.remove session change.key)).primary.nextKey =
        table.primary.nextKey ∧
      (table.after (.remove session change.key)).primary.pending.rows =
        table.primary.pending.rows.filter (· ≠ change) := by
  have found := sound.liveRow?_of_pending limit member mark
  have later := sound.withoutRow found session
  have taken : table.undone session change = table.withoutRow session change := by
    rw [undone, mark]
    rfl
  have left :=
    sound.coherent.ordered.rows_eq_filter later.coherent.ordered
      (taken ▸ sound.row?_undone member)
  rw [Table.after, perform, sound.remove_eq found session]
  refine ⟨rfl, later, rfl, left.trans ?_⟩
  apply List.filter_congr
  intro other otherMember
  have same : other.key = change.key ↔ other = change := by
    constructor
    · intro keys
      have otherFound := sound.coherent.ordered.row?_key otherMember
      rw [keys, sound.coherent.ordered.row?_key member] at otherFound
      exact (Option.some.inj otherFound).symm
    · rintro rfl
      rfl
  rw [Bool.eq_iff_iff]
  simp [same]

/-- Inserts that wait for a commit can all be taken back, in any order. -/
theorem Sound.answers_removals (sound : table.Sound)
    (limit : table.primary.nextKey < 2 ^ 64) (session : Session)
    {changes : List Row} (distinct : changes.Nodup)
    (inserts : ∀ change ∈ changes,
      change ∈ table.primary.pending.rows ∧ change.deleted = false) :
    table.answers (removals session changes) =
        changes.map (fun change => .ok (.row change)) ∧
      (table.run (removals session changes)).primary.pending.rows =
        table.primary.pending.rows.filter (· ∉ changes) := by
  induction changes generalizing table with
  | nil => exact ⟨rfl, (List.filter_true _).symm⟩
  | cons change rest induction =>
      rcases inserts change List.mem_cons_self with ⟨member, mark⟩
      rcases List.nodup_cons.1 distinct with ⟨once, distinct⟩
      rcases sound.after_removal limit member mark session with
        ⟨answered, later, next, left⟩
      have others : ∀ other ∈ rest,
          other ∈ (table.after
            (.remove session change.key)).primary.pending.rows ∧
            other.deleted = false := by
        intro other otherMember
        have differs : other ≠ change := by
          rintro rfl
          exact once otherMember
        rcases inserts other (List.mem_cons_of_mem _ otherMember) with
          ⟨pending, insert⟩
        rw [left, List.mem_filter]
        exact ⟨⟨pending, by simpa using differs⟩, insert⟩
      have kept := induction later (next ▸ limit) distinct others
      constructor
      · exact congrArg₂ List.cons answered kept.1
      · refine kept.2.trans ?_
        rw [left, List.filter_filter]
        apply List.filter_congr
        intro other _
        simp [Bool.and_comm]

/-! ## The changes of all sessions -/

theorem Sound.rows_nodup (sound : table.Sound) :
    table.primary.pending.rows.Nodup := by
  refine List.Pairwise.imp ?_ sound.coherent.ordered
  rintro first second before rfl
  exact Nat.lt_irrefl _ before

theorem mem_pendingOf_iff {session : Session} :
    change ∈ table.pendingOf session ↔
      change ∈ table.primary.pending.rows ∧ change.owner = session := by
  rw [pendingOf, PendingChanges.ownedBy, List.mem_filter, beq_iff_eq]

/-- The changes of all their owners are the changes there are, each once. -/
theorem Sound.flatMap_pendingOf_perm (sound : table.Sound)
    {sessions : List Session} (distinct : sessions.Nodup)
    (owners : ∀ change ∈ table.primary.pending.rows,
      change.owner ∈ sessions) :
    (sessions.flatMap table.pendingOf).Perm table.primary.pending.rows := by
  have apart : (sessions.flatMap table.pendingOf).Nodup := by
    refine List.nodup_flatMap.2 ⟨?_, ?_⟩
    · intro session _
      exact List.Nodup.filter _ sound.rows_nodup
    · refine List.Pairwise.imp ?_ distinct
      intro first second differs change member otherMember
      exact
        differs ((mem_pendingOf_iff.1 member).2.symm.trans
          (mem_pendingOf_iff.1 otherMember).2)
  refine (List.perm_ext_iff_of_nodup apart sound.rows_nodup).2 ?_
  intro change
  rw [List.mem_flatMap]
  constructor
  · rintro ⟨session, _, member⟩
    exact (mem_pendingOf_iff.1 member).1
  · intro member
    exact
      ⟨change.owner, owners change member, mem_pendingOf_iff.2 ⟨member, rfl⟩⟩

/-! ## Coherence of every run -/

/--
The uncommitted changes of a table, which some calls have made of another one,
cohere with its rows and with the calls.
-/
structure ChangesCohere (table start : Table) (actions : List Action) :
    Prop where
  /-- A change is found under its own key, which was handed out. -/
  key_eq : ∀ key change, table.primary.pending.row? key = some change →
    change.key = key ∧ key < table.primary.nextKey
  /-- And so is every change. -/
  row?_key : ∀ change ∈ table.primary.pending.rows,
    table.primary.pending.row? change.key = some change
  /-- An insert is the row that is stored under its key. -/
  of_insert : ∀ change ∈ table.primary.pending.rows,
    change.deleted = false →
      table.primary.grid.isLive change.key = true ∧
        change.values = table.primary.grid.cells change.key ∧
        table.row change.key = .ok change
  /-- A delete stands at a removed key. -/
  of_delete : ∀ change ∈ table.primary.pending.rows,
    change.deleted = true →
      change.key ∈ table.primary.grid.removed ∧
        table.row change.key = .ok Row.tombstone
  /-- A call of its owner has made a change, with the values of its row. -/
  recorded : ∀ change ∈ table.primary.pending.rows,
    start.RecordedDuring actions change
  /-- No key is live while it waits for a commit as deleted. -/
  apart : ∀ key change, table.primary.pending.row? key = some change →
    ¬(table.primary.grid.isLive key = true ∧ change.deleted = true)
  /-- Any inserts can be taken back, and then all other changes are left. -/
  takenBack : ∀ session changes, changes.Nodup →
    (∀ change ∈ changes,
      change ∈ table.primary.pending.rows ∧ change.deleted = false) →
    table.answers (removals session changes) =
        changes.map (fun change => .ok (.row change)) ∧
      (table.run (removals session changes)).primary.pending.rows =
        table.primary.pending.rows.filter (· ∉ changes)
  /-- A change is pending for its owner and for no other session. -/
  mem_pendingOf : ∀ session change, change ∈ table.pendingOf session ↔
    change ∈ table.primary.pending.rows ∧ change.owner = session
  /-- What is pending for any of the owners is every change once. -/
  partition : ∀ sessions : List Session, sessions.Nodup →
    (∀ change ∈ table.primary.pending.rows, change.owner ∈ sessions) →
    (sessions.flatMap table.pendingOf).Perm table.primary.pending.rows

theorem Sound.changesCohere {start : Table} {actions : List Action}
    (sound : table.Sound) (limit : table.primary.nextKey < 2 ^ 64)
    (recorded : ∀ change ∈ table.primary.pending.rows,
      start.RecordedDuring actions change) :
    table.ChangesCohere start actions where
  key_eq := by
    intro key change found
    exact
      ⟨(PendingChanges.mem_rows_of_row? found).2,
        (sound.coherent.agrees found).key_lt⟩
  row?_key := fun _ member => sound.coherent.ordered.row?_key member
  of_insert := by
    intro change member mark
    have agrees :=
      sound.coherent.agrees (sound.coherent.ordered.row?_key member)
    rcases agrees.of_insert mark with ⟨live, values⟩
    exact ⟨live, values, sound.row_of_insert limit member mark⟩
  of_delete := fun _ member mark => sound.removed_of_delete limit member mark
  recorded := recorded
  apart := by
    rintro key change found ⟨live, mark⟩
    rw [(sound.coherent.agrees found).of_delete mark] at live
    cases live
  takenBack := fun session _ distinct inserts =>
    sound.answers_removals limit session distinct inserts
  mem_pendingOf := fun _ _ => mem_pendingOf_iff
  partition := fun _ distinct owners =>
    sound.flatMap_pendingOf_perm distinct owners

/--
In every table that a run from a new one reaches, the uncommitted changes
cohere with the rows and with the calls that have made them.
-/
theorem changesCohere_of_run (id : TableId) (schema : Schema) (config : Config)
    (actions : List Action)
    (limits : Obeys KeysFit (create id schema config) actions)
    (table : Table) (reached : (create id schema config).run actions = table) :
    table.ChangesCohere (create id schema config) actions := by
  subst reached
  have new := Sound.create id schema config
  exact
    (new.run limits).changesCohere (limits.nextKey_lt (Nat.two_pow_pos 64))
      fun _ member => new.recordedDuring rfl limits member

/-- The insert of a session that has also deleted a row can be taken back. -/
theorem changesCohere_of_sample_run :
    ((create 1 sampleSchema sampleConfig).run
        (sampleActions.take 5)).answers [.remove 2 1] =
      [.ok (.row ⟨1, [.int 8], false, 2⟩)] := by
  have cohere :=
    changesCohere_of_run 1 sampleSchema sampleConfig (sampleActions.take 5)
      (by decide +kernel) _ rfl
  exact
    (cohere.takenBack 2 [⟨1, [.int 8], false, 2⟩] (List.nodup_singleton _)
      (by decide +kernel)).1

end VersionedColumns.Table
