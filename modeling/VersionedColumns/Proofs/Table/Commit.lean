import VersionedColumns.Proofs.Table.PointReads
import VersionedColumns.Proofs.Table.Rollback

/-!
# What a commit does

A commit moves the line between what one session sees and what all do, and
nothing else.  The session itself sees and counts what it did before.  Every
other session loses the rows that the session had deleted from sight and gains
those that it had inserted.  No cell, no count of stored rows and no equality
index changes, and it makes no difference which of two sessions commits first.
-/

namespace VersionedColumns

namespace Standing

variable {session other : Session} {standing : Standing} {values : List Value}

theorem deletedElsewhere_settledFor (session : Session) (standing : Standing) :
    (standing.settledFor session).deletedElsewhere session =
      standing.deletedElsewhere session := by
  cases standing with
  | absent | committed values => rfl
  | inserted owner values =>
      rw [settledFor]
      split <;> rfl
  | deleted owner values =>
      by_cases own : owner = session
      · simp [settledFor, owner?, settled, deletedElsewhere, own]
      · simp [settledFor, owner?, own]

theorem storedFor_settledFor (session : Session) (standing : Standing) :
    (standing.settledFor session).storedFor session =
      standing.storedFor session := by
  cases standing with
  | absent | committed values => rfl
  | inserted owner values =>
      by_cases own : owner = session
      · simp [settledFor, owner?, settled, storedFor, own]
      · simp [settledFor, owner?, own]
  | deleted owner values =>
      rw [settledFor]
      split <;> rfl

/-- What a session has deleted is still seen by the others. -/
theorem seen_of_deletedBy (differs : other ≠ session)
    (deleted : standing.deletedBy session = some values) :
    standing.seen other = some values := by
  cases standing with
  | absent | committed old | inserted owner old => cases deleted
  | deleted owner old =>
      rw [deletedBy] at deleted
      split at deleted
      · rename_i own
        rw [seen, own, if_neg (Ne.symm differs)]
        exact deleted
      · cases deleted

/-- What a session has inserted is not seen by the others yet. -/
theorem seen_of_insertedBy (opened : session ≠ noSession)
    (differs : other ≠ session)
    (inserted : standing.insertedBy session = some values) :
    standing.seen other = none := by
  cases standing with
  | absent | committed old | deleted owner old => cases inserted
  | inserted owner old =>
      rw [insertedBy] at inserted
      split at inserted
      · rename_i own
        rw [seen, own]
        exact if_neg (not_or_intro opened (Ne.symm differs))
      · cases inserted

/-- Another session sees the deletes go and the inserts come. -/
theorem seen_settledFor_iff (opened : session ≠ noSession)
    (differs : other ≠ session) :
    (standing.settledFor session).seen other = some values ↔
      (standing.seen other = some values ∧
          standing.deletedBy session ≠ some values) ∨
        standing.insertedBy session = some values := by
  cases standing with
  | absent => simp [settledFor, owner?, seen, deletedBy, insertedBy]
  | committed old => simp [settledFor, owner?, seen, deletedBy, insertedBy]
  | inserted owner old =>
      by_cases own : owner = session
      · simp [settledFor, owner?, settled, seen, insertedBy, own, opened,
          Ne.symm differs]
      · simp [settledFor, owner?, seen, deletedBy, insertedBy, own]
  | deleted owner old =>
      by_cases own : owner = session
      · simp [settledFor, owner?, settled, seen, deletedBy, insertedBy, own,
          Ne.symm differs]
      · simp [settledFor, owner?, seen, deletedBy, insertedBy, own]

end Standing

namespace PrimaryIndex

variable {index : PrimaryIndex}

theorem seenBy_nodup (index : PrimaryIndex) (session : Session) :
    (index.seenBy session).Nodup := by
  refine List.Nodup.filterMap ?_ List.nodup_range
  intro first second content found otherFound
  rcases Option.map_eq_some_iff.1 found with ⟨values, -, rfl⟩
  rcases Option.map_eq_some_iff.1 otherFound with ⟨others, -, same⟩
  exact (congrArg Prod.fst same).symm

/-- Of the uncommitted changes only the rows matter for what is read. -/
theorem liveRows_congr {first second : PendingChanges}
    (same : first.rows = second.rows) :
    { index with pending := first }.liveRows =
      { index with pending := second }.liveRows := by
  have found : first.row? = second.row? := by
    funext key
    rw [PendingChanges.row?, PendingChanges.row?, same]
  have owner : { index with pending := first }.withOwner =
      { index with pending := second }.withOwner := by
    funext key row
    rw [withOwner, withOwner, found]
  apply List.filterMap_congr
  intro key _
  rw [filledRow?, filledRow?, row?, row?, owner]

end PrimaryIndex

namespace Table

variable {table : Table} {session other : Session}

/-- Two tables that differ at most in the order in which sessions are listed. -/
structure Alike (first second : Table) : Prop where
  pending : first.primary.pending.Alike second.primary.pending
  elsewhere : first.withPending second.primary.pending = second
  scanned : ∀ session, first.scanned session = second.scanned session
  rowCount : ∀ session, first.rowCount session = second.rowCount session

/-- The keys and values that a scan of a session yields, in its order. -/
def contents (table : Table) (session : Session) : List (Key × List Value) :=
  (table.scanned session).map PrimaryIndex.content

/-- The uncommitted inserts of a session, in the order of their keys. -/
def pendingInserts (table : Table) (session : Session) : List Row :=
  (table.pendingOf session).filter fun change => !change.deleted

/-! ## The table after a commit -/

theorem Shared.commit (shared : table.Shared) (opened : session ≠ noSession) :
    (table.commit session).2.Shared :=
  shared.steps opened (shared.sound.steps_commit session)

theorem scanned_of_versioned (versioned : table.primary.versioned = true)
    (session : Session) :
    table.scanned session =
      table.primary.pending.rows.filter (Scan.deletedElsewhere session) ++
        table.primary.liveRows.filter fun row => row.visibleTo session :=
  Scan.remaining_start_of_versioned versioned session

@[simp]
theorem withPending_rowCount (table : Table) (pending : PendingChanges)
    (session : Session) :
    (table.withPending pending).rowCount session =
      pending.rowCount session table.primary.rowCount := rfl

theorem withPending_alike {first second : PendingChanges}
    (alike : first.Alike second) (recorded : first.recorded = true) :
    (table.withPending first).Alike (table.withPending second) where
  pending := alike
  elsewhere := rfl
  scanned := by
    intro session
    have stored : (table.withPending first).primary.liveRows =
        (table.withPending second).primary.liveRows :=
      PrimaryIndex.liveRows_congr alike.rows
    have changes : (table.withPending first).primary.pending.rows =
        (table.withPending second).primary.pending.rows := alike.rows
    have waits : (table.withPending first).primary.versioned = true := recorded
    have waitsToo : (table.withPending second).primary.versioned = true :=
      alike.recorded.symm.trans recorded
    rw [scanned_of_versioned waits, scanned_of_versioned waitsToo, stored,
      changes]
  rowCount := by
    intro session
    rw [withPending_rowCount, withPending_rowCount, PendingChanges.rowCount,
      PendingChanges.rowCount, alike.recorded, alike.adjustment, alike.total]

/-- It makes no difference which of two sessions commits first. -/
theorem Shared.commit_comm (shared : table.Shared) (session other : Session) :
    ((table.commit session).2.commit other).2.Alike
      ((table.commit other).2.commit session).2 := by
  rw [commit_snd, commit_snd, commit_snd, commit_snd]
  refine
    withPending_alike
      (shared.sound.coherent.ordered.settled_comm shared.versioned session other)
      ?_
  refine (PendingChanges.settled_recorded _ other).trans ?_
  exact (PendingChanges.settled_recorded _ session).trans shared.versioned

/-! ## The session itself -/

theorem Shared.contents_eq (shared : table.Shared)
    (columns : table.columns ≠ []) (limit : table.primary.nextKey < 2 ^ 64)
    (session : Session) :
    table.contents session =
      ((List.range table.primary.nextKey).filterMap fun key =>
        ((table.primary.standing key).deletedElsewhere session).map (key, ·)) ++
      (List.range table.primary.nextKey).filterMap fun key =>
        ((table.primary.standing key).storedFor session).map (key, ·) := by
  rw [contents, scanned_of_versioned shared.versioned, List.map_append,
    shared.sound.coherent.deletedElsewhere_rows,
    shared.sound.coherent.visible_liveRows
      (shared.sound.grid_columns_ne_nil columns) limit]

/-- A session sees after its commit what it saw before, in the same order. -/
theorem Shared.contents_commit_self (shared : table.Shared)
    (columns : table.columns ≠ []) (limit : table.primary.nextKey < 2 ^ 64)
    (opened : session ≠ noSession) :
    (table.commit session).2.contents session = table.contents session := by
  have stands := shared.sound.standing_commit shared.versioned session
  rw [(shared.commit opened).contents_eq (by rwa [commit_columns])
      (by rwa [commit_nextKey]),
    shared.contents_eq columns limit]
  simp only [commit_nextKey, stands, Standing.deletedElsewhere_settledFor,
    Standing.storedFor_settledFor]

/-- And it counts what it counted before. -/
theorem Shared.rowCount_commit_self (shared : table.Shared)
    (session : Session) :
    (table.commit session).2.rowCount session = table.rowCount session := by
  have foreign := PendingChanges.foreign_settled shared.versioned session
  rw [PendingChanges.foreign, PendingChanges.foreign] at foreign
  have own :
      (table.primary.pending.settled session).adjustment session -
          (table.primary.pending.settled session).total =
        table.primary.pending.adjustment session -
          table.primary.pending.total := by
    omega
  rw [commit_snd, withPending_rowCount, rowCount, PrimaryIndex.visibleRowCount,
    PendingChanges.rowCount, PendingChanges.rowCount,
    PendingChanges.settled_recorded, Int.add_sub_assoc, own,
    ← Int.add_sub_assoc]

/-! ## Other sessions -/

/-- A change of a session is found under its key. -/
theorem Sound.mem_content_iff (sound : table.Sound) {keeps : Row → Bool}
    {key : Key} {values : List Value} :
    (key, values) ∈
        ((table.pendingOf session).filter keeps).map PrimaryIndex.content ↔
      ∃ change, table.primary.pending.row? key = some change ∧
        change.owner = session ∧ keeps change = true ∧
          change.values = values := by
  simp only [pendingOf, PendingChanges.ownedBy, List.mem_map, List.mem_filter,
    beq_iff_eq, sound.coherent.ordered.row?_eq_some_iff, PrimaryIndex.content,
    Prod.mk.injEq]
  constructor
  · rintro ⟨change, ⟨⟨member, own⟩, kept⟩, same, held⟩
    exact ⟨change, ⟨member, same⟩, own, kept, held⟩
  · rintro ⟨change, ⟨member, same⟩, own, kept, held⟩
    exact ⟨change, ⟨⟨member, own⟩, kept⟩, same, held⟩

theorem Sound.mem_content_pendingDeletes (sound : table.Sound) {key : Key}
    {values : List Value} :
    (key, values) ∈
        (table.pendingDeletes session).map PrimaryIndex.content ↔
      (table.primary.standing key).deletedBy session = some values := by
  rw [pendingDeletes, sound.mem_content_iff]
  cases found : table.primary.pending.row? key with
  | none =>
      rw [PrimaryIndex.standing_of_row?_none found]
      cases table.primary.grid.isLive key <;> simp [Standing.deletedBy]
  | some change =>
      rw [PrimaryIndex.standing_of_row?_some found]
      cases mark : change.deleted <;> simp [Standing.deletedBy, mark]

theorem Sound.mem_content_pendingInserts (sound : table.Sound) {key : Key}
    {values : List Value} :
    (key, values) ∈
        (table.pendingInserts session).map PrimaryIndex.content ↔
      (table.primary.standing key).insertedBy session = some values := by
  rw [pendingInserts, sound.mem_content_iff]
  cases found : table.primary.pending.row? key with
  | none =>
      rw [PrimaryIndex.standing_of_row?_none found]
      cases table.primary.grid.isLive key <;> simp [Standing.insertedBy]
  | some change =>
      rw [PrimaryIndex.standing_of_row?_some found]
      cases mark : change.deleted <;> simp [Standing.insertedBy, mark]

theorem Shared.mem_contents (shared : table.Shared)
    (columns : table.columns ≠ []) (limit : table.primary.nextKey < 2 ^ 64)
    {key : Key} {values : List Value} :
    (key, values) ∈ table.contents session ↔
      key < table.primary.nextKey ∧
        (table.primary.standing key).seen session = some values :=
  (shared.scanned_perm columns limit session).mem_iff.trans
    PrimaryIndex.mem_seenBy

theorem Shared.contents_nodup (shared : table.Shared)
    (columns : table.columns ≠ []) (limit : table.primary.nextKey < 2 ^ 64)
    (session : Session) : (table.contents session).Nodup :=
  (shared.scanned_perm columns limit session).nodup_iff.2
    (table.primary.seenBy_nodup session)

theorem Sound.content_pendingInserts_nodup (sound : table.Sound)
    (session : Session) :
    ((table.pendingInserts session).map PrimaryIndex.content).Nodup := by
  rw [List.Nodup, List.pairwise_map]
  refine List.Pairwise.filter _ (List.Pairwise.filter _ ?_)
  refine sound.coherent.ordered.imp fun before same => ?_
  exact Nat.ne_of_lt before (congrArg Prod.fst same)

/-- Other sessions see the deletes of a session until it commits. -/
theorem Shared.content_pendingDeletes_mem (shared : table.Shared)
    (columns : table.columns ≠ []) (limit : table.primary.nextKey < 2 ^ 64)
    (differs : other ≠ session) {change : Row}
    (member : change ∈ table.pendingDeletes session) :
    PrimaryIndex.content change ∈ table.contents other := by
  have deleted :=
    shared.sound.mem_content_pendingDeletes.1 (List.mem_map_of_mem member)
  refine (shared.mem_contents columns limit).2 ⟨?_, ?_⟩
  · apply shared.sound.coherent.lt_nextKey_of_standing
    intro absent
    rw [absent] at deleted
    cases deleted
  · exact Standing.seen_of_deletedBy differs deleted

/-- And they do not see its inserts. -/
theorem Shared.content_pendingInserts_not_mem (shared : table.Shared)
    (columns : table.columns ≠ []) (limit : table.primary.nextKey < 2 ^ 64)
    (opened : session ≠ noSession) (differs : other ≠ session) {change : Row}
    (member : change ∈ table.pendingInserts session) :
    PrimaryIndex.content change ∉ table.contents other := by
  intro seen
  have inserted :=
    shared.sound.mem_content_pendingInserts.1 (List.mem_map_of_mem member)
  have visible := ((shared.mem_contents columns limit).1 seen).2
  rw [Standing.seen_of_insertedBy opened differs inserted] at visible
  cases visible

/-- What another session sees after a commit, row by row. -/
theorem Shared.mem_contents_commit (shared : table.Shared)
    (columns : table.columns ≠ []) (limit : table.primary.nextKey < 2 ^ 64)
    (opened : session ≠ noSession) (differs : other ≠ session) {key : Key}
    {values : List Value} :
    (key, values) ∈ (table.commit session).2.contents other ↔
      ((key, values) ∈ table.contents other ∧
          (key, values) ∉
            (table.pendingDeletes session).map PrimaryIndex.content) ∨
        (key, values) ∈
          (table.pendingInserts session).map PrimaryIndex.content := by
  rw [(shared.commit opened).mem_contents (by rwa [commit_columns])
      (by rwa [commit_nextKey]),
    commit_nextKey, shared.sound.standing_commit shared.versioned,
    Standing.seen_settledFor_iff opened differs,
    shared.mem_contents columns limit, shared.sound.mem_content_pendingInserts,
    shared.sound.mem_content_pendingDeletes]
  constructor
  · rintro ⟨inside, ⟨seen, kept⟩ | inserted⟩
    · exact Or.inl ⟨⟨inside, seen⟩, kept⟩
    · exact Or.inr inserted
  · rintro (⟨⟨inside, seen⟩, kept⟩ | inserted)
    · exact ⟨inside, Or.inl ⟨seen, kept⟩⟩
    · refine ⟨?_, Or.inr inserted⟩
      apply shared.sound.coherent.lt_nextKey_of_standing
      intro absent
      rw [absent] at inserted
      cases inserted

/-- After a commit other sessions see its deletes gone and its inserts there. -/
theorem Shared.contents_commit_other (shared : table.Shared)
    (columns : table.columns ≠ []) (limit : table.primary.nextKey < 2 ^ 64)
    (opened : session ≠ noSession) (differs : other ≠ session) :
    ((table.commit session).2.contents other).Perm
      (((table.contents other).filter fun content =>
          content ∉ (table.pendingDeletes session).map PrimaryIndex.content) ++
        (table.pendingInserts session).map PrimaryIndex.content) := by
  have once :=
    (shared.commit opened).contents_nodup (by rwa [commit_columns])
      (by rwa [commit_nextKey]) other
  have kept :=
    (shared.contents_nodup columns limit other).filter fun content =>
      content ∉ (table.pendingDeletes session).map PrimaryIndex.content
  have onceToo :=
    kept.append (shared.sound.content_pendingInserts_nodup session) <| by
      intro content left inserted
      rcases List.mem_map.1 inserted with ⟨change, member, rfl⟩
      exact
        shared.content_pendingInserts_not_mem columns limit opened differs
          member (List.mem_of_mem_filter left)
  refine (List.perm_ext_iff_of_nodup once onceToo).2 ?_
  rintro ⟨key, values⟩
  rw [shared.mem_contents_commit columns limit opened differs, List.mem_append,
    List.mem_filter, decide_eq_true_eq]

/-! ## Everything that a commit does -/

/-- What a commit of a session makes of a table. -/
structure CommitsTo (table : Table) (session : Session) (later : Table) :
    Prop where
  /-- Exactly the changes of the other sessions are left. -/
  changes : later.primary.pending.rows =
    table.primary.pending.rows.filter fun change => change.owner != session
  grid : later.primary.grid = table.primary.grid
  memoryUse : later.memoryUse = table.memoryUse
  storedRowCount : later.storedRowCount = table.storedRowCount
  secondary : later.secondary = table.secondary
  /-- The session sees the same rows in the same order, and as many. -/
  own : later.contents session = table.contents session ∧
    later.rowCount session = table.rowCount session
  /-- What it had deleted was in the sight of other sessions. -/
  deleted : ∀ other, other ≠ session →
    ∀ change ∈ table.pendingDeletes session,
      PrimaryIndex.content change ∈ table.contents other
  /-- What it had inserted was not. -/
  inserted : ∀ other, other ≠ session →
    ∀ change ∈ table.pendingInserts session,
      PrimaryIndex.content change ∉ table.contents other
  /-- Other sessions lose the deletes from sight and gain the inserts. -/
  others : ∀ other, other ≠ session →
    (later.contents other).Perm
      (((table.contents other).filter fun content =>
          content ∉ (table.pendingDeletes session).map PrimaryIndex.content) ++
        (table.pendingInserts session).map PrimaryIndex.content)

theorem Shared.commitsTo (shared : table.Shared)
    (columns : table.columns ≠ []) (limit : table.primary.nextKey < 2 ^ 64)
    (opened : session ≠ noSession) :
    table.CommitsTo session (table.commit session).2 where
  changes := by
    rw [commit_snd]
    exact shared.sound.coherent.ordered.rows_settled shared.versioned session
  grid := by rw [commit_snd]; rfl
  memoryUse := by rw [commit_snd]; rfl
  storedRowCount := by rw [commit_snd]; rfl
  secondary := by rw [commit_snd]; rfl
  own :=
    ⟨shared.contents_commit_self columns limit opened,
      shared.rowCount_commit_self session⟩
  deleted := fun _ differs _ member =>
    shared.content_pendingDeletes_mem columns limit differs member
  inserted := fun _ differs _ member =>
    shared.content_pendingInserts_not_mem columns limit opened differs member
  others := fun _ differs =>
    shared.contents_commit_other columns limit opened differs

/--
In every table with changes that wait for a commit which a run from a new one
reaches, a commit of a session tells the number of its changes and does what it
should.  A second commit leaves the table as it is, and two sessions can commit
in either order.
-/
theorem commit_effect_of_run (id : TableId) (schema : Schema)
    (config : Config) (versioned : config.versioned = true)
    (columns : schema.columns ≠ []) (actions : List Action)
    (sessions : Obeys BySession (create id schema config) actions)
    (limits : Obeys KeysFit (create id schema config) actions)
    (table : Table) (reached : (create id schema config).run actions = table)
    (session : Session) (opened : session ≠ noSession) (later : Table)
    (committed : (table.commit session).2 = later) :
    (table.commit session).1 =
        (table.primary.pending.rows.countP fun change =>
          change.owner == session) ∧
      table.CommitsTo session later ∧
      later.commit session = (0, later) ∧
      ∀ other, (later.commit other).2.Alike
        ((table.commit other).2.commit session).2 := by
  have new := Shared.create id schema versioned
  have shared := new.run sessions limits
  have kept := new.sound.run_columns limits
  have keysFit := limits.nextKey_lt (Nat.two_pow_pos 64)
  rw [reached] at shared kept keysFit
  subst committed
  refine ⟨?_, ?_, ?_, ?_⟩
  · exact List.countP_eq_length_filter.symm
  · exact shared.commitsTo (kept ▸ columns) keysFit opened
  · exact
      commit_of_pendingOf_nil
        (shared.sound.pendingOf_commit shared.versioned session)
  · exact shared.commit_comm session

/-- The first session sees the row of the second come and the other one go. -/
theorem commit_effect_of_sample_run :
    (((create 1 sampleSchema sampleConfig).run
        (sampleActions.take 5)).commit 2).1 = 2 ∧
      ((((create 1 sampleSchema sampleConfig).run
        (sampleActions.take 5)).commit 2).2.contents 1).Perm
          [(1, [.int 8])] := by
  rcases commit_effect_of_run 1 sampleSchema sampleConfig rfl
      (List.cons_ne_nil _ _) (sampleActions.take 5) (by decide +kernel)
      (by decide +kernel) _ rfl 2 (by decide) _ rfl with
    ⟨counted, effect, -, -⟩
  rw [counted]
  refine ⟨by decide +kernel, (effect.others 1 (by decide)).trans ?_⟩
  decide +kernel

end Table

end VersionedColumns
