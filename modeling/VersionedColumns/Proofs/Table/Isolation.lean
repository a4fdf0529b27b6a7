import VersionedColumns.Proofs.Table.RowCounts

/-!
# What a session sees of the work of others

Inserts, removals and rollbacks of one session leave the values that another
one sees and its row count alone, with one exception: a removal of what the
other session has inserted without committing.  It takes the row from the scan
of its owner and leaves the row count of its owner as it was.

The main statement says that there is no further exception.
-/

namespace VersionedColumns

theorem filterMap_getElem?_range {Item : Type} (items : List Item) :
    (List.range items.length).filterMap (items[·]?) = items := by
  induction items with
  | nil => rfl
  | cons item rest induction =>
      rw [List.length_cons, List.range_succ_eq_map, List.filterMap_cons,
        List.filterMap_map]
      exact congrArg (item :: ·) induction

namespace Standing

theorem seen_inserted_of_ne {session other : Session} (values : List Value)
    (opened : other ≠ noSession) (differs : other ≠ session) :
    (inserted other values).seen session = none := by
  rw [seen, if_neg]
  rintro (none | same)
  · exact opened none
  · exact differs same

/-- A removal by another session hides nothing but a session's own insert. -/
theorem seen_removedBy {session other : Session} {standing : Standing}
    (differs : other ≠ session)
    (owned : standing.owner? ≠ some noSession)
    (spared : standing.insertedBy session = none) :
    (standing.removedBy other).seen session = standing.seen session := by
  cases standing with
  | absent | deleted owner values => rfl
  | committed values => exact if_neg differs
  | inserted owner values =>
      have opened : owner ≠ noSession := fun same => owned (congrArg some same)
      have foreign : owner ≠ session := by
        intro own
        simp [insertedBy, own] at spared
      exact (seen_inserted_of_ne values opened foreign).symm

/-- A rollback of another session hides what that session has deleted. -/
theorem seen_undoneFor_or_deletedBy {session other : Session}
    {standing : Standing} (differs : other ≠ session)
    (opened : other ≠ noSession) :
    ((standing.undoneFor other).seen session).or (standing.deletedBy other) =
      standing.seen session := by
  cases standing with
  | absent | committed values => rfl
  | inserted owner values =>
      by_cases own : owner = other
      · simp [undoneFor, owner?, own, seen, deletedBy, opened, differs]
      · simp [undoneFor, owner?, own, deletedBy]
  | deleted owner values =>
      by_cases own : owner = other
      · simp [undoneFor, owner?, own, seen, deletedBy, differs]
      · simp [undoneFor, owner?, own, deletedBy]

theorem undoneFor_or_deletedBy_apart (session other : Session)
    (standing : Standing) :
    (standing.undoneFor other).seen session = none ∨
      standing.deletedBy other = none := by
  cases standing with
  | absent | committed values | inserted owner values => exact Or.inr rfl
  | deleted owner values =>
      by_cases own : owner = other
      · simp [undoneFor, owner?, own, seen]
      · simp [deletedBy, own]

end Standing

namespace PrimaryIndex

/-- The values that a session sees, in the order of their keys. -/
def valuesSeenBy (index : PrimaryIndex) (session : Session) :
    List (List Value) :=
  (List.range index.nextKey).filterMap fun key =>
    (index.standing key).seen session

theorem map_snd_seenBy (index : PrimaryIndex) (session : Session) :
    (index.seenBy session).map Prod.snd = index.valuesSeenBy session := by
  rw [seenBy, List.map_filterMap, valuesSeenBy]
  apply List.filterMap_congr
  intro key member
  cases (index.standing key).seen session <;> rfl

end PrimaryIndex

namespace Table

/-- The values that a scan of a session yields. -/
def scannedValues (table : Table) (session : Session) : List (List Value) :=
  (table.scanned session).map Row.values

theorem Shared.scannedValues_perm {table : Table} (shared : table.Shared)
    (columns : table.columns ≠ []) (limit : table.primary.nextKey < 2 ^ 64)
    (session : Session) :
    (table.scannedValues session).Perm (table.primary.valuesSeenBy session) := by
  have perm :=
    (shared.scanned_perm columns limit session).map Prod.snd
  rw [PrimaryIndex.map_snd_seenBy, List.map_map] at perm
  exact perm

/-! ## Views of other sessions -/

variable {table : Table} {session other : Session}

theorem Shared.valuesSeenBy_withRow (shared : table.Shared)
    {values : List Value} (fits : Fits table.columns values)
    (opened : other ≠ noSession) (differs : other ≠ session) :
    (table.withRow other values).primary.valuesSeenBy session =
      table.primary.valuesSeenBy session := by
  have stands := shared.sound.standing_withRow shared.versioned fits other
  have next : (table.withRow other values).primary.nextKey =
      table.primary.nextKey + 1 := rfl
  have old : (List.range table.primary.nextKey).filterMap (fun key =>
      ((table.withRow other values).primary.standing key).seen session) =
        table.primary.valuesSeenBy session := by
    apply List.filterMap_congr
    intro key member
    rw [stands, if_neg (Nat.ne_of_lt (List.mem_range.1 member))]
  have last : ((table.withRow other values).primary.standing
      table.primary.nextKey).seen session = none := by
    rw [stands, if_pos rfl]
    exact Standing.seen_inserted_of_ne values opened differs
  rw [PrimaryIndex.valuesSeenBy, next, List.range_succ, List.filterMap_append,
    old, List.filterMap_cons, last]
  exact List.append_nil _

theorem Shared.valuesSeenBy_withoutRow (shared : table.Shared) {row : Row}
    (found : table.liveRow? row.key = some row) (differs : other ≠ session)
    (spared :
      (table.primary.standing row.key).insertedBy session = none) :
    (table.withoutRow other row).primary.valuesSeenBy session =
      table.primary.valuesSeenBy session := by
  have stands := shared.sound.standing_withoutRow shared.versioned found other
  apply List.filterMap_congr
  intro key member
  rw [stands]
  split
  · rename_i same
    subst same
    exact Standing.seen_removedBy differs (shared.owned row.key) spared
  · rfl

/-- A removal of a session's own insert takes its values from its view. -/
theorem Shared.valuesSeenBy_of_insert_removed (shared : table.Shared)
    {row : Row} (found : table.liveRow? row.key = some row)
    {values : List Value}
    (inserted : table.primary.standing row.key = .inserted session values) :
    (table.primary.valuesSeenBy session).Perm
      (values :: (table.withoutRow other row).primary.valuesSeenBy session) := by
  have stands := shared.sound.standing_withoutRow shared.versioned found other
  have inside : row.key ∈ List.range table.primary.nextKey :=
    List.mem_range.2 (Grid.lt_nextKey_of_isLive (liveRow?_eq_some found).1)
  have split := List.perm_cons_erase inside
  have seen : (table.primary.standing row.key).seen session = some values := by
    rw [inserted]
    exact if_pos (Or.inr rfl)
  have gone : ((table.withoutRow other row).primary.standing row.key).seen
      session = none := by
    rw [stands, if_pos rfl, inserted]
    rfl
  have others :
      ((List.range table.primary.nextKey).erase row.key).filterMap (fun key =>
          ((table.withoutRow other row).primary.standing key).seen session) =
        ((List.range table.primary.nextKey).erase row.key).filterMap fun key =>
          (table.primary.standing key).seen session := by
    apply List.filterMap_congr
    intro key member
    have differs : key ≠ row.key :=
      (List.nodup_range.mem_erase_iff.1 member).1
    rw [stands, if_neg differs]
  have before := split.filterMap fun key =>
    (table.primary.standing key).seen session
  have after := split.filterMap fun key =>
    ((table.withoutRow other row).primary.standing key).seen session
  rw [List.filterMap_cons, seen] at before
  rw [List.filterMap_cons, gone, others] at after
  exact before.trans (List.Perm.cons values after.symm)

theorem Shared.valuesSeenBy_rolledBack (shared : table.Shared)
    (limit : (table.rollback other).2.primary.nextKey < 2 ^ 64)
    (opened : other ≠ noSession) (differs : other ≠ session) :
    ((table.rolledBack other).primary.valuesSeenBy session).Perm
      (table.primary.valuesSeenBy session) := by
  have stands := shared.sound.standing_rolledBack other limit
  have next := table.rolledBack_nextKey other
  rw [shared.sound.deletedValues_pendingOf] at next
  have old : (List.range table.primary.nextKey).filterMap (fun key =>
      ((table.rolledBack other).primary.standing key).seen session) =
        (List.range table.primary.nextKey).filterMap fun key =>
          ((table.primary.standing key).undoneFor other).seen session := by
    apply List.filterMap_congr
    intro key member
    rw [stands, if_pos (List.mem_range.1 member)]
  have new : (List.range (table.primary.deletedBy other).length).filterMap
      (fun position => ((table.rolledBack other).primary.standing
        (table.primary.nextKey + position)).seen session) =
          table.primary.deletedBy other := by
    refine Eq.trans ?_ (filterMap_getElem?_range _)
    apply List.filterMap_congr
    intro position member
    rw [stands, if_neg (Nat.not_lt.2 (Nat.le_add_right _ _)),
      Nat.add_sub_cancel_left]
    cases (table.primary.deletedBy other)[position]? <;> rfl
  have merged :=
    filterMap_append_perm fun key (_ : key ∈ List.range table.primary.nextKey) =>
      Standing.undoneFor_or_deletedBy_apart session other
        (table.primary.standing key)
  simp only [Standing.seen_undoneFor_or_deletedBy differs opened] at merged
  rw [PrimaryIndex.valuesSeenBy, next, List.range_add, List.filterMap_append,
    old, List.filterMap_map]
  simp only [Function.comp_def]
  rw [new]
  exact merged

/-! ## Row counts of other sessions -/

/-- The row count of a session over all changes but those of the others. -/
def ownRowCount (table : Table) (session : Session) : Int :=
  table.primary.rowCount - table.primary.pending.foreign session

theorem signedRowCount_eq_ownRowCount
    (limit : table.primary.rowCount < 2 ^ 63) (session : Session) :
    table.signedRowCount session = table.ownRowCount session := by
  rw [signedRowCount, PendingChanges.signedCount_of_lt limit, ownRowCount,
    PendingChanges.foreign]
  abel

theorem Shared.ownRowCount_withRow (shared : table.Shared)
    (values : List Value) (differs : other ≠ session) :
    (table.withRow other values).ownRowCount session =
      table.ownRowCount session := by
  have counted :
      (table.withRow other values).primary.pending.foreign session =
        table.primary.pending.foreign session + 1 :=
    PendingChanges.foreign_record shared.versioned differs 1 _
  have stored : (table.withRow other values).primary.rowCount =
      table.primary.rowCount + 1 := rfl
  rw [ownRowCount, counted, stored, ownRowCount]
  push_cast
  abel

theorem Shared.ownRowCount_withoutRow (shared : table.Shared) {row : Row}
    (found : table.liveRow? row.key = some row) (differs : other ≠ session) :
    (table.withoutRow other row).ownRowCount session =
      table.ownRowCount session := by
  have counted :
      (table.withoutRow other row).primary.pending.foreign session =
        table.primary.pending.foreign session - 1 :=
    PendingChanges.foreign_record shared.versioned differs (-1) _
  have positive := shared.sound.rowCount_pos found
  have stored : (table.withoutRow other row).primary.rowCount =
      table.primary.rowCount - 1 := rfl
  rw [ownRowCount, counted, stored, ownRowCount, Nat.cast_sub positive]
  push_cast
  abel

theorem ownRowCount_commitRow (versioned : table.primary.versioned = true)
    (kind : ChangeKind) {row : Row} (differs : row.owner ≠ session) :
    (table.commitRow kind row).ownRowCount session =
      table.ownRowCount session - kind.reversal := by
  have counted :
      (table.commitRow kind row).primary.pending.foreign session =
        table.primary.pending.foreign session + kind.reversal :=
    PendingChanges.foreign_commit versioned kind differs
  have kept : (table.commitRow kind row).primary.rowCount =
      table.primary.rowCount := rfl
  rw [ownRowCount, counted, kept, ownRowCount]
  abel

/-- Undoing a delete counts its row twice and back, for all other sessions. -/
theorem Shared.ownRowCount_undone (shared : table.Shared) {change : Row}
    (member : change ∈ table.primary.pending.rows) (own : change.owner = other)
    (limit : table.primary.nextKey < 2 ^ 64) (differs : other ≠ session) :
    (table.undone other change).ownRowCount session =
      table.ownRowCount session := by
  rw [undone]
  split
  · have versioned :
        (table.withRow other change.values).primary.versioned = true :=
      (PrimaryIndex.withRow_versioned _ _ _).trans shared.versioned
    have foreign :
        (table.primary.nextRow other change.values).owner ≠ session := by
      rw [PrimaryIndex.nextRow_eq shared.versioned]
      exact differs
    have still :=
      (table.restored_versioned other change.values).trans shared.versioned
    rw [ownRowCount_commitRow still .delete (own ▸ differs), restored,
      ownRowCount_commitRow versioned .insert foreign,
      shared.ownRowCount_withRow change.values differs]
    change table.ownRowCount session - (-1) - 1 = table.ownRowCount session
    abel
  · rename_i mark
    have insert : change.deleted = false := by simpa using mark
    exact
      shared.ownRowCount_withoutRow
        (shared.sound.liveRow?_of_pending limit member insert) differs

theorem Shared.ownRowCount_rolledBack (shared : table.Shared)
    (limit : (table.rollback other).2.primary.nextKey < 2 ^ 64)
    (opened : other ≠ noSession) (differs : other ≠ session) :
    (table.rolledBack other).ownRowCount session =
      table.ownRowCount session := by
  refine
    Sound.undoing
      (motive := fun changes table =>
        table.Shared →
          (changes.foldl (fun table change => table.undone other change)
            table).ownRowCount session = table.ownRowCount session)
      ?_ ?_ shared.sound rfl limit shared
  · intro table _ _ _
    rfl
  · intro table change rest sound member own limit _ later shared
    have steps := sound.steps_undone member own limit
    exact
      (later (shared.steps opened steps)).trans
        (shared.ownRowCount_undone member own limit differs)

/-! ## Isolation and its exception -/

/-- The call is not meant to change what other sessions see. -/
def Action.isPrivate : Action → Bool
  | .commit _ | .truncate | .discard => false
  | .insert .. | .remove .. | .rollback _ | .addIndex .. | .dropIndex ..
  | .renameIndex .. | .close => true

/-- A removal of what a session has inserted without committing. -/
def RemovesInsertOf (table : Table) (session : Session) (action : Action) :
    Prop :=
  ∃ other key, action = .remove other key ∧
    ∃ change ∈ table.primary.pending.row? key,
      change.deleted = false ∧ change.owner = session

/-- A call that removes no insert of a session leaves its view as it was. -/
theorem Shared.view_after (shared : table.Shared) {action : Action}
    (opened : BySession table action) (limit : KeysFit table action)
    (foreign : action.session? ≠ some session)
    (quiet : action.isPrivate = true)
    (spared : ¬table.RemovesInsertOf session action) :
    ((table.after action).primary.valuesSeenBy session).Perm
        (table.primary.valuesSeenBy session) ∧
      (table.after action).ownRowCount session = table.ownRowCount session := by
  have effect := shared.sound.perform_effect action limit
  generalize (table.perform action).1 = answer at effect
  generalize table.after action = later at effect ⊢
  cases effect with
  | refused error => exact ⟨List.Perm.refl _, rfl⟩
  | inserted fits =>
      have differs := fun same => foreign (congrArg some same)
      have opened := fun same => opened (congrArg some same)
      rw [shared.valuesSeenBy_withRow fits opened differs]
      exact ⟨List.Perm.refl _, shared.ownRowCount_withRow _ differs⟩
  | removed found =>
      rename_i other key row
      have differs := fun same => foreign (congrArg some same)
      have same := (liveRow?_eq_some found).2.1
      subst same
      have none :
          (table.primary.standing row.key).insertedBy session = none := by
        cases stands : table.primary.standing row.key with
        | absent | committed values | deleted owner values => rfl
        | inserted owner values =>
            rcases PrimaryIndex.row?_of_standing_inserted stands with
              ⟨change, pending, mark, rfl⟩
            exact
              if_neg fun own =>
                spared ⟨other, row.key, rfl, change, pending, mark, own⟩
      rw [shared.valuesSeenBy_withoutRow found differs none]
      exact ⟨List.Perm.refl _, shared.ownRowCount_withoutRow found differs⟩
  | rolledBack steps =>
      have differs := fun same => foreign (congrArg some same)
      have opened := fun same => opened (congrArg some same)
      exact
        ⟨shared.valuesSeenBy_rolledBack limit opened differs,
          shared.ownRowCount_rolledBack limit opened differs⟩
  | indexAdded inside accepted | indexDropped found | indexRenamed | closed =>
      exact ⟨List.Perm.refl _, rfl⟩
  | committed steps | truncated | discarded => cases quiet

/-- A removal of a session's insert takes a row out of its view. -/
theorem Shared.view_after_removesInsert (shared : table.Shared)
    {action : Action} (limit : KeysFit table action)
    (removes : table.RemovesInsertOf session action) :
    ¬((table.after action).primary.valuesSeenBy session).Perm
      (table.primary.valuesSeenBy session) := by
  rcases removes with ⟨other, key, rfl, change, pending, insert, rfl⟩
  rcases PendingChanges.mem_rows_of_row? pending with ⟨member, rfl⟩
  have room : table.primary.nextKey < 2 ^ 64 :=
    (table.remove_nextKey other change.key).symm.trans_lt limit
  have found := shared.sound.liveRow?_of_pending room member insert
  have removed : table.after (.remove other change.key) =
      table.withoutRow other change := by
    rw [Table.after, perform, shared.sound.remove_eq found]
  have stands : table.primary.standing change.key =
      .inserted change.owner change.values := by
    rw [PrimaryIndex.standing_of_row?_some pending, insert]
    rfl
  have shorter : List.Perm _ (change.values ::
      (table.withoutRow other change).primary.valuesSeenBy change.owner) :=
    shared.valuesSeenBy_of_insert_removed found stands
  intro perm
  rw [removed] at perm
  have lengths := (perm.trans shorter).length_eq
  rw [List.length_cons] at lengths
  exact absurd lengths (Nat.ne_of_lt (Nat.lt_succ_self _))

/--
A call of another session that is not meant to show leaves the values that a
session sees and its row count as they were, exactly if it does not remove
what the session has inserted without committing.
-/
theorem view_unchanged_iff (id : TableId) (schema : Schema) (config : Config)
    (versioned : config.versioned = true) (columns : schema.columns ≠ [])
    (actions : List Action)
    (sessions : Obeys BySession (create id schema config) actions)
    (limits : Obeys KeysFit (create id schema config) actions)
    (table : Table) (reached : (create id schema config).run actions = table)
    (action : Action) (opened : BySession table action)
    (limit : KeysFit table action)
    (countFits : table.primary.rowCount < 2 ^ 63)
    (countStillFits : (table.after action).primary.rowCount < 2 ^ 63)
    (session : Session) (foreign : action.session? ≠ some session)
    (quiet : action.isPrivate = true) :
    ((table.after action).scannedValues session).Perm
          (table.scannedValues session) ∧
        (table.after action).rowCount session = table.rowCount session ↔
      ¬table.RemovesInsertOf session action := by
  have new := Shared.create id schema versioned
  have shared := new.run sessions limits
  have kept := new.sound.run_columns limits
  have keysFit := limits.nextKey_lt (Nat.two_pow_pos 64)
  rw [reached] at shared kept keysFit
  have later := shared.after opened limit
  have named : table.columns ≠ [] := kept ▸ columns
  have stillNamed : (table.after action).columns ≠ [] :=
    (shared.sound.after_frame action limit).1 ▸ named
  have seen := shared.scannedValues_perm named keysFit session
  have seenLater := later.scannedValues_perm stillNamed limit session
  constructor
  · rintro ⟨same, -⟩ removes
    exact
      shared.view_after_removesInsert limit removes
        (seenLater.symm.trans (same.trans seen))
  · intro spared
    rcases shared.view_after opened limit foreign quiet spared with
      ⟨same, counted⟩
    refine ⟨seenLater.trans (same.trans seen.symm), ?_⟩
    rw [later.rowCount_eq, shared.rowCount_eq,
      signedRowCount_eq_ownRowCount countStillFits,
      signedRowCount_eq_ownRowCount countFits, counted]

/-- The first session still sees its row when the second one rolls back. -/
theorem view_unchanged_by_sample_rollback :
    (((create 1 sampleSchema sampleConfig).run
          (sampleActions.take 6)).scannedValues 1).Perm
        (((create 1 sampleSchema sampleConfig).run
          (sampleActions.take 5)).scannedValues 1) ∧
      ((create 1 sampleSchema sampleConfig).run
          (sampleActions.take 6)).rowCount 1 = 1 := by
  have same :=
    (view_unchanged_iff 1 sampleSchema sampleConfig rfl (List.cons_ne_nil _ _)
      (sampleActions.take 5) (by decide +kernel) (by decide +kernel) _ rfl
      (.rollback 2) (by decide +kernel) (by decide +kernel) (by decide +kernel)
      (by decide +kernel) 1 (by decide +kernel) rfl).2
      (by rintro ⟨_, _, ⟨⟩, _⟩)
  refine ⟨same.1, same.2.trans ?_⟩
  decide +kernel

/-- Without the exception the statement is wrong. -/
theorem not_isolated_from_removals :
    ¬∀ (id : TableId) (schema : Schema) (config : Config)
        (actions : List Action) (session other : Session) (action : Action),
        config.versioned = true → schema.columns ≠ [] →
        Obeys BySession (create id schema config) actions →
        session ≠ noSession → other ≠ noSession → session ≠ other →
        action.session? = some other → action.isPrivate = true →
        ((((create id schema config).run actions).after action).scannedValues
              session).Perm
            (((create id schema config).run actions).scannedValues session) ∧
          (((create id schema config).run actions).after action).rowCount
              session =
            ((create id schema config).run actions).rowCount session := by
  intro isolated
  have same :=
    (isolated 1 sampleSchema sampleConfig [.insert 1 [.int 7]] 1 2 (.remove 2 0)
      rfl (List.cons_ne_nil _ _) (by decide +kernel) (by decide) (by decide)
      (by decide) rfl rfl).1
  have before : ((create 1 sampleSchema sampleConfig).run
      [.insert 1 [.int 7]]).scannedValues 1 = [[.int 7]] := by
    decide +kernel
  have after : (((create 1 sampleSchema sampleConfig).run
      [.insert 1 [.int 7]]).after (.remove 2 0)).scannedValues 1 = [] := by
    decide +kernel
  rw [before, after] at same
  exact absurd same.length_eq (by decide)

end Table

end VersionedColumns
