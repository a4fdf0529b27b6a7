import VersionedColumns.Proofs.Index.View
import VersionedColumns.Proofs.PendingChanges.Settling
import VersionedColumns.Proofs.Table.Runs

/-!
# What a transaction ends in

A commit settles every key that stands for a change of its session and alters
no other.  A rollback leaves nothing under those keys and stores the rows that
the session had deleted once more, committed, under the next keys and in the
order of their old ones.
-/

namespace VersionedColumns

namespace Standing

/-- What a commit of a session makes of a key. -/
def settledFor (session : Session) (standing : Standing) : Standing :=
  if standing.owner? = some session then standing.settled else standing

/-- What a rollback of a session makes of a key. -/
def undoneFor (session : Session) (standing : Standing) : Standing :=
  if standing.owner? = some session then absent else standing

/-- The values that a session has inserted under a key without committing. -/
def insertedBy (session : Session) : Standing → Option (List Value)
  | inserted owner values => if owner = session then some values else none
  | absent | committed _ | deleted _ _ => none

/-- The values that a session has deleted under a key without committing. -/
def deletedBy (session : Session) : Standing → Option (List Value)
  | deleted owner values => if owner = session then some values else none
  | _ => none

theorem settled_settled (standing : Standing) :
    standing.settled.settled = standing.settled := by
  cases standing <;> rfl

theorem undoneFor_of_owner? {session : Session} {standing : Standing}
    (other : standing.owner? ≠ some session) :
    standing.undoneFor session = standing := by
  rw [undoneFor, if_neg other]

theorem owner?_settledFor_ne (session : Session) (standing : Standing) :
    (standing.settledFor session).owner? ≠ some session := by
  rw [settledFor]
  split
  · cases standing <;> exact nofun
  · assumption

theorem owner?_undoneFor_ne (session : Session) (standing : Standing) :
    (standing.undoneFor session).owner? ≠ some session := by
  rw [undoneFor]
  split
  · exact nofun
  · assumption

end Standing

namespace PrimaryIndex

/-- The rows a session has deleted without committing, in order of their keys. -/
def deletedBy (index : PrimaryIndex) (session : Session) : List (List Value) :=
  (List.range index.nextKey).filterMap fun key =>
    (index.standing key).deletedBy session

/-- The owner of the change to a key is the one its standing tells. -/
theorem owner?_standing (index : PrimaryIndex) (key : Key) :
    (index.standing key).owner? = (index.pending.row? key).map Row.owner := by
  cases found : index.pending.row? key with
  | none =>
      rw [standing_of_row?_none found]
      cases index.grid.isLive key <;> rfl
  | some change =>
      rw [standing_of_row?_some found]
      cases change.deleted <;> rfl

end PrimaryIndex

namespace Table

/-- The keys of a session's changes are those that stand for a change of it. -/
theorem Sound.mem_keys_pendingOf {table : Table} (sound : table.Sound)
    {session : Session} {key : Key} :
    key ∈ (table.pendingOf session).map Row.key ↔
      (table.primary.standing key).owner? = some session := by
  rw [PrimaryIndex.owner?_standing]
  simp only [pendingOf, PendingChanges.ownedBy, List.mem_map, List.mem_filter,
    beq_iff_eq, Option.map_eq_some_iff, sound.coherent.ordered.row?_eq_some_iff]
  constructor
  · rintro ⟨change, ⟨member, own⟩, same⟩
    exact ⟨change, ⟨member, same⟩, own⟩
  · rintro ⟨change, ⟨member, same⟩, own⟩
    exact ⟨change, ⟨member, own⟩, same⟩

/-- A session's changes in order are at the keys that stand for one of it. -/
theorem Sound.keys_pendingOf {table : Table} (sound : table.Sound)
    (session : Session) :
    (table.pendingOf session).map Row.key =
      (List.range table.primary.nextKey).filter fun key =>
        (table.primary.standing key).owner? = some session := by
  have ordered : ((table.pendingOf session).map Row.key).Pairwise (· < ·) := by
    rw [List.pairwise_map]
    exact List.Pairwise.filter _ sound.coherent.ordered
  refine List.Pairwise.eq_of_mem_iff ordered
    (List.Pairwise.filter _ List.pairwise_lt_range) ?_
  intro key
  rw [sound.mem_keys_pendingOf, List.mem_filter, List.mem_range,
    decide_eq_true_eq]
  constructor
  · intro owned
    refine ⟨sound.coherent.lt_nextKey_of_standing fun absent => ?_, owned⟩
    rw [absent] at owned
    cases owned
  · exact And.right

/-! ## Commit -/

/-- The table with other uncommitted changes. -/
def withPending (table : Table) (pending : PendingChanges) : Table :=
  { table with primary := { table.primary with pending := pending } }

theorem foldl_commitRow_eq (table : Table) (changes : List Row) :
    changes.foldl
        (fun table change => table.commitRow change.changeKind change) table =
      table.withPending (table.primary.pending.commitEach changes) := by
  induction changes generalizing table with
  | nil => rfl
  | cons change rest induction => exact induction (table.commitRow _ change)

/-- A commit alters the pending changes and nothing else. -/
theorem commit_snd (table : Table) (session : Session) :
    (table.commit session).2 =
      table.withPending (table.primary.pending.settled session) :=
  table.foldl_commitRow_eq _

@[simp]
theorem commit_columns (table : Table) (session : Session) :
    (table.commit session).2.columns = table.columns := by
  rw [commit_snd]
  rfl

@[simp]
theorem commit_nextKey (table : Table) (session : Session) :
    (table.commit session).2.primary.nextKey = table.primary.nextKey := by
  rw [commit_snd]
  rfl

theorem Sound.standing_foldl_commitRow {changes : List Row} {table : Table}
    (sound : table.Sound) (versioned : table.primary.versioned = true)
    (key : Key) :
    (changes.foldl
        (fun table change => table.commitRow change.changeKind change)
        table).primary.standing key =
      if key ∈ changes.map Row.key then (table.primary.standing key).settled
      else table.primary.standing key := by
  induction changes generalizing table with
  | nil => rfl
  | cons change rest induction =>
      have first :=
        sound.coherent.standing_commit versioned change.changeKind change key
      change (table.commitRow change.changeKind change).primary.standing key = _
        at first
      rw [List.foldl_cons,
        induction (sound.commitRow _ _)
          ((commitRow_versioned _ _ _).trans versioned),
        first, List.map_cons]
      by_cases same : key = change.key
      -- a key of two changes is settled twice
      · simp [same, Standing.settled_settled]
      · simp [same]

/-- A commit settles the keys that stand for changes of its session. -/
theorem Sound.standing_commit {table : Table} (sound : table.Sound)
    (versioned : table.primary.versioned = true) (session : Session)
    (key : Key) :
    (table.commit session).2.primary.standing key =
      (table.primary.standing key).settledFor session := by
  refine (sound.standing_foldl_commitRow versioned key).trans ?_
  exact if_congr sound.mem_keys_pendingOf rfl rfl

/-- A session without keys that stand for its changes has no changes. -/
theorem Sound.pendingOf_eq_nil {table : Table} (sound : table.Sound)
    {session : Session}
    (settled : ∀ key,
      (table.primary.standing key).owner? ≠ some session) :
    table.pendingOf session = [] := by
  rw [← List.map_eq_nil_iff, List.eq_nil_iff_forall_not_mem]
  intro key member
  exact settled key (sound.mem_keys_pendingOf.1 member)

theorem Sound.pendingOf_commit {table : Table} (sound : table.Sound)
    (versioned : table.primary.versioned = true) (session : Session) :
    (table.commit session).2.pendingOf session = [] := by
  apply (sound.commit session).pendingOf_eq_nil
  intro key
  rw [sound.standing_commit versioned]
  exact Standing.owner?_settledFor_ne session _

/-! ## Rollback -/

/-- The values of the deletes among changes. -/
def deletedValues (changes : List Row) : List (List Value) :=
  changes.filterMap fun change =>
    if change.deleted then some change.values else none

theorem deletedValues_cons (change : Row) (changes : List Row) :
    deletedValues (change :: changes) =
      if change.deleted then change.values :: deletedValues changes
      else deletedValues changes := by
  rw [deletedValues, List.filterMap_cons]
  cases change.deleted <;> rfl

/-- A session's deletes in order are those that the keys stand for. -/
theorem Sound.deletedValues_pendingOf {table : Table} (sound : table.Sound)
    (session : Session) :
    deletedValues (table.pendingOf session) = table.primary.deletedBy session := by
  rw [pendingOf, PendingChanges.ownedBy,
    sound.coherent.ordered.rows_eq_filterMap fun _ member =>
      sound.coherent.key_lt member,
    deletedValues, List.filter_filterMap, List.filterMap_filterMap,
    PrimaryIndex.deletedBy]
  apply List.filterMap_congr
  intro key member
  cases found : table.primary.pending.row? key with
  | none =>
      rw [PrimaryIndex.standing_of_row?_none found]
      cases table.primary.grid.isLive key <;> rfl
  | some change =>
      rw [PrimaryIndex.standing_of_row?_some found]
      by_cases own : change.owner = session
      · cases mark : change.deleted <;>
          simp [Option.filter, own, mark, Standing.deletedBy]
      · cases mark : change.deleted <;>
          simp [Option.filter, own, Standing.deletedBy]

theorem rolledBack_nextKey (table : Table) (session : Session) :
    (table.rolledBack session).primary.nextKey =
      table.primary.nextKey +
        (deletedValues (table.pendingOf session)).length := by
  rw [rolledBack]
  generalize table.pendingOf session = changes
  induction changes generalizing table with
  | nil => rfl
  | cons change rest induction =>
      rw [List.foldl_cons, induction, undone_nextKey, deletedValues_cons]
      split
      · rw [List.length_cons, Nat.add_assoc, Nat.add_comm 1]
      · rfl

/-- A rollback clears its session's keys and stores its deletes behind all. -/
theorem Sound.standing_rolledBack {table : Table} (sound : table.Sound)
    (session : Session)
    (limit : (table.rollback session).2.primary.nextKey < 2 ^ 64) (key : Key) :
    (table.rolledBack session).primary.standing key =
      if key < table.primary.nextKey then
        (table.primary.standing key).undoneFor session
      else
        ((table.primary.deletedBy session)[key - table.primary.nextKey]?).elim
          .absent .committed := by
  rw [← sound.deletedValues_pendingOf session]
  refine
    Sound.undoing
      (motive := fun changes table =>
        (changes.foldl (fun table change => table.undone session change)
            table).primary.standing key =
          if key < table.primary.nextKey then
            (table.primary.standing key).undoneFor session
          else
            ((deletedValues changes)[key - table.primary.nextKey]?).elim
              .absent .committed)
      ?_ ?_ sound rfl limit
  · intro table sound idle
    have other : (table.primary.standing key).owner? ≠ some session := by
      rw [ne_eq, ← sound.mem_keys_pendingOf, idle]
      exact List.not_mem_nil
    change table.primary.standing key = _
    rw [Standing.undoneFor_of_owner? other]
    split
    · rfl
    · rename_i outside
      exact sound.coherent.standing_of_le (Nat.le_of_not_lt outside)
  · intro table change rest sound member own _ _ later
    have inside := sound.coherent.key_lt member
    have found := sound.coherent.ordered.row?_key member
    have cleared :
        (table.primary.standing change.key).undoneFor session = .absent := by
      rw [Standing.undoneFor, PrimaryIndex.owner?_standing, found, ← own]
      exact if_pos rfl
    have once : (table.undone session change).primary.standing key = _ :=
      sound.standing_undone member key
    rw [List.foldl_cons, later, undone_nextKey, deletedValues_cons, once]
    rcases Nat.lt_trichotomy key table.primary.nextKey with below | last | above
    · have stillBelow : key < table.primary.nextKey + 1 := Nat.lt_succ_of_lt below
      have differs : ¬(change.deleted = true ∧ key = table.primary.nextKey) :=
        fun both => Nat.ne_of_lt below both.2
      rw [if_pos (by split <;> assumption), if_pos below, if_neg differs]
      split
      · rename_i same
        rw [same, cleared]
        rfl
      · rfl
    · have differs : key ≠ change.key :=
        last ▸ Nat.ne_of_gt inside
      subst last
      rw [if_neg differs]
      split
      · rename_i mark
        simp [mark, Standing.undoneFor, Standing.owner?]
      · simp
    · have differs : key ≠ change.key :=
        Nat.ne_of_gt (Nat.lt_trans inside above)
      have behind : ¬key < table.primary.nextKey := Nat.lt_asymm above
      rw [if_neg differs, if_neg behind]
      split
      · have position : key - table.primary.nextKey =
            (key - (table.primary.nextKey + 1)) + 1 := by
          grind
        rw [if_neg (Nat.not_lt.2 above), position, List.getElem?_cons_succ]
      · rfl

theorem Sound.pendingOf_rollback {table : Table} (sound : table.Sound)
    (session : Session)
    (limit : (table.rollback session).2.primary.nextKey < 2 ^ 64) :
    (table.rollback session).2.pendingOf session = [] := by
  apply (sound.rollback session limit).pendingOf_eq_nil
  intro key
  rw [sound.rollback_eq session limit, sound.standing_rolledBack session limit]
  split
  · exact Standing.owner?_undoneFor_ne session _
  · cases (table.primary.deletedBy session)[key - table.primary.nextKey]? <;>
      exact nofun

/-- A rollback leaves exactly the changes of the other sessions. -/
theorem Sound.rows_rolledBack {table : Table} (sound : table.Sound)
    (session : Session)
    (limit : (table.rollback session).2.primary.nextKey < 2 ^ 64) :
    (table.rolledBack session).primary.pending.rows =
      table.primary.pending.rows.filter fun change => change.owner != session := by
  refine
    Sound.undoing
      (motive := fun changes table =>
        (changes.foldl (fun table change => table.undone session change)
            table).primary.pending.rows =
          table.primary.pending.rows.filter fun change =>
            change.owner != session)
      ?_ ?_ sound rfl limit
  · intro table _ idle
    have foreign := List.filter_eq_nil_iff.1 idle
    symm
    rw [List.foldl_nil, List.filter_eq_self]
    intro change member
    simpa using foreign change member
  · intro table change rest sound member own limit _ later
    have undone : (table.undone session change).Sound :=
      sound.steps (sound.steps_undone member own limit)
    have left :=
      sound.coherent.ordered.rows_eq_filter undone.coherent.ordered
        (sound.row?_undone member)
    rw [List.foldl_cons, later, left, List.filter_filter]
    apply List.filter_congr
    intro other otherMember
    by_cases same : other.key = change.key
    · have equal : other = change := by
        have found := sound.coherent.ordered.row?_key otherMember
        rw [same, sound.coherent.ordered.row?_key member] at found
        exact (Option.some.inj found).symm
      simp [equal, own]
    · simp [same]

/-! ## Columns -/

/-- The columns of a table, and how many columns its cells have. -/
def shape (table : Table) : List Column × Nat :=
  (table.columns, table.primary.grid.columns.length)

theorem insert_shape (table : Table) (session : Session)
    (values : List Value) :
    (table.insert session values).2.shape = table.shape := by
  rw [insert]
  split
  · split
    · rfl
    · rename_i converted _
      have kept :=
        table.primary.insert_columns_length session (Row.ofValues converted)
      split <;>
        (rename_i stored
         rw [stored] at kept
         exact congrArg (Prod.mk table.columns) kept)
  · rfl

theorem remove_shape (table : Table) (session : Session) (key : Key) :
    (table.remove session key).2.shape = table.shape := by
  rw [remove]
  split
  · rfl
  · rename_i row _
    split
    · rfl
    · exact
        congrArg (Prod.mk table.columns)
          (table.primary.remove_columns_length session row)

/-- No call alters the columns. -/
theorem after_shape (table : Table) (action : Action) :
    (table.after action).shape = table.shape := by
  cases action with
  | insert session values => exact table.insert_shape session values
  | remove session key => exact table.remove_shape session key
  | commit session =>
      change (table.commit session).2.shape = _
      rw [commit_snd]
      rfl
  | rollback session =>
      exact
        undoEach_preserve (motive := fun later => later.shape = table.shape)
          (fun session values same => (insert_shape _ session values).trans same)
          (fun session key same => (remove_shape _ session key).trans same)
          (fun _ _ same => same) session (table.pendingOf session) rfl
  | addIndex name column =>
      change (table.addIndex name column).2.shape = _
      rcases table.addIndex_cases name column with
        ⟨_, refused⟩ | ⟨_, _, _, -, -, added⟩
      · rw [refused]
      · rw [added]
        rfl
  | dropIndex name =>
      change (table.dropIndex name).2.shape = _
      rcases table.dropIndex_cases name with ⟨_, refused⟩ | ⟨-, dropped⟩
      · rw [refused]
      · rw [dropped]
        rfl
  | renameIndex name newName =>
      change (table.renameIndex name newName).2.shape = _
      rcases table.renameIndex_cases name newName with ⟨_, refused⟩ | renamed
      · rw [refused]
      · rw [renamed]
        rfl
  | close => rfl
  | truncate | discard =>
      exact
        congrArg (Prod.mk table.columns)
          (Grid.clear_columns_length table.primary.grid)

theorem run_shape (table : Table) (actions : List Action) :
    (table.run actions).shape = table.shape := by
  induction actions generalizing table with
  | nil => rfl
  | cons action rest induction =>
      exact (induction _).trans (table.after_shape action)

/-- A table that is discarded after any run is sound again. -/
theorem sound_discard_run (id : TableId) (schema : Schema) (config : Config)
    (actions : List Action) :
    ((create id schema config).run actions).discard.Sound := by
  have shape := (create id schema config).run_shape actions
  have columns := congrArg Prod.fst shape
  have width := congrArg Prod.snd shape
  refine sound_clear ?_ (by rintro index ⟨⟩)
  exact
    width.trans
      ((Sound.create id schema config).width.trans
        (congrArg List.length columns.symm))

end Table

end VersionedColumns
