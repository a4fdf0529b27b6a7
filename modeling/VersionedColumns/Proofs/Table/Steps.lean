import Mathlib.Logic.Relation
import VersionedColumns.Proofs.Table.Sound

/-!
# Commit and rollback in steps

A commit and a rollback change the rows of a sound table in steps of three
kinds: a row is stored, an uncommitted insert of the session is taken back, or
a pending change is settled.  So whatever every step preserves is preserved by
both.  A rollback of a sound table never fails.

No call takes a key back except those that forget all rows.
-/

namespace VersionedColumns

namespace PrimaryIndex

theorem nextKey_le_insert (index : PrimaryIndex) (session : Session)
    (row : Row) :
    index.nextKey ≤ (index.insert session row).2.nextKey := by
  by_cases fitting : row.values.length = index.grid.columns.length
  · rw [insert, Grid.append_of_length_eq fitting]
    exact Nat.le_succ _
  · rw [insert, Grid.append_of_length_ne fitting]

theorem remove_nextKey (index : PrimaryIndex) (session : Session) (row : Row) :
    (index.remove session row).2.nextKey = index.nextKey := by
  cases live : index.grid.isLive row.key with
  | false => rw [remove, Grid.remove_of_not_isLive live]
  | true => rw [remove_of_isLive live, withoutRow_nextKey]

theorem insert_columns_length (index : PrimaryIndex) (session : Session)
    (row : Row) :
    (index.insert session row).2.grid.columns.length =
      index.grid.columns.length := by
  by_cases fitting : row.values.length = index.grid.columns.length
  · rw [insert, Grid.append_of_length_eq fitting]
    exact Grid.appended_columns_length fitting
  · rw [insert, Grid.append_of_length_ne fitting]

theorem remove_columns_length (index : PrimaryIndex) (session : Session)
    (row : Row) :
    (index.remove session row).2.grid.columns.length =
      index.grid.columns.length := by
  cases live : index.grid.isLive row.key with
  | false => rw [remove, Grid.remove_of_not_isLive live]
  | true =>
      rw [remove_of_isLive live]
      exact Grid.without_columns_length _ _

end PrimaryIndex

namespace Table

/-! ## Keys are never taken back -/

theorem nextKey_le_insert (table : Table) (session : Session)
    (values : List Value) :
    table.primary.nextKey ≤ (table.insert session values).2.primary.nextKey := by
  rw [insert]
  split
  · split
    · exact Nat.le_refl _
    · rename_i converted _
      have grows :=
        table.primary.nextKey_le_insert session (Row.ofValues converted)
      split <;> (rename_i stored; rw [stored] at grows; exact grows)
  · exact Nat.le_refl _

theorem remove_nextKey (table : Table) (session : Session) (key : Key) :
    (table.remove session key).2.primary.nextKey = table.primary.nextKey := by
  rw [remove]
  split
  · rfl
  · split
    · rfl
    · exact table.primary.remove_nextKey session _

/--
What inserts, settled changes and removals of some keys preserve, an undo does
too if only the inserts of these keys are among the changes.
-/
theorem undo_preserve_of {motive : Table → Prop} (removed : Key → Prop)
    (insert : ∀ {table : Table} (session : Session) (values : List Value),
      motive table → motive (table.insert session values).2)
    (remove : ∀ {table : Table} (session : Session) (key : Key), removed key →
      motive table → motive (table.remove session key).2)
    (settle : ∀ {table : Table} (kind : ChangeKind) (row : Row),
      motive table → motive (table.commitRow kind row))
    {table : Table} (session : Session) (change : Row)
    (allowed : change.changeKind = .insert → removed change.key)
    (holds : motive table) :
    motive (table.undo session change).2 := by
  rw [undo]
  split
  · rename_i kind
    exact remove session change.key (allowed kind) holds
  · have later := insert session change.values holds
    split
    · rename_i refused
      rw [refused] at later
      exact later
    · rename_i stored
      rw [stored] at later
      split
      · exact later
      · exact settle .delete change (settle .insert _ later)

theorem undoEach_preserve_of {motive : Table → Prop} (removed : Key → Prop)
    (insert : ∀ {table : Table} (session : Session) (values : List Value),
      motive table → motive (table.insert session values).2)
    (remove : ∀ {table : Table} (session : Session) (key : Key), removed key →
      motive table → motive (table.remove session key).2)
    (settle : ∀ {table : Table} (kind : ChangeKind) (row : Row),
      motive table → motive (table.commitRow kind row))
    (session : Session) (changes : List Row)
    (allowed : ∀ change ∈ changes,
      change.changeKind = .insert → removed change.key)
    {table : Table} (holds : motive table) :
    motive (undoEach session changes table).2 := by
  induction changes generalizing table with
  | nil => exact holds
  | cons change rest induction =>
      have later :=
        undo_preserve_of removed insert remove settle session change
          (allowed change List.mem_cons_self) holds
      rw [undoEach]
      split
      · rename_i refused
        rw [refused] at later
        exact later
      · rename_i undone
        rw [undone] at later
        exact
          induction
            (fun other member => allowed other (List.mem_cons_of_mem _ member))
            later

/-- What inserts, removals and settled changes preserve, an undo does too. -/
theorem undo_preserve {motive : Table → Prop}
    (insert : ∀ {table : Table} (session : Session) (values : List Value),
      motive table → motive (table.insert session values).2)
    (remove : ∀ {table : Table} (session : Session) (key : Key),
      motive table → motive (table.remove session key).2)
    (settle : ∀ {table : Table} (kind : ChangeKind) (row : Row),
      motive table → motive (table.commitRow kind row))
    {table : Table} (session : Session) (change : Row) (holds : motive table) :
    motive (table.undo session change).2 :=
  undo_preserve_of (fun _ => True) insert
    (fun session key _ => remove session key) settle session change
    (fun _ => trivial) holds

theorem undoEach_preserve {motive : Table → Prop}
    (insert : ∀ {table : Table} (session : Session) (values : List Value),
      motive table → motive (table.insert session values).2)
    (remove : ∀ {table : Table} (session : Session) (key : Key),
      motive table → motive (table.remove session key).2)
    (settle : ∀ {table : Table} (kind : ChangeKind) (row : Row),
      motive table → motive (table.commitRow kind row))
    (session : Session) (changes : List Row) {table : Table}
    (holds : motive table) :
    motive (undoEach session changes table).2 :=
  undoEach_preserve_of (fun _ => True) insert
    (fun session key _ => remove session key) settle session changes
    (fun _ _ _ => trivial) holds

theorem nextKey_le_undo (table : Table) (session : Session) (change : Row) :
    table.primary.nextKey ≤ (table.undo session change).2.primary.nextKey :=
  undo_preserve
    (motive := fun later => table.primary.nextKey ≤ later.primary.nextKey)
    (fun session values grown =>
      Nat.le_trans grown (nextKey_le_insert _ session values))
    (fun session key grown =>
      Nat.le_trans grown (Nat.le_of_eq (remove_nextKey _ session key).symm))
    (fun _ _ grown => grown) session change (Nat.le_refl _)

theorem nextKey_le_undoEach (session : Session) (changes : List Row)
    (table : Table) :
    table.primary.nextKey ≤
      (undoEach session changes table).2.primary.nextKey :=
  undoEach_preserve
    (motive := fun later => table.primary.nextKey ≤ later.primary.nextKey)
    (fun session values grown =>
      Nat.le_trans grown (nextKey_le_insert _ session values))
    (fun session key grown =>
      Nat.le_trans grown (Nat.le_of_eq (remove_nextKey _ session key).symm))
    (fun _ _ grown => grown) session changes (Nat.le_refl _)

/-! ## Rows by their standing -/

/-- A row is read as its key stands. -/
theorem Sound.row_eq {table : Table} (sound : table.Sound)
    (limit : table.primary.nextKey < 2 ^ 64) {key : Key}
    (inside : key < table.primary.nextKey) :
    table.row key = .ok ((table.primary.standing key).row key) := by
  have notLast := PrimaryIndex.ne_tombstoneKey_of_lt inside limit
  rw [row, sound.coherent.row?_eq inside notLast]

theorem row_of_le {table : Table} {key : Key}
    (outside : table.primary.nextKey ≤ key) :
    table.row key = .error (.rowNotFound key) := by
  rw [row, PrimaryIndex.row?_eq_none_iff.2 outside]

/-- A live row is read as its key stands. -/
theorem Sound.liveRow?_eq {table : Table} (sound : table.Sound)
    (limit : table.primary.nextKey < 2 ^ 64) (key : Key) :
    table.liveRow? key =
      ((table.primary.standing key).stored?).map fun _ =>
        (table.primary.standing key).row key := by
  by_cases inside : key < table.primary.nextKey
  · have notLast := PrimaryIndex.ne_tombstoneKey_of_lt inside limit
    rw [liveRow?, sound.coherent.row?_eq inside notLast]
    cases table.primary.standing key with
    | absent | deleted owner values => rfl
    | committed values | inserted owner values =>
        simp [Standing.row, Standing.stored?, Row.stored, Row.isTombstone, notLast]
  · have outside : table.primary.nextKey ≤ key := Nat.le_of_not_lt inside
    rw [liveRow?, PrimaryIndex.row?_eq_none_iff.2 outside,
      sound.coherent.standing_of_le outside]
    rfl

/-- A pending insert is the live row at its key. -/
theorem Sound.liveRow?_of_pending {table : Table} (sound : table.Sound)
    (limit : table.primary.nextKey < 2 ^ 64) {change : Row}
    (member : change ∈ table.primary.pending.rows)
    (insert : change.deleted = false) :
    table.liveRow? change.key = some change := by
  have found := sound.coherent.ordered.row?_key member
  rw [sound.liveRow?_eq limit, PrimaryIndex.standing_of_row?_some found, insert]
  rcases change with ⟨key, values, deleted, owner⟩
  cases insert
  rfl

/-! ## The three kinds of steps -/

/-- A step of a commit or a rollback of a session. -/
inductive Step (session : Session) : Table → Table → Prop
  /-- A row that fits is stored. -/
  | stored {table : Table} {values : List Value}
      (fits : Fits table.columns values) :
      Step session table (table.withRow session values)
  /-- An uncommitted insert of the session is removed again. -/
  | takenBack {table : Table} {change : Row}
      (found : table.liveRow? change.key = some change)
      (member : change ∈ table.primary.pending.rows)
      (own : change.owner = session) :
      Step session table (table.withoutRow session change)
  /-- A pending change counts for every session. -/
  | settled {table : Table} {change : Row}
      (member : change ∈ table.primary.pending.rows) :
      Step session table (table.commitRow change.changeKind change)

/-- Any number of steps of a session. -/
abbrev Steps (session : Session) : Table → Table → Prop :=
  Relation.ReflTransGen (Step session)

theorem Sound.step {session : Session} {table later : Table}
    (sound : table.Sound) (step : Step session table later) :
    later.Sound := by
  cases step with
  | stored fits => exact sound.withRow fits session
  | takenBack found member own => exact sound.withoutRow found session
  | settled member => exact sound.commitRow _ _

theorem Sound.steps {session : Session} {table later : Table}
    (sound : table.Sound) (steps : Steps session table later) :
    later.Sound := by
  induction steps with
  | refl => exact sound
  | tail _ step induction => exact induction.step step

/-- Whatever holds of sound tables before a step and after it survives all. -/
theorem Steps.preserve {motive : Table → Prop} {session : Session}
    (preserve : ∀ {table later : Table}, table.Sound → motive table →
      Step session table later → motive later)
    {table later : Table} (steps : Steps session table later)
    (sound : table.Sound) (holds : motive table) :
    motive later := by
  induction steps with
  | refl => exact holds
  | tail before step induction =>
      exact preserve (sound.steps before) induction step

/-! ## Commit -/

/-- Changes of different keys are settled one after the other. -/
theorem steps_foldl_commitRow {session : Session} {changes : List Row}
    {table : Table}
    (ordered : changes.Pairwise fun first second => first.key < second.key)
    (pending : ∀ change ∈ changes, change ∈ table.primary.pending.rows) :
    Steps session table
      (changes.foldl
        (fun table change => table.commitRow change.changeKind change) table) := by
  induction changes generalizing table with
  | nil => exact Relation.ReflTransGen.refl
  | cons change rest induction =>
      rcases List.pairwise_cons.1 ordered with ⟨behind, ordered⟩
      have first : Step session table
          (table.commitRow change.changeKind change) :=
        Step.settled (pending change List.mem_cons_self)
      refine (Relation.ReflTransGen.single first).trans (induction ordered ?_)
      intro other member
      exact
        PendingChanges.mem_commit_rows_of_ne
          (pending other (List.mem_cons_of_mem _ member))
          (Nat.ne_of_gt (behind other member))

/-- A commit is made of steps. -/
theorem Sound.steps_commit {table : Table} (sound : table.Sound)
    (session : Session) :
    Steps session table (table.commit session).2 :=
  steps_foldl_commitRow
    (List.Pairwise.filter _ sound.coherent.ordered)
    fun _ member => List.mem_of_mem_filter member

theorem Sound.commit {table : Table} (sound : table.Sound)
    (session : Session) :
    (table.commit session).2.Sound :=
  sound.steps (sound.steps_commit session)

/-! ## Undoing one change -/

@[simp]
theorem commitRow_versioned (table : Table) (kind : ChangeKind) (row : Row) :
    (table.commitRow kind row).primary.versioned = table.primary.versioned :=
  PendingChanges.commit_recorded _ _ _

theorem commitRow_row? {table : Table}
    (versioned : table.primary.versioned = true) (kind : ChangeKind) (row : Row)
    (key : Key) :
    (table.commitRow kind row).primary.pending.row? key =
      if key = row.key then none else table.primary.pending.row? key :=
  PendingChanges.commit_row? versioned kind row key

/-- Changes are pending only where they wait for a commit. -/
theorem Sound.versioned_of_mem {table : Table} (sound : table.Sound)
    {change : Row} (member : change ∈ table.primary.pending.rows) :
    table.primary.versioned = true := by
  cases versioned : table.primary.versioned with
  | true => rfl
  | false =>
      rw [sound.coherent.unrecorded versioned] at member
      cases member

/-- The table with one more row, which is committed at once. -/
def restored (table : Table) (session : Session) (values : List Value) : Table :=
  (table.withRow session values).commitRow .insert
    (table.primary.nextRow session values)

@[simp]
theorem restored_versioned (table : Table) (session : Session)
    (values : List Value) :
    (table.restored session values).primary.versioned =
      table.primary.versioned :=
  (commitRow_versioned _ _ _).trans (PrimaryIndex.withRow_versioned _ _ _)

/-- A row that is committed at once leaves the pending changes as they were. -/
theorem Sound.row?_restored {table : Table} (sound : table.Sound)
    (versioned : table.primary.versioned = true) (session : Session)
    (values : List Value) (key : Key) :
    (table.restored session values).primary.pending.row? key =
      table.primary.pending.row? key := by
  have stored := sound.coherent.row?_withRow versioned session values key
  have settled : (table.restored session values).primary.pending.row? key =
      if key = table.primary.nextKey then none
      else (table.withRow session values).primary.pending.row? key :=
    commitRow_row? ((PrimaryIndex.withRow_versioned _ _ _).trans versioned)
      .insert (table.primary.nextRow session values) key
  rw [settled]
  split
  · rename_i last
    rw [last]
    exact (sound.coherent.row?_eq_none_of_le (Nat.le_refl _)).symm
  · rename_i differs
    exact stored.trans (if_neg differs)

theorem Sound.standing_restored {table : Table} (sound : table.Sound)
    (versioned : table.primary.versioned = true) {values : List Value}
    (fits : Fits table.columns values) (session : Session) (key : Key) :
    (table.restored session values).primary.standing key =
      if key = table.primary.nextKey then .committed values
      else table.primary.standing key := by
  have fitting : values.length = table.primary.grid.columns.length :=
    fits.length_eq.trans sound.width.symm
  have stored := sound.coherent.standing_withRow versioned fitting session key
  have settled : (table.restored session values).primary.standing key =
      if key = table.primary.nextKey then
        ((table.withRow session values).primary.standing key).settled
      else (table.withRow session values).primary.standing key :=
    (sound.withRow fits session).coherent.standing_commit
      ((PrimaryIndex.withRow_versioned _ _ _).trans versioned) .insert
      (table.primary.nextRow session values) key
  change (table.withRow session values).primary.standing key = _ at stored
  rw [settled, stored]
  split <;> rfl

/-- The table after one pending change of a session is undone. -/
def undone (table : Table) (session : Session) (change : Row) : Table :=
  if change.deleted then
    (table.restored session change.values).commitRow .delete change
  else table.withoutRow session change

theorem undone_nextKey (table : Table) (session : Session) (change : Row) :
    (table.undone session change).primary.nextKey =
      if change.deleted then table.primary.nextKey + 1
      else table.primary.nextKey := by
  rw [undone]
  split <;> rfl

/-- A row that is stored again reads as its session's insert. -/
theorem Sound.row_withRow {table : Table} (sound : table.Sound)
    (versioned : table.primary.versioned = true) {values : List Value}
    (fits : Fits table.columns values) (session : Session)
    (limit : table.primary.nextKey + 1 < 2 ^ 64) :
    (table.withRow session values).row table.primary.nextKey =
      .ok (table.primary.nextRow session values) := by
  have inside : table.primary.nextKey <
      (table.withRow session values).primary.nextKey := Nat.lt_succ_self _
  have read := (sound.withRow fits session).row_eq limit inside
  rw [sound.standing_withRow versioned fits, if_pos rfl] at read
  rw [read, PrimaryIndex.nextRow_eq versioned]
  rfl

/-- To undo a pending change of a sound table always succeeds. -/
theorem Sound.undo_eq {table : Table} (sound : table.Sound)
    {session : Session} {change : Row}
    (member : change ∈ table.primary.pending.rows)
    (limit : (table.undo session change).2.primary.nextKey < 2 ^ 64) :
    table.undo session change = (.ok (), table.undone session change) := by
  cases mark : change.deleted with
  | false =>
      have kind : change.changeKind = .insert := by
        simp [Row.changeKind, mark]
      have before :=
        Nat.lt_of_le_of_lt (table.nextKey_le_undo session change) limit
      have found := sound.liveRow?_of_pending before member mark
      rw [undo, kind, undone, mark]
      simp only [sound.remove_eq found]
      rfl
  | true =>
      have kind : change.changeKind = .delete := by
        simp [Row.changeKind, mark]
      have fits := sound.changes_fit change member
      have stored :=
        sound.insert_eq fits.length_eq (convert_of_fits fits) session
      have room : table.primary.nextKey + 1 < 2 ^ 64 := by
        rw [undo, kind] at limit
        simp only [stored] at limit
        split at limit <;> exact limit
      have read :=
        sound.row_withRow (sound.versioned_of_mem member) fits session room
      rw [undo, kind, undone, mark]
      simp only [stored, read]
      rfl

/-- A change that is undone is no longer pending, and all others still are. -/
theorem Sound.row?_undone {table : Table} (sound : table.Sound)
    {session : Session} {change : Row}
    (member : change ∈ table.primary.pending.rows) (key : Key) :
    (table.undone session change).primary.pending.row? key =
      if key = change.key then none else table.primary.pending.row? key := by
  have versioned := sound.versioned_of_mem member
  have found := sound.coherent.ordered.row?_key member
  rw [undone]
  split
  · have stillVersioned :
        (table.restored session change.values).primary.versioned = true :=
      (table.restored_versioned session change.values).trans versioned
    rw [commitRow_row? stillVersioned, sound.row?_restored versioned]
  · have removed := sound.coherent.row?_withoutRow versioned session change key
    refine removed.trans ?_
    split
    · rename_i same
      rw [same, found]
    · rfl

/-- Undoing a change takes it from the pending ones of its session. -/
theorem Sound.pendingOf_undone {table : Table} (sound : table.Sound)
    {session : Session} {change : Row} {rest : List Row}
    (later : (table.undone session change).Sound)
    (pending : table.pendingOf session = change :: rest) :
    (table.undone session change).pendingOf session = rest := by
  have member : change ∈ table.primary.pending.rows :=
    List.mem_of_mem_filter (pending ▸ List.mem_cons_self)
  have left :=
    sound.coherent.ordered.rows_eq_filter later.coherent.ordered
      (sound.row?_undone member)
  have ordered : (change :: rest).Pairwise fun first second =>
      first.key < second.key :=
    pending ▸ List.Pairwise.filter _ sound.coherent.ordered
  rw [pendingOf, PendingChanges.ownedBy, left, List.filter_filter]
  simp only [Bool.and_comm]
  rw [← List.filter_filter]
  change (table.pendingOf session).filter _ = rest
  rw [pending, List.filter_cons_of_neg (by simp), List.filter_eq_self]
  intro other otherMember
  simpa using Nat.ne_of_gt ((List.pairwise_cons.1 ordered).1 other otherMember)

theorem Sound.steps_undone {table : Table} (sound : table.Sound)
    {session : Session} {change : Row}
    (member : change ∈ table.primary.pending.rows)
    (own : change.owner = session)
    (limit : table.primary.nextKey < 2 ^ 64) :
    Steps session table (table.undone session change) := by
  have versioned := sound.versioned_of_mem member
  have found := sound.coherent.ordered.row?_key member
  rw [undone]
  split
  · rename_i mark
    have kind : change.changeKind = .delete := by
      simp [Row.changeKind, mark]
    have added :=
      sound.coherent.row?_withRow versioned session change.values
        table.primary.nextKey
    rw [if_pos rfl] at added
    have kept := sound.row?_restored versioned session change.values change.key
    rw [found] at kept
    have stored : Steps session table (table.withRow session change.values) :=
      Relation.ReflTransGen.single
        (Step.stored (sound.changes_fit change member))
    have restored : Steps session table (table.restored session change.values) :=
      stored.tail (Step.settled (PendingChanges.mem_rows_of_row? added).1)
    rw [← kind]
    exact restored.tail (Step.settled (PendingChanges.mem_rows_of_row? kept).1)
  · rename_i mark
    have insert : change.deleted = false := by simpa using mark
    exact
      Relation.ReflTransGen.single
        (Step.takenBack (sound.liveRow?_of_pending limit member insert) member own)

/-- What undoing a change makes of every key. -/
theorem Sound.standing_undone {table : Table} (sound : table.Sound)
    {session : Session} {change : Row}
    (member : change ∈ table.primary.pending.rows) (key : Key) :
    (table.undone session change).primary.standing key =
      if key = change.key then .absent
      else if change.deleted = true ∧ key = table.primary.nextKey then
        .committed change.values
      else table.primary.standing key := by
  have versioned := sound.versioned_of_mem member
  have found := sound.coherent.ordered.row?_key member
  have inside := sound.coherent.key_lt member
  have stands := PrimaryIndex.standing_of_row?_some found
  rw [undone]
  cases mark : change.deleted with
  | false =>
      rcases (sound.coherent.agrees found).of_insert mark with ⟨live, values⟩
      have removed :=
        sound.coherent.standing_withoutRow versioned live values session key
      rw [mark] at stands
      simp only [Bool.false_eq_true, if_false, false_and] at stands ⊢
      refine removed.trans ?_
      split
      · rename_i same
        rw [same, stands]
        rfl
      · rfl
  | true =>
      have fits := sound.changes_fit change member
      have restored := sound.standing_restored versioned fits session key
      have settled :=
        ((sound.withRow fits session).commitRow .insert
            (table.primary.nextRow session change.values)).coherent.standing_commit
          ((table.restored_versioned session change.values).trans versioned)
          .delete change key
      rw [mark] at stands
      simp only [if_true, true_and] at stands ⊢
      refine settled.trans ?_
      change (if _ then (Standing.settled
        ((table.restored session change.values).primary.standing key))
        else (table.restored session change.values).primary.standing key) = _
      rw [restored]
      by_cases same : key = change.key
      · have differs : key ≠ table.primary.nextKey :=
          same ▸ Nat.ne_of_lt inside
        rw [if_pos same, if_pos same, if_neg differs, same, stands]
        rfl
      · rw [if_neg same, if_neg same]

/-! ## Rollback -/

/--
What every single undone change carries over holds after all of them: each
change is still pending when its turn comes, and undoing it succeeds.
-/
theorem Sound.undoing {session : Session} {motive : List Row → Table → Prop}
    (done : ∀ {table : Table}, table.Sound →
      table.pendingOf session = [] → motive [] table)
    (undo : ∀ {table : Table} {change : Row} {rest : List Row},
      table.Sound → change ∈ table.primary.pending.rows →
      change.owner = session → table.primary.nextKey < 2 ^ 64 →
      table.undo session change = (.ok (), table.undone session change) →
      motive rest (table.undone session change) → motive (change :: rest) table)
    {changes : List Row} {table : Table} (sound : table.Sound)
    (pending : table.pendingOf session = changes)
    (limit :
      (undoEach session changes table).2.primary.nextKey < 2 ^ 64) :
    motive changes table := by
  induction changes generalizing table with
  | nil => exact done sound pending
  | cons change rest induction =>
      have listed : change ∈ table.pendingOf session :=
        pending ▸ List.mem_cons_self
      rcases List.mem_filter.1 listed with ⟨member, own⟩
      have before :=
        Nat.lt_of_le_of_lt
          (nextKey_le_undoEach session (change :: rest) table) limit
      have once :
          (table.undo session change).2.primary.nextKey < 2 ^ 64 := by
        rw [undoEach] at limit
        split at limit
        · rename_i refused
          rw [refused]
          exact limit
        · rename_i undone
          rw [undone]
          exact Nat.lt_of_le_of_lt (nextKey_le_undoEach session rest _) limit
      have undone := sound.undo_eq member once
      have own : change.owner = session := by simpa using own
      have later : (table.undone session change).Sound :=
        sound.steps (sound.steps_undone member own before)
      rw [undoEach, undone] at limit
      exact
        undo sound member own before undone
          (induction later (sound.pendingOf_undone later pending) limit)

/-- The table after all pending changes of a session are undone. -/
def rolledBack (table : Table) (session : Session) : Table :=
  (table.pendingOf session).foldl
    (fun table change => table.undone session change) table

/-- A rollback of a sound table succeeds. -/
theorem Sound.rollback_eq {table : Table} (sound : table.Sound)
    (session : Session)
    (limit : (table.rollback session).2.primary.nextKey < 2 ^ 64) :
    table.rollback session =
      (.ok (table.pendingOf session).length, table.rolledBack session) := by
  have all :
      undoEach session (table.pendingOf session) table =
        (.ok (), table.rolledBack session) :=
    Sound.undoing
      (motive := fun changes table =>
        undoEach session changes table =
          (.ok (), changes.foldl
            (fun table change => table.undone session change) table))
      (fun _ _ => rfl)
      (fun _ _ _ _ undone rest => by rw [undoEach, undone]; exact rest)
      sound rfl limit
  rw [rollback, all]
  rfl

/-- A rollback of a sound table is made of steps. -/
theorem Sound.steps_rollback {table : Table} (sound : table.Sound)
    (session : Session)
    (limit : (table.rollback session).2.primary.nextKey < 2 ^ 64) :
    Steps session table (table.rollback session).2 := by
  rw [sound.rollback_eq session limit]
  exact
    Sound.undoing
      (motive := fun changes table =>
        Steps session table (changes.foldl
          (fun table change => table.undone session change) table))
      (fun _ _ => Relation.ReflTransGen.refl)
      (fun sound member own limit _ rest =>
        (sound.steps_undone member own limit).trans rest)
      sound rfl limit

theorem Sound.rollback {table : Table} (sound : table.Sound)
    (session : Session)
    (limit : (table.rollback session).2.primary.nextKey < 2 ^ 64) :
    (table.rollback session).2.Sound :=
  sound.steps (sound.steps_rollback session limit)

end Table

end VersionedColumns
