import Mathlib.Data.List.TakeWhile
import VersionedColumns.Index.Cursor
import VersionedColumns.Proofs.Grid

/-!
# What a walk over the primary index yields

The live rows of a primary index, in the order of their keys, are one list.
The next row is the first one in what is left of that list.

So a scan has one list of rows ahead, and every move takes the first of them.
Where changes take effect at once these are the live rows.  Where they wait for
a commit, the main statement says that a scan yields exactly two filtered lists:
the changes that delete a row for other sessions only, and behind them the live
rows that its session sees.
-/

namespace VersionedColumns

namespace PrimaryIndex

/-- The row at a key, if it holds values. -/
def filledRow? (index : PrimaryIndex) (key : Key) : Option Row :=
  (index.row? key).filter holdsValues

/-- The live rows from a key on, in the order of their keys. -/
def rowsFrom (index : PrimaryIndex) (key : Key) : List Row :=
  (List.range' key (index.nextKey - key)).filterMap index.filledRow?

/-- The live rows in the order of their keys. -/
def liveRows (index : PrimaryIndex) : List Row :=
  (List.range index.nextKey).filterMap index.filledRow?

@[simp]
theorem rowsFrom_zero (index : PrimaryIndex) :
    index.rowsFrom 0 = index.liveRows := by
  rw [rowsFrom, liveRows, Nat.sub_zero, List.range_eq_range']

theorem length_rowsFrom_le (index : PrimaryIndex) (key : Key) :
    (index.rowsFrom key).length ≤ index.nextKey - key := by
  rw [rowsFrom]
  exact
    (List.length_filterMap_le _ _).trans_eq (List.length_range' ..)

theorem rowsFrom_of_le {index : PrimaryIndex} {key : Key}
    (outside : index.nextKey ≤ key) :
    index.rowsFrom key = [] := by
  rw [rowsFrom, Nat.sub_eq_zero_of_le outside]
  rfl

theorem rowsFrom_of_lt {index : PrimaryIndex} {key : Key}
    (inside : key < index.nextKey) :
    index.rowsFrom key =
      (index.filledRow? key).toList ++ index.rowsFrom (key + 1) := by
  have step : index.nextKey - key = (index.nextKey - (key + 1)) + 1 := by
    grind
  rw [rowsFrom, step, List.range'_succ, List.filterMap_cons, rowsFrom]
  cases index.filledRow? key <;> rfl

theorem mem_liveRows_of_mem_rowsFrom {index : PrimaryIndex} {key : Key}
    {row : Row} (member : row ∈ index.rowsFrom key) :
    row ∈ index.liveRows := by
  rcases List.mem_filterMap.1 member with ⟨other, inside, found⟩
  have below := (List.mem_range'_1.1 inside).2
  exact List.mem_filterMap.2 ⟨other, List.mem_range.2 (by grind), found⟩

@[simp]
theorem withOwner_key (index : PrimaryIndex) (key : Key) (row : Row) :
    (index.withOwner key row).key = row.key := by
  rw [withOwner]
  split
  · split <;> rfl
  · rfl

@[simp]
theorem withOwner_values (index : PrimaryIndex) (key : Key) (row : Row) :
    (index.withOwner key row).values = row.values := by
  rw [withOwner]
  split
  · split <;> rfl
  · rfl

@[simp]
theorem withOwner_deleted (index : PrimaryIndex) (key : Key) (row : Row) :
    (index.withOwner key row).deleted = row.deleted := by
  rw [withOwner]
  split
  · split <;> rfl
  · rfl

/-- The tombstone has no owner, whatever is pending. -/
@[simp]
theorem withOwner_tombstone (index : PrimaryIndex) (key : Key) :
    index.withOwner key Row.tombstone = Row.tombstone := by
  rw [withOwner]
  split
  · rw [if_neg (by simp)]
  · rfl

/-- A row with values is the stored one with the owner of its insert. -/
theorem filledRow?_eq_some {index : PrimaryIndex} {key : Key} {row : Row}
    (found : index.filledRow? key = some row) :
    row = index.withOwner key (Row.stored key (index.grid.cells key)) ∧
      row.isTombstone = false := by
  rcases Option.filter_eq_some_iff.1 found with ⟨read, holds⟩
  rcases Option.map_eq_some_iff.1 read with ⟨stored, storedFound, rfl⟩
  rw [Grid.row?] at storedFound
  split at storedFound
  · contradiction
  · split at storedFound
    · cases storedFound
      simp [holdsValues] at holds
    · cases storedFound
      rw [holdsValues, Bool.and_eq_true] at holds
      exact ⟨rfl, by simpa using holds.2⟩

/-- A live row carries the key under which it is found. -/
theorem key_of_filledRow? {index : PrimaryIndex} {key : Key} {row : Row}
    (found : index.filledRow? key = some row) :
    row.key = key := by
  rw [(filledRow?_eq_some found).1]
  exact withOwner_key index key _

theorem deleted_of_mem_liveRows {index : PrimaryIndex} {row : Row}
    (member : row ∈ index.liveRows) :
    row.deleted = false := by
  rcases List.mem_filterMap.1 member with ⟨key, -, found⟩
  rw [(filledRow?_eq_some found).1]
  exact withOwner_deleted index key _

theorem isTombstone_of_mem_liveRows {index : PrimaryIndex} {row : Row}
    (member : row ∈ index.liveRows) :
    row.isTombstone = false := by
  rcases List.mem_filterMap.1 member with ⟨key, -, found⟩
  exact (filledRow?_eq_some found).2

/-! ## Seeking -/

/--
A search finds the first of the live rows ahead, given any number of keys that
reaches behind the last one.
-/
theorem seek_eq_head? (index : PrimaryIndex) {key : Key} {keys : Nat}
    (enough : index.nextKey ≤ key + keys) :
    index.seek key keys = (index.rowsFrom key).head? := by
  induction keys generalizing key with
  | zero =>
      rw [Nat.add_zero] at enough
      rw [rowsFrom_of_le enough]
      rfl
  | succ keys induction =>
      rw [seek]
      cases read : index.row? key with
      | none =>
          rw [rowsFrom_of_le (row?_eq_none_iff.1 read)]
          rfl
      | some row =>
          have inside : key < index.nextKey := by
            rw [← Nat.not_le, ← row?_eq_none_iff, read]
            exact Option.some_ne_none row
          rw [rowsFrom_of_lt inside, induction (by grind)]
          by_cases holds : holdsValues row = true
          · have live : index.filledRow? key = some row := by
              rw [filledRow?, read, Option.filter_some_pos holds]
            simp [live, holds]
          · have dead : index.filledRow? key = none := by
              rw [filledRow?, read, Option.filter_some_neg (by simpa using holds)]
            simp [dead, holds]

/-- The next live row is the first of those behind. -/
theorem nextRow?_eq_head? (index : PrimaryIndex) (behind : Option Row) :
    index.nextRow? behind = (index.rowsFrom (keyAfter behind)).head? :=
  index.seek_eq_head? (Nat.sub_le_iff_le_add'.1 (Nat.le_refl _))

/-- Behind the first admitted row the walk goes on with the next key. -/
theorem filter_rowsFrom_of_cons {index : PrimaryIndex} {admits : Row → Bool}
    {key : Key} {row : Row} {rest : List Row}
    (split : (index.rowsFrom key).filter admits = row :: rest) :
    key ≤ row.key ∧ row.key < index.nextKey ∧
      rest = (index.rowsFrom (row.key + 1)).filter admits := by
  induction remaining : index.nextKey - key generalizing key with
  | zero =>
      rw [rowsFrom_of_le (Nat.le_of_sub_eq_zero remaining)] at split
      contradiction
  | succ keys induction =>
      have inside : key < index.nextKey := by grind
      have fewer : index.nextKey - (key + 1) = keys := by grind
      rw [rowsFrom_of_lt inside] at split
      cases live : index.filledRow? key with
      | none =>
          rw [live] at split
          rcases induction split fewer with ⟨behind, below, others⟩
          exact ⟨Nat.le_of_succ_le behind, below, others⟩
      | some first =>
          rw [live, Option.toList_some, List.singleton_append] at split
          cases admitted : admits first with
          | true =>
              rw [List.filter_cons_of_pos admitted] at split
              cases split
              have same := key_of_filledRow? live
              subst same
              exact ⟨Nat.le_refl _, inside, rfl⟩
          | false =>
              rw [List.filter_cons_of_neg (by simp [admitted])] at split
              rcases induction split fewer with ⟨behind, below, others⟩
              exact ⟨Nat.le_of_succ_le behind, below, others⟩

/-- Behind the next row the rows ahead are the others. -/
theorem rowsFrom_of_nextRow? {index : PrimaryIndex} {behind : Option Row}
    {row : Row} (next : index.nextRow? behind = some row) :
    keyAfter behind ≤ row.key ∧ row.key < index.nextKey ∧
      index.rowsFrom (keyAfter behind) =
        row :: index.rowsFrom (keyAfter (some row)) := by
  rw [nextRow?_eq_head?, List.head?_eq_some_iff] at next
  rcases next with ⟨rest, split⟩
  have all : (index.rowsFrom (keyAfter behind)).filter (fun _ => true) =
      row :: rest := by
    rw [List.filter_true, split]
  rcases filter_rowsFrom_of_cons all with ⟨later, below, others⟩
  rw [List.filter_true] at others
  exact ⟨later, below, others ▸ split⟩

theorem rowsFrom_of_nextRow?_none {index : PrimaryIndex} {behind : Option Row}
    (none : index.nextRow? behind = none) :
    index.rowsFrom (keyAfter behind) = [] := by
  rwa [nextRow?_eq_head?, List.head?_eq_none_iff] at none

end PrimaryIndex

/-! ## Scans -/

theorem filter_eq_nil_of_dropWhile {Item : Type} {keeps : Item → Bool}
    {items : List Item}
    (left : (items.dropWhile fun item => !keeps item) = []) :
    items.filter keeps = [] := by
  rw [List.filter_eq_nil_iff]
  intro item member
  simpa using List.dropWhile_eq_nil_iff.1 left item member

theorem filter_eq_cons_of_dropWhile {Item : Type} {keeps : Item → Bool}
    {first : Item} {items rest : List Item}
    (left : (items.dropWhile fun item => !keeps item) = first :: rest) :
    items.filter keeps = first :: rest.filter keeps := by
  induction items with
  | nil => contradiction
  | cons item items induction =>
      rw [List.dropWhile_cons] at left
      cases kept : keeps item with
      | true =>
          simp only [kept, Bool.not_true, Bool.false_eq_true, if_false] at left
          cases left
          exact List.filter_cons_of_pos kept
      | false =>
          simp only [kept, Bool.not_false, if_true] at left
          rw [List.filter_cons_of_neg (by simp [kept])]
          exact induction left

namespace Scan

open PrimaryIndex

/--
Going on to the next row until one is visible finds the first visible row among
the live rows ahead, given any number of rows that reaches behind the last one.
-/
theorem seekVisible_eq_find? (source : PrimaryIndex) (session : Session)
    {behind : Option Row} {rows : Nat}
    (enough : source.nextKey ≤ keyAfter behind + rows) :
    seekVisible source session behind rows =
      (source.rowsFrom (keyAfter behind)).find? fun row =>
        row.visibleTo session := by
  induction rows generalizing behind with
  | zero =>
      rw [Nat.add_zero] at enough
      rw [rowsFrom_of_le enough]
      rfl
  | succ rows induction =>
      rw [seekVisible]
      cases next : source.nextRow? behind with
      | none =>
          rw [rowsFrom_of_nextRow?_none next]
          rfl
      | some row =>
          rcases rowsFrom_of_nextRow? next with ⟨later, -, split⟩
          have fewer : source.nextKey ≤ keyAfter (some row) + rows := by
            rw [keyAfter]
            grind
          rw [split, List.find?_cons, ← induction fewer]
          cases seen : row.visibleTo session <;> simp [seen]

/-- The stored rows that a scan has ahead if it looks at their owners. -/
def storedAhead (scan : Scan) : List Row :=
  (scan.source.rowsFrom (keyAfter scan.current)).filter fun row =>
    row.visibleTo scan.session

/-- The rows that a scan has ahead where changes wait for a commit. -/
def versionedAhead (scan : Scan) : List Row :=
  match scan.stage with
  | .changes rest =>
    rest.filter (deletedElsewhere scan.session) ++
      scan.source.liveRows.filter fun row => row.visibleTo scan.session
  | .stored => scan.storedAhead
  | .finished => []

/-- The rows that a scan has ahead where changes take effect at once. -/
def immediateAhead (scan : Scan) : List Row :=
  match scan.stage with
  | .changes _ | .stored => scan.source.rowsFrom (keyAfter scan.current)
  | .finished => []

/-- All rows that a scan has ahead. -/
def ahead (scan : Scan) : List Row :=
  if scan.source.versioned then scan.versionedAhead else scan.immediateAhead

/-- The scan behind its last row. -/
def atEnd (scan : Scan) : Scan :=
  { scan with stage := .finished, current := none }

/-- A scan that is finished stands on no row. -/
def RestsAtEnd (scan : Scan) : Prop :=
  scan.stage = .finished → scan.current = none

/-- Before the first stored row all rows that the session sees are ahead. -/
theorem storedAhead_of_current_none {scan : Scan} (first : scan.current = none) :
    scan.storedAhead =
      scan.source.liveRows.filter fun row => row.visibleTo scan.session := by
  rw [storedAhead, first, keyAfter, rowsFrom_zero]

/-! ### One move where changes wait for a commit -/

/-- The bound on the search for a visible row is never reached. -/
theorem seekVisible_current (scan : Scan) :
    seekVisible scan.source scan.session scan.current
        (scan.source.nextKey - keyAfter scan.current) =
      scan.storedAhead.head? := by
  rw [storedAhead, List.head?_filter]
  exact
    seekVisible_eq_find? scan.source scan.session
      (Nat.sub_le_iff_le_add'.1 (Nat.le_refl _))

theorem nextStored_of_nil {scan : Scan} (none : scan.storedAhead = []) :
    scan.nextStored = (false, scan.atEnd) := by
  have found := scan.seekVisible_current
  rw [none, List.head?_nil] at found
  simp only [nextStored, found]
  rfl

/-- Among the stored rows a scan moves on to the first one that is ahead. -/
theorem nextStored_of_cons (scan : Scan) {row : Row} {rest : List Row}
    (split : scan.storedAhead = row :: rest) :
    scan.nextStored =
        (true, { scan with stage := .stored, current := some row }) ∧
      storedAhead { scan with stage := .stored, current := some row } = rest := by
  have next := scan.seekVisible_current
  rw [split, List.head?_cons] at next
  refine ⟨?_, (filter_rowsFrom_of_cons split).2.2.symm⟩
  simp only [nextStored, next]

theorem nextVersioned_of_nil {scan : Scan} (rests : scan.RestsAtEnd)
    (none : scan.versionedAhead = []) :
    scan.nextVersioned = (false, scan.atEnd) := by
  cases stage : scan.stage with
  | changes rest =>
      simp only [versionedAhead, stage] at none
      rcases List.append_eq_nil_iff.1 none with ⟨noChange, noRow⟩
      have left : rest.dropWhile
          (fun change => !deletedElsewhere scan.session change) = [] := by
        rw [List.dropWhile_eq_nil_iff]
        intro change member
        simpa using List.filter_eq_nil_iff.1 noChange change member
      simp only [nextVersioned, stage, left]
      apply nextStored_of_nil
      rw [storedAhead_of_current_none rfl]
      exact noRow
  | stored =>
      simp only [versionedAhead, stage] at none
      simp only [nextVersioned, stage]
      exact nextStored_of_nil none
  | finished =>
      simp only [nextVersioned, stage]
      rw [atEnd, ← stage, ← rests stage]

theorem nextVersioned_of_cons {scan : Scan} {row : Row} {rest : List Row}
    (split : scan.versionedAhead = row :: rest) :
    ∃ stage, stage ≠ .finished ∧
      scan.nextVersioned =
        (true, { scan with stage := stage, current := some row }) ∧
      versionedAhead { scan with stage := stage, current := some row } =
        rest := by
  cases stage : scan.stage with
  | changes changes =>
      simp only [versionedAhead, stage] at split
      simp only [nextVersioned, stage]
      cases left : changes.dropWhile fun change =>
          !deletedElsewhere scan.session change with
      | nil =>
          -- no change is left, so the scan moves as one among the stored rows
          rw [filter_eq_nil_of_dropWhile left, List.nil_append] at split
          rcases nextStored_of_cons { scan with current := none }
              ((storedAhead_of_current_none rfl).trans split) with
            ⟨moved, later⟩
          exact ⟨.stored, nofun, moved, later⟩
      | cons change others =>
          rw [filter_eq_cons_of_dropWhile left, List.cons_append] at split
          cases split
          exact ⟨.changes others, nofun, rfl, rfl⟩
  | stored =>
      simp only [versionedAhead, stage] at split
      simp only [nextVersioned, stage]
      rcases nextStored_of_cons scan split with ⟨moved, later⟩
      exact ⟨.stored, nofun, moved, later⟩
  | finished =>
      simp only [versionedAhead, stage] at split
      cases split

/-! ### One move where changes take effect at once -/

theorem nextImmediate_of_nil {scan : Scan} (rests : scan.RestsAtEnd)
    (none : scan.immediateAhead = []) :
    scan.nextImmediate = (false, scan.atEnd) := by
  cases stage : scan.stage with
  | changes _ | stored =>
      simp only [immediateAhead, stage] at none
      have next := scan.source.nextRow?_eq_head? scan.current
      rw [none, List.head?_nil] at next
      simp only [nextImmediate, stage, next]
      rfl
  | finished =>
      simp only [nextImmediate, stage]
      rw [atEnd, ← stage, ← rests stage]

theorem nextImmediate_of_cons {scan : Scan} {row : Row} {rest : List Row}
    (split : scan.immediateAhead = row :: rest) :
    scan.stage ≠ .finished ∧
      scan.nextImmediate = (true, { scan with current := some row }) ∧
      immediateAhead { scan with current := some row } = rest := by
  cases stage : scan.stage with
  | changes _ | stored =>
      simp only [immediateAhead, stage] at split
      have next := scan.source.nextRow?_eq_head? scan.current
      rw [split, List.head?_cons] at next
      have behind := (rowsFrom_of_nextRow? next).2.2
      refine ⟨nofun, ?_, List.tail_eq_of_cons_eq (behind.symm.trans split)⟩
      simp only [nextImmediate, stage, next]
  | finished =>
      simp only [immediateAhead, stage] at split
      cases split

/-! ### One move -/

/-- A scan with no rows ahead moves behind its last row. -/
theorem next_of_ahead_nil {scan : Scan} (rests : scan.RestsAtEnd)
    (none : scan.ahead = []) :
    scan.next = (false, scan.atEnd) := by
  rw [ahead] at none
  rw [next]
  split at none
  · rename_i versioned
    rw [if_pos versioned, nextVersioned_of_nil rests none]
  · rename_i immediate
    rw [if_neg immediate, nextImmediate_of_nil rests none]

@[simp]
theorem atEnd_ahead (scan : Scan) : scan.atEnd.ahead = [] := by
  rw [ahead]
  split <;> rfl

@[simp]
theorem atEnd_next (scan : Scan) : scan.atEnd.next = (false, scan.atEnd) :=
  next_of_ahead_nil (fun _ => rfl) scan.atEnd_ahead

/-- A scan moves on to the first of the rows that it has ahead. -/
theorem next_of_ahead_cons {scan : Scan} {row : Row} {rest : List Row}
    (split : scan.ahead = row :: rest) :
    ∃ stage, stage ≠ .finished ∧
      scan.next = (true, { scan with stage := stage, current := some row }) ∧
      ahead { scan with stage := stage, current := some row } = rest := by
  cases versioned : scan.source.versioned with
  | true =>
      rw [ahead, if_pos versioned] at split
      rcases nextVersioned_of_cons split with ⟨stage, unfinished, moved, later⟩
      refine ⟨stage, unfinished, ?_, ?_⟩
      · rw [next, if_pos versioned, moved]
      · rw [ahead, if_pos versioned, later]
  | false =>
      have immediate : ¬ scan.source.versioned = true := by simp [versioned]
      rw [ahead, if_neg immediate] at split
      rcases nextImmediate_of_cons split with ⟨unfinished, moved, later⟩
      refine ⟨scan.stage, unfinished, ?_, ?_⟩
      · rw [next, if_neg immediate, moved]
      · rw [ahead, if_neg immediate, later]

/-! ### All moves -/

/-- A scan yields all rows that it has ahead if it moves often enough. -/
theorem take_eq (scan : Scan) (rests : scan.RestsAtEnd) {moves : Nat}
    (enough : scan.ahead.length < moves) :
    Cursor.take moves (.scan scan) = (scan.ahead, .scan scan.atEnd) := by
  induction moves generalizing scan with
  | zero => exact absurd enough (Nat.not_lt_zero _)
  | succ moves induction =>
      cases left : scan.ahead with
      | nil =>
          simp only [Cursor.take, Cursor.next, next_of_ahead_nil rests left]
      | cons row rest =>
          rcases next_of_ahead_cons left with ⟨stage, unfinished, moved, later⟩
          have others :=
            induction { scan with stage := stage, current := some row }
              (fun finished => absurd finished unfinished)
              (by rw [later]; rw [left] at enough; exact Nat.lt_of_succ_lt_succ enough)
          simp only [Cursor.take, Cursor.next, moved, others, later]
          rfl

theorem length_versionedAhead_lt_movesLeft (scan : Scan) :
    scan.versionedAhead.length < scan.movesLeft := by
  have seen (rows : List Row) :
      (rows.filter fun row => row.visibleTo scan.session).length ≤ rows.length :=
    List.length_filter_le _ rows
  rw [versionedAhead, movesLeft]
  cases scan.stage with
  | changes rest =>
      have changes :=
        List.length_filter_le (deletedElsewhere scan.session) rest
      have rows := scan.source.length_rowsFrom_le 0
      rw [rowsFrom_zero] at rows
      rw [List.length_append]
      exact
        Nat.lt_succ_of_le
          (Nat.add_le_add changes (Nat.le_trans (seen _) rows))
  | stored =>
      have rows := scan.source.length_rowsFrom_le (keyAfter scan.current)
      exact
        Nat.lt_succ_of_le
          (Nat.le_trans (seen _) (Nat.le_trans rows (Nat.sub_le _ _)))
  | finished => exact Nat.one_pos

theorem length_immediateAhead_lt_movesLeft (scan : Scan) :
    scan.immediateAhead.length < scan.movesLeft := by
  have rows :=
    (scan.source.length_rowsFrom_le (keyAfter scan.current)).trans
      (Nat.sub_le _ _)
  rw [immediateAhead, movesLeft]
  cases scan.stage with
  | changes rest =>
      exact Nat.lt_succ_of_le (Nat.le_add_left_of_le rows)
  | stored => exact Nat.lt_succ_of_le rows
  | finished => exact Nat.one_pos

/-- The bound on the moves of a scan is never reached. -/
theorem length_ahead_lt_movesLeft (scan : Scan) :
    scan.ahead.length < scan.movesLeft := by
  rw [ahead]
  split
  · exact scan.length_versionedAhead_lt_movesLeft
  · exact scan.length_immediateAhead_lt_movesLeft

/-- What remains of a scan is what it has ahead. -/
theorem remaining_eq {scan : Scan} (rests : scan.RestsAtEnd) :
    (Cursor.scan scan).remaining = (scan.ahead, .scan scan.atEnd) :=
  scan.take_eq rests scan.length_ahead_lt_movesLeft

theorem restsAtEnd_start (source : PrimaryIndex) (session : Session) :
    (start source session).RestsAtEnd :=
  fun _ => rfl

/-- All rows of a scan over a table in which changes wait for a commit. -/
theorem remaining_start_of_versioned {source : PrimaryIndex}
    (versioned : source.versioned = true) (session : Session) :
    (Cursor.scan (start source session)).remaining.1 =
      source.pending.rows.filter (deletedElsewhere session) ++
        source.liveRows.filter fun row => row.visibleTo session := by
  have stage : (start source session).stage = .changes source.pending.rows := by
    rw [start, if_pos versioned]
  rw [remaining_eq (restsAtEnd_start source session), ahead, versionedAhead,
    stage]
  exact if_pos versioned

/-- All rows of a scan over a table in which changes take effect at once. -/
theorem remaining_start_of_immediate {source : PrimaryIndex}
    (immediate : source.versioned = false) (session : Session) :
    (Cursor.scan (start source session)).remaining.1 = source.liveRows := by
  have noVersions : ¬ source.versioned = true := by simp [immediate]
  have stage : (start source session).stage = .stored := by
    rw [start, if_neg noVersions]
  rw [remaining_eq (restsAtEnd_start source session), ahead, immediateAhead,
    stage]
  exact (if_neg noVersions).trans source.rowsFrom_zero

end Scan

end VersionedColumns
