import VersionedColumns.Proofs.Index.Runs
import VersionedColumns.Proofs.Index.View

/-!
# A scan as a place in a list

A scan goes through its rows in two stages and skips what its session does not
see, but all of that cannot be told from outside.  Whatever moves are made in
whatever order, a scan answers like a place in one list of rows: one that stands
before the first row, on one of them or behind the last.

The list is read off the index without a scan.  No key occurs in it twice.

Where changes take effect at once, a scan does not look at the owners of the
rows.  It would make the same moves if it did.
-/

namespace VersionedColumns

namespace Cursor

/-- What can be asked of a cursor. -/
inductive Move where
  | next
  | current
  /-- Ask for the row that was searched for, which is the current one. -/
  | search
  | previous
  | remaining
deriving DecidableEq

/-- What a cursor answers. -/
inductive Answer where
  | moved (outcome : Except Error Bool)
  | row (row : Option Row)
  | rows (rows : List Row)
deriving DecidableEq

/-- Carry out a move. -/
def perform (cursor : Cursor) : Move → Answer × Cursor
  | .next => (.moved (.ok cursor.next.1), cursor.next.2)
  | .current | .search => (.row cursor.current?, cursor)
  | .previous => (.moved cursor.previous, cursor)
  | .remaining => (.rows cursor.remaining.1, cursor.remaining.2)

/-- The answers to a sequence of moves. -/
def answers (cursor : Cursor) : List Move → List Answer
  | [] => []
  | move :: moves =>
    (cursor.perform move).1 :: (cursor.perform move).2.answers moves

/-- The cursor after a sequence of moves. -/
def moved (cursor : Cursor) (moves : List Move) : Cursor :=
  moves.foldl (fun cursor move => (cursor.perform move).2) cursor

/-- So many moves forward keep what one of them keeps. -/
theorem take_scan_of_next {Holds : Scan → Prop}
    (step : ∀ scan, Holds scan → Holds scan.next.2) {scan : Scan}
    (holds : Holds scan) (moves : Nat) :
    ∃ later, (take moves (.scan scan)).2 = .scan later ∧ Holds later := by
  induction moves generalizing scan with
  | zero => exact ⟨scan, rfl, holds⟩
  | succ moves induction =>
      have after := step scan holds
      rw [take, next]
      cases moved : scan.next with
      | mk found later =>
          rw [moved] at after
          cases found with
          | false => exact ⟨later, rfl, after⟩
          | true => exact induction after

/-- So does any sequence of moves. -/
theorem moved_scan_of_next {Holds : Scan → Prop}
    (step : ∀ scan, Holds scan → Holds scan.next.2) {scan : Scan}
    (holds : Holds scan) (moves : List Move) :
    ∃ later, (Cursor.scan scan).moved moves = .scan later ∧ Holds later := by
  induction moves generalizing scan with
  | nil => exact ⟨scan, rfl, holds⟩
  | cons move moves induction =>
      rw [moved, List.foldl_cons]
      cases move with
      | next => exact induction (step scan holds)
      | current | search | previous => exact induction holds
      | remaining =>
          rcases take_scan_of_next step holds scan.movesLeft with
            ⟨later, left, after⟩
          have performed : ((Cursor.scan scan).perform .remaining).2 =
              .scan later := left
          rw [performed]
          exact induction after

end Cursor

/-! ## Places -/

/-- A list of rows with the number of steps that were made in it. -/
structure Place where
  rows : List Row
  steps : Nat
deriving DecidableEq

namespace Place

/-- The place before the first row. -/
def start (rows : List Row) : Place where
  rows := rows
  steps := 0

/-- The place behind the last row. -/
def atEnd (place : Place) : Place where
  rows := place.rows
  steps := place.rows.length + 1

/-- The row that was reached with the last step. -/
def current? (place : Place) : Option Row :=
  match place.steps with
  | 0 => none
  | steps + 1 => place.rows[steps]?

/-- Make a step while there is a row ahead. -/
def next (place : Place) : Bool × Place :=
  if place.steps < place.rows.length then
    (true, { place with steps := place.steps + 1 })
  else (false, place.atEnd)

/-- Carry out a move, which is never one backwards. -/
def perform (place : Place) : Cursor.Move → Cursor.Answer × Place
  | .next => (.moved (.ok place.next.1), place.next.2)
  | .current | .search => (.row place.current?, place)
  | .previous => (.moved (.error .scanBackwards), place)
  | .remaining => (.rows (place.rows.drop place.steps), place.atEnd)

/-- The answers to a sequence of moves. -/
def answers (place : Place) : List Cursor.Move → List Cursor.Answer
  | [] => []
  | move :: moves =>
    (place.perform move).1 :: (place.perform move).2.answers moves

@[simp]
theorem atEnd_current? (place : Place) : place.atEnd.current? = none :=
  List.getElem?_eq_none (Nat.le_refl _)

@[simp]
theorem atEnd_drop (place : Place) :
    place.atEnd.rows.drop place.atEnd.steps = [] :=
  List.drop_eq_nil_of_le (Nat.le_succ _)

end Place

namespace Scan

/-- A scan stands where a place does and has the same rows ahead. -/
structure StandsAt (scan : Scan) (place : Place) : Prop where
  current_eq : scan.current = place.current?
  ahead_eq : scan.ahead = place.rows.drop place.steps
  rests : scan.RestsAtEnd

variable {scan : Scan} {place : Place}

theorem standsAt_atEnd (scan : Scan) (place : Place) :
    scan.atEnd.StandsAt place.atEnd where
  current_eq := place.atEnd_current?.symm
  ahead_eq := scan.atEnd_ahead.trans place.atEnd_drop.symm
  rests := fun _ => rfl

/-- A move forward is a step of the place. -/
theorem StandsAt.next (stands : scan.StandsAt place) :
    scan.next.1 = place.next.1 ∧ scan.next.2.StandsAt place.next.2 := by
  have ahead := stands.ahead_eq
  rw [Place.next]
  split
  · rename_i inside
    rw [List.drop_eq_getElem_cons inside] at ahead
    rcases next_of_ahead_cons ahead with ⟨stage, unfinished, moved, later⟩
    rw [moved]
    refine ⟨rfl, ?_, later, fun finished => absurd finished unfinished⟩
    exact (List.getElem?_eq_getElem inside).symm
  · rename_i outside
    rw [List.drop_eq_nil_of_le (Nat.not_lt.1 outside)] at ahead
    rw [next_of_ahead_nil stands.rests ahead]
    exact ⟨rfl, scan.standsAt_atEnd place⟩

/-- A scan answers a move as its place does, and stands at one afterwards. -/
theorem StandsAt.perform (stands : scan.StandsAt place) (move : Cursor.Move) :
    ∃ later : Scan,
      (Cursor.scan scan).perform move =
          ((place.perform move).1, .scan later) ∧
        later.StandsAt (place.perform move).2 := by
  cases move with
  | next =>
      rcases stands.next with ⟨same, later⟩
      refine ⟨scan.next.2, ?_, later⟩
      rw [Cursor.perform, Cursor.next, Place.perform, same]
  | current | search =>
      refine ⟨scan, ?_, stands⟩
      rw [Cursor.perform, Cursor.current?, Place.perform, stands.current_eq]
  | previous => exact ⟨scan, rfl, stands⟩
  | remaining =>
      refine ⟨scan.atEnd, ?_, scan.standsAt_atEnd place⟩
      rw [Cursor.perform, remaining_eq stands.rests, Place.perform,
        stands.ahead_eq]

/-- A scan answers all moves as its place does. -/
theorem StandsAt.answers (stands : scan.StandsAt place)
    (moves : List Cursor.Move) :
    (Cursor.scan scan).answers moves = place.answers moves := by
  induction moves generalizing scan place with
  | nil => rfl
  | cons move moves induction =>
      rcases stands.perform move with ⟨later, performed, stillStands⟩
      rw [Cursor.answers, Place.answers, performed, induction stillStands]

/-- After any moves a scan stands at some place. -/
theorem StandsAt.moved (stands : scan.StandsAt place)
    (moves : List Cursor.Move) :
    ∃ later, (Cursor.scan scan).moved moves = .scan later ∧
      ∃ laterPlace, later.StandsAt laterPlace := by
  refine Cursor.moved_scan_of_next ?_ ⟨place, stands⟩ moves
  rintro before ⟨beforePlace, stood⟩
  exact ⟨beforePlace.next.2, stood.next.2⟩

end Scan

/-! ## The rows of a scan -/

namespace PrimaryIndex

variable {index : PrimaryIndex} {session : Session}

/-- The rows of the live keys, as they are read, in the order of the keys. -/
def storedRows (index : PrimaryIndex) : List Row :=
  index.grid.liveKeys.filterMap index.row?

/--
The rows of a scan: where changes wait for a commit, first what other sessions
have deleted, and behind it the stored rows without another session's inserts.
-/
def scanRows (index : PrimaryIndex) (session : Session) : List Row :=
  if index.versioned then
    (index.pending.rows.filter fun change =>
        change.deleted && change.owner != session) ++
      index.storedRows.filter fun row =>
        row.owner == noSession || row.owner == session
  else index.storedRows

theorem storedRows_keys (index : PrimaryIndex) :
    index.storedRows.map Row.key = index.grid.liveKeys := by
  rw [storedRows, List.map_filterMap]
  have keyed : ∀ key ∈ index.grid.liveKeys,
      (index.row? key).map Row.key = some key := by
    intro key member
    rw [row?, Grid.row?_of_isLive (Grid.mem_liveKeys.1 member)]
    exact congrArg some (withOwner_key index key _)
  rw [List.filterMap_congr keyed, List.filterMap_some]

/-- With columns to look at, exactly the live keys hold values. -/
theorem Coherent.storedRows_eq (coherent : index.Coherent)
    (columns : index.grid.columns ≠ []) (fits : index.nextKey < 2 ^ 64) :
    index.storedRows = index.liveRows := by
  rw [storedRows, Grid.liveKeys, List.filterMap_filter, liveRows]
  apply List.filterMap_congr
  intro key member
  have inside := List.mem_range.1 member
  rcases coherent.filledRow?_cases columns inside
      (ne_tombstoneKey_of_lt inside fits) with
    ⟨dead, nothing⟩ | ⟨live, row, found, -⟩
  · rw [dead, nothing, if_neg Bool.false_ne_true]
  · rw [live, found, if_pos rfl]
    exact (Option.filter_eq_some_iff.1 found).1

theorem storedRows_pairwise (index : PrimaryIndex) :
    index.storedRows.Pairwise fun first second => first.key < second.key := by
  rw [← List.pairwise_map, storedRows_keys]
  exact List.Pairwise.filter _ List.pairwise_lt_range

/-- A key does not occur both as a delete and with a stored row. -/
theorem Coherent.scanRows_keys_nodup (coherent : index.Coherent)
    (session : Session) : ((index.scanRows session).map Row.key).Nodup := by
  have stored : (index.storedRows.map Row.key).Nodup :=
    List.pairwise_map.2 (index.storedRows_pairwise.imp Nat.ne_of_lt)
  rw [scanRows]
  split
  · rw [List.map_append, List.nodup_append]
    refine ⟨?_, ?_, ?_⟩
    · refine List.pairwise_map.2 (List.Pairwise.filter _ ?_)
      exact coherent.ordered.imp Nat.ne_of_lt
    · exact stored.sublist (List.filter_sublist.map Row.key)
    · intro key deleted other live same
      rcases List.mem_map.1 deleted with ⟨change, member, rfl⟩
      rcases List.mem_filter.1 member with ⟨pending, mark⟩
      have dead :=
        (coherent.agrees (coherent.ordered.row?_key pending)).of_delete
          (Bool.and_eq_true_iff.1 mark).1
      have kept := (List.filter_sublist.map Row.key).subset live
      rw [storedRows_keys, ← same, Grid.mem_liveKeys, dead] at kept
      cases kept
  · exact stored

/-- A scan that starts has all its rows ahead. -/
theorem Coherent.standsAt_start (coherent : index.Coherent)
    (columns : index.grid.columns ≠ []) (fits : index.nextKey < 2 ^ 64)
    (session : Session) :
    (Scan.start index session).StandsAt (.start (index.scanRows session)) where
  current_eq := rfl
  ahead_eq := by
    have stored := coherent.storedRows_eq columns fits
    rw [Place.start, List.drop_zero, scanRows, stored, Scan.ahead,
      Scan.versionedAhead, Scan.immediateAhead]
    cases versioned : index.versioned with
    | true =>
        rw [Scan.start, versioned]
        rfl
    | false =>
        rw [Scan.start, versioned]
        exact index.rowsFrom_zero
  rests := Scan.restsAtEnd_start index session

/-- How a session's scan of an index answers. -/
structure ScansAs (index : PrimaryIndex) (session : Session)
    (rows : List Row) : Prop where
  keys_nodup : (rows.map Row.key).Nodup
  /-- A scan cannot be told from a place in the list. -/
  answers : ∀ moves,
    (Cursor.scan (Scan.start index session)).answers moves =
      (Place.start rows).answers moves
  /-- What remains comes to an end by itself, with a move that finds nothing. -/
  remaining_ends : ∀ moves cursor,
    (Cursor.scan (Scan.start index session)).moved moves = cursor →
      cursor.remaining.2.next.1 = false ∧
      ∀ more, cursor.take (cursor.movesLeft + more) = cursor.remaining
  /-- So does every search for the next row: it stops at the last key. -/
  seek_ends : ∀ key more,
    index.seek key (index.nextKey - key + more) =
      index.seek key (index.nextKey - key)
  /-- And every search for the next row that the session sees. -/
  seekVisible_ends : ∀ behind more,
    Scan.seekVisible index session behind
        (index.nextKey - keyAfter behind + more) =
      Scan.seekVisible index session behind (index.nextKey - keyAfter behind)

theorem Coherent.scansAs (coherent : index.Coherent)
    (columns : index.grid.columns ≠ []) (fits : index.nextKey < 2 ^ 64)
    (session : Session) :
    index.ScansAs session (index.scanRows session) where
  keys_nodup := coherent.scanRows_keys_nodup session
  answers := (coherent.standsAt_start columns fits session).answers
  remaining_ends := by
    rintro moves _ rfl
    rcases (coherent.standsAt_start columns fits session).moved moves with
      ⟨later, moved, place, stands⟩
    have remaining := Scan.remaining_eq stands.rests
    rw [moved, remaining]
    refine ⟨congrArg Prod.fst later.atEnd_next, fun more => ?_⟩
    refine later.take_eq stands.rests ?_
    exact Nat.lt_add_right more later.length_ahead_lt_movesLeft
  seek_ends := by
    intro key more
    have enough := Nat.sub_le_iff_le_add'.1 (Nat.le_refl (index.nextKey - key))
    rw [index.seek_eq_head? enough]
    apply seek_eq_head?
    rw [← Nat.add_assoc]
    exact Nat.le_add_right_of_le enough
  seekVisible_ends := by
    intro behind more
    have enough :=
      Nat.sub_le_iff_le_add'.1 (Nat.le_refl (index.nextKey - keyAfter behind))
    rw [Scan.seekVisible_eq_find? index session enough]
    apply Scan.seekVisible_eq_find?
    rw [← Nat.add_assoc]
    exact Nat.le_add_right_of_le enough

/--
In every primary index with columns that a run from an empty one reaches, the
scan of any session answers any sequence of moves like a place in the list of
its rows, whose two parts are in the order of the keys.
-/
theorem scansAs_scanRows_of_run (table : TableId) (tableName : String)
    (columnNames : List String) (config : Config) (columns : columnNames ≠ [])
    (actions : List Action) (index : PrimaryIndex)
    (reached : (empty table tableName columnNames config).run actions = index)
    (fits : index.nextKey < 2 ^ 64) (session : Session) :
    index.versioned = config.versioned ∧
      (index.pending.rows.Pairwise fun first second =>
        first.key < second.key) ∧
      (index.storedRows.Pairwise fun first second =>
        first.key < second.key) ∧
      index.ScansAs session (index.scanRows session) := by
  have coherent :=
    (Coherent.empty table tableName columnNames config).run actions
  have frame :=
    (empty table tableName columnNames config).run_frame actions
  rw [reached] at coherent frame
  have width : index.grid.columns.length = columnNames.length :=
    frame.1.trans (List.length_map _)
  have named : index.grid.columns ≠ [] := by
    rw [← List.length_pos_iff, width, List.length_pos_iff]
    exact columns
  exact
    ⟨frame.2, coherent.ordered, index.storedRows_pairwise,
      coherent.scansAs named fits session⟩

/-- Changes wait for a commit. -/
def sampleConfig : Config :=
  { Config.standard with versioned := true }

/-- The second session inserts a row and deletes one of the first session. -/
def sampleActions : List Action :=
  [.insert 1 (Row.ofValues [.int 7]), .commit .insert ⟨0, [], false, 1⟩,
    .insert 2 (Row.ofValues [.int 8]), .insert 1 (Row.ofValues [.int 9]),
    .remove 2 ⟨0, [.int 7], false, 0⟩]

/-- The first session still sees what the second has deleted, and that first. -/
theorem scansAs_scanRows_of_sample_run :
    (Cursor.scan (Scan.start ((empty 1 "Readings" ["Level"]
        sampleConfig).run sampleActions) 1)).answers
      [.current, .next, .search, .previous, .remaining, .next, .current] =
    [.row none, .moved (.ok true), .row (some ⟨0, [.int 7], true, 2⟩),
      .moved (.error .scanBackwards), .rows [⟨2, [.int 9], false, 1⟩],
      .moved (.ok false), .row none] := by
  rcases scansAs_scanRows_of_run 1 "Readings" ["Level"] sampleConfig
      (List.cons_ne_nil _ _) sampleActions _ rfl (by decide +kernel) 1 with
    ⟨-, -, -, scans⟩
  rw [scans.answers]
  decide +kernel

end PrimaryIndex

/-! ## The owners of rows -/

namespace Scan

/-- A scan of an index that has left its uncommitted changes behind. -/
structure PastChanges (index : PrimaryIndex) (scan : Scan) : Prop where
  source_eq : scan.source = index
  stage_ne : ∀ rest, scan.stage ≠ .changes rest

variable {index : PrimaryIndex} {scan : Scan}

theorem PastChanges.start (immediate : index.versioned = false)
    (session : Session) : PastChanges index (start index session) where
  source_eq := rfl
  stage_ne := by
    intro rest
    rw [Scan.start, immediate, if_neg Bool.false_ne_true]
    exact ScanStage.noConfusion

theorem PastChanges.next (immediate : index.versioned = false)
    (past : PastChanges index scan) : PastChanges index scan.next.2 := by
  have noVersions : ¬ scan.source.versioned = true := by
    simp [past.source_eq, immediate]
  rw [Scan.next, if_neg noVersions, nextImmediate]
  cases stage : scan.stage with
  | changes rest => exact absurd stage (past.stage_ne rest)
  | stored =>
      cases scan.source.nextRow? scan.current with
      | none => exact ⟨past.source_eq, fun _ => ScanStage.noConfusion⟩
      | some row => exact ⟨past.source_eq, fun _ => ScanStage.noConfusion⟩
  | finished => exact past

/-- Where every session sees every row, a look at the owners changes no move. -/
theorem PastChanges.nextVersioned_eq (coherent : index.Coherent)
    (immediate : index.versioned = false) (past : PastChanges index scan) :
    scan.nextVersioned = scan.nextImmediate := by
  have source := past.source_eq
  subst source
  have visible : scan.storedAhead =
      scan.source.rowsFrom (PrimaryIndex.keyAfter scan.current) := by
    rw [storedAhead, List.filter_eq_self]
    intro row member
    exact coherent.visibleTo_of_immediate immediate
      (PrimaryIndex.mem_liveRows_of_mem_rowsFrom member) scan.session
  have same := scan.seekVisible_current
  rw [visible, ← PrimaryIndex.nextRow?_eq_head?] at same
  cases stage : scan.stage with
  | changes rest => exact absurd stage (past.stage_ne rest)
  | stored => simp only [nextVersioned, nextStored, nextImmediate, stage, same]
  | finished => simp only [nextVersioned, nextImmediate, stage]

/--
In every primary index that a run from an empty one reaches where changes take
effect at once, a scan that looked at the owners of the rows would make the
same moves as the one that does not, wherever it stands.
-/
theorem next_eq_nextVersioned_of_run (table : TableId) (tableName : String)
    (columnNames : List String) (config : Config)
    (immediate : config.versioned = false)
    (actions : List PrimaryIndex.Action) (session : Session)
    (moves : List Cursor.Move) :
    ∃ scan, (Cursor.scan (Scan.start ((PrimaryIndex.empty table tableName
        columnNames config).run actions) session)).moved moves = .scan scan ∧
      scan.next = scan.nextImmediate ∧ scan.next = scan.nextVersioned := by
  have coherent :=
    (PrimaryIndex.Coherent.empty table tableName columnNames config).run actions
  have unversioned :=
    ((PrimaryIndex.empty table tableName columnNames config).run_frame
      actions).2.trans immediate
  rcases Cursor.moved_scan_of_next
      (fun _ past => PastChanges.next unversioned past)
      (PastChanges.start unversioned session) moves with ⟨scan, moved, past⟩
  have noVersions : ¬ scan.source.versioned = true := by
    simp [past.source_eq, unversioned]
  have move : scan.next = scan.nextImmediate := if_neg noVersions
  exact
    ⟨scan, moved, move,
      move.trans (past.nextVersioned_eq coherent unversioned).symm⟩

end Scan

end VersionedColumns
