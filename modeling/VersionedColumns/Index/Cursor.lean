import VersionedColumns.Index.Primary

/-!
# Cursors

A cursor stands before the first of its rows, on one of them or behind the
last, and moves forward only.

The cursor over a primary index goes through two lists.  First come the rows
that other sessions have deleted without committing, from the uncommitted
changes; then come the stored rows, except those that other sessions have
inserted without committing.  Where changes take effect at once there are only
stored rows, and nobody looks at their owners.
-/

namespace VersionedColumns

/-- How far a scan has come. -/
inductive ScanStage where
  /-- Among the uncommitted changes, of which these are left. -/
  | changes (rest : List Row)
  /-- Among the stored rows. -/
  | stored
  /-- Behind the last row. -/
  | finished
deriving DecidableEq

/-- A walk of one session over a primary index. -/
structure Scan where
  source : PrimaryIndex
  session : Session
  stage : ScanStage
  current : Option Row
deriving DecidableEq

namespace Scan

/-- A scan that stands before its first row. -/
def start (source : PrimaryIndex) (session : Session) : Scan where
  source := source
  session := session
  stage := if source.versioned then .changes source.pending.rows else .stored
  current := none

/-- Whether a change is a delete that the session does not see yet. -/
def deletedElsewhere (session : Session) (change : Row) : Bool :=
  change.deleted && change.owner != session

/-- The next stored row that a session sees, among so many behind a given one. -/
def seekVisible (source : PrimaryIndex) (session : Session)
    (behind : Option Row) : (rows : Nat) → Option Row
  | 0 => none
  | rows + 1 =>
    match source.nextRow? behind with
    | none => none
    | some row =>
      if row.visibleTo session then some row
      else seekVisible source session (some row) rows

/-- Move to the next stored row that the session sees. -/
def nextStored (scan : Scan) : Bool × Scan :=
  let rows := scan.source.nextKey - PrimaryIndex.keyAfter scan.current
  match seekVisible scan.source scan.session scan.current rows with
  | some row => (true, { scan with stage := .stored, current := some row })
  | none => (false, { scan with stage := .finished, current := none })

/-- Move to the next row where changes wait for a commit. -/
def nextVersioned (scan : Scan) : Bool × Scan :=
  match scan.stage with
  | .changes rest =>
    let hidden (change : Row) : Bool := !deletedElsewhere scan.session change
    match rest.dropWhile hidden with
    | row :: rest =>
      (true, { scan with stage := .changes rest, current := some row })
    | [] => { scan with current := none }.nextStored
  | .stored => scan.nextStored
  | .finished => (false, scan)

/-- Move to the next row where changes take effect at once. -/
def nextImmediate (scan : Scan) : Bool × Scan :=
  match scan.stage with
  | .changes _ | .stored =>
    match scan.source.nextRow? scan.current with
    | some row => (true, { scan with current := some row })
    | none => (false, { scan with stage := .finished, current := none })
  | .finished => (false, scan)

/-- Move to the next row; the answer is whether there is one. -/
def next (scan : Scan) : Bool × Scan :=
  if scan.source.versioned then scan.nextVersioned else scan.nextImmediate

/-- A bound on the number of moves until a scan is finished. -/
def movesLeft (scan : Scan) : Nat :=
  match scan.stage with
  | .changes rest => rest.length + scan.source.nextKey + 1
  | .stored => scan.source.nextKey + 1
  | .finished => 1

end Scan

/-- A cursor over a primary index or over at most one row. -/
inductive Cursor where
  | scan (scan : Scan)
  | single (waiting current : Option Row)
deriving DecidableEq

namespace Cursor

/-- A cursor over a row that may be missing. -/
def ofOption (row : Option Row) : Cursor :=
  single row none

/-- The row the cursor stands on. -/
def current? : Cursor → Option Row
  | scan walk => walk.current
  | single _ current => current

/-- Move forward; the answer is whether there is a row. -/
def next : Cursor → Bool × Cursor
  | scan walk => (walk.next.1, scan walk.next.2)
  | single waiting _ => (waiting.isSome, single none waiting)

/-- No cursor moves backwards. -/
def previous : Cursor → Except Error Bool
  | scan _ => .error .scanBackwards
  | single _ _ => .error .singleBackwards

/-- A bound on the number of moves until the cursor is behind its last row. -/
def movesLeft : Cursor → Nat
  | scan walk => walk.movesLeft
  | single _ _ => 2

/-- The rows of at most so many moves forward, and the cursor after them. -/
def take : Nat → Cursor → List Row × Cursor
  | 0, cursor => ([], cursor)
  | moves + 1, cursor =>
    match cursor.next with
    | (false, moved) => ([], moved)
    | (true, moved) =>
      let (rows, last) := take moves moved
      (moved.current?.toList ++ rows, last)

/-- All rows ahead, and the cursor behind them. -/
def remaining (cursor : Cursor) : List Row × Cursor :=
  take cursor.movesLeft cursor

@[simp]
theorem remaining_single (waiting current : Option Row) :
    (single waiting current).remaining.1 = waiting.toList := by
  cases waiting <;> simp [remaining, movesLeft, take, next, current?]

end Cursor

end VersionedColumns
