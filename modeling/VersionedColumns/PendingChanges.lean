import VersionedColumns.Row.Basic

/-!
# Uncommitted changes

The rows that sessions have inserted or deleted without committing yet, at most
one to a key and in the order of their keys, and for every session the number
by which its uncommitted changes alter the row count.

A session counts its own changes and nobody else's.  An insert and a delete of
the same row cancel out, whichever comes first.  Where changes take effect at
once nothing is recorded at all.
-/

namespace VersionedColumns

/-- The two kinds of change to a row. -/
inductive ChangeKind where
  | insert
  | delete
deriving DecidableEq

/-- The kind of change that an uncommitted row stands for. -/
def Row.changeKind (row : Row) : ChangeKind :=
  if row.deleted then .delete else .insert

/-- The rows changed but not committed, and what they do to the row counts. -/
structure PendingChanges where
  /-- Whether changes wait for a commit. -/
  recorded : Bool
  /-- The changed rows in increasing order of their keys. -/
  rows : List Row
  /-- By how much each session's changes alter the row count. -/
  adjustments : List (Session × Int)
  /-- The sum of all adjustments. -/
  total : Int
deriving DecidableEq

namespace PendingChanges

/-- Nothing is pending. -/
def empty (recorded : Bool) : PendingChanges where
  recorded := recorded
  rows := []
  adjustments := []
  total := 0

/-- Take out the row with the same key, or put the row in where it belongs. -/
def toggle (row : Row) : List Row → List Row
  | [] => [row]
  | first :: rest =>
    if row.key < first.key then row :: first :: rest
    else if row.key = first.key then rest
    else first :: toggle row rest

/-- Add an amount to a session's adjustment. -/
def adjust (session : Session) (amount : Int) :
    List (Session × Int) → List (Session × Int)
  | [] => [(session, amount)]
  | (other, adjustment) :: rest =>
    if other = session then (other, adjustment + amount) :: rest
    else (other, adjustment) :: adjust session amount rest

/-- Count an amount for a session. -/
def count (changes : PendingChanges) (session : Session) (amount : Int) :
    PendingChanges :=
  { changes with
    adjustments := adjust session amount changes.adjustments
    total := changes.total + amount }

/-- Record that a session inserted a row. -/
def recordInsert (changes : PendingChanges) (session : Session) (row : Row) :
    PendingChanges :=
  if changes.recorded then
    { changes with rows := toggle row changes.rows }.count session 1
  else changes

/-- Record that a session deleted a row, which keeps its last values. -/
def recordDelete (changes : PendingChanges) (session : Session) (row : Row) :
    PendingChanges :=
  if changes.recorded then
    { changes with
      rows := toggle { row with deleted := true } changes.rows }.count
        session (-1)
  else changes

/-- Let a change count for everybody: it is no longer pending for its owner. -/
def commit (changes : PendingChanges) (kind : ChangeKind) (row : Row) :
    PendingChanges :=
  if changes.recorded then
    { changes with
      rows := changes.rows.filter fun other => other.key != row.key }.count
        row.owner (match kind with | .insert => -1 | .delete => 1)
  else changes

/-- Forget all changes. -/
def clear (changes : PendingChanges) : PendingChanges :=
  empty changes.recorded

/-- By how much a session's changes alter the row count. -/
def adjustment (changes : PendingChanges) (session : Session) : Int :=
  (changes.adjustments.lookup session).getD 0

/-- A count of 64 bits read as a signed number. -/
def signedCount (count : Nat) : Int :=
  Int.bmod count UInt64.size

/--
The row count that a session sees, given the count over all changes: those of
the other sessions are taken back.  It is never negative.
-/
def rowCount (changes : PendingChanges) (session : Session) (count : Nat) :
    Nat :=
  if changes.recorded then
    (signedCount count + changes.adjustment session - changes.total).toNat
  else count

/-- The uncommitted change to a key. -/
def row? (changes : PendingChanges) (key : Key) : Option Row :=
  changes.rows.find? fun row => row.key == key

/-- A session's uncommitted changes, in the order of their keys. -/
def ownedBy (changes : PendingChanges) (session : Session) : List Row :=
  changes.rows.filter fun row => row.owner == session

@[simp]
theorem count_recorded (changes : PendingChanges) (session : Session)
    (amount : Int) :
    (changes.count session amount).recorded = changes.recorded := rfl

/-- Counting an amount changes the adjustment of that session alone. -/
theorem lookup_adjust (session other : Session) (amount : Int)
    (adjustments : List (Session × Int)) :
    ((adjust session amount adjustments).lookup other).getD 0 =
      (adjustments.lookup other).getD 0 +
        if other = session then amount else 0 := by
  induction adjustments with
  | nil =>
    by_cases same : other = session
    · simp [adjust, same]
    · have differs : (other == session) = false := by simp [same]
      simp [adjust, List.lookup_cons, same, differs]
  | cons first rest induction =>
    obtain ⟨owner, adjustment⟩ := first
    by_cases own : owner = session
    · subst own
      by_cases same : other = owner
      · simp [adjust, same]
      · have differs : (other == owner) = false := by simp [same]
        simp [adjust, List.lookup_cons, same, differs]
    · by_cases same : other = owner
      · subst same
        simp [adjust, own]
      · have differs : (other == owner) = false := by simp [same]
        simpa [adjust, List.lookup_cons, own, differs] using induction

theorem adjustment_count (changes : PendingChanges) (session other : Session)
    (amount : Int) :
    (changes.count session amount).adjustment other =
      changes.adjustment other + if other = session then amount else 0 :=
  lookup_adjust session other amount changes.adjustments

end PendingChanges

end VersionedColumns
