import VersionedColumns.Table.Basic

/-!
# Commit and rollback

A session ends its uncommitted changes either way.  A commit lets them count
for every session and leaves the rows where they are.  A rollback removes the
session's inserts again and stores its deleted rows once more, under new keys.
-/

namespace VersionedColumns.Table

/-- The changes of a session that are neither committed nor undone. -/
def pendingOf (table : Table) (session : Session) : List Row :=
  table.primary.pending.ownedBy session

/-- Let one uncommitted change count for every session. -/
def commitRow (table : Table) (kind : ChangeKind) (row : Row) : Table :=
  { table with primary := table.primary.commit kind row }

/-- Let a session's changes count for every session, and tell their number. -/
def commit (table : Table) (session : Session) : Nat × Table :=
  let changes := table.pendingOf session
  (changes.length,
    changes.foldl (fun table row => table.commitRow row.changeKind row) table)

/-- Undo one uncommitted change of a session. -/
def undo (table : Table) (session : Session) (change : Row) :
    Outcome Table Unit :=
  match change.changeKind with
  | .insert =>
    let (outcome, table) := table.remove session change.key
    (outcome.map fun _ => (), table)
  | .delete =>
    match table.insert session change.values with
    | (.error error, table) => (.error error, table)
    | (.ok key, table) =>
      match table.row key with
      | .error error => (.error error, table)
      | .ok restored =>
        (.ok (), (table.commitRow .insert restored).commitRow .delete change)

/-- Undo changes one after the other, up to the first that fails. -/
def undoEach (session : Session) : List Row → Table → Outcome Table Unit
  | [], table => (.ok (), table)
  | change :: rest, table =>
    match table.undo session change with
    | (.error error, table) => (.error error, table)
    | (.ok (), table) => undoEach session rest table

/-- Undo the uncommitted changes of a session, and tell their number. -/
def rollback (table : Table) (session : Session) : Outcome Table Nat :=
  let changes := table.pendingOf session
  let (outcome, table) := undoEach session changes table
  (outcome.map fun _ => changes.length, table)

/-- A session without changes has nothing to commit. -/
theorem commit_of_pendingOf_nil {table : Table} {session : Session}
    (idle : table.pendingOf session = []) :
    table.commit session = (0, table) := by
  simp [commit, idle]

/-- A session without changes has nothing to undo. -/
theorem rollback_of_pendingOf_nil {table : Table} {session : Session}
    (idle : table.pendingOf session = []) :
    table.rollback session = (.ok 0, table) := by
  simp [rollback, idle, undoEach, Except.map]

end VersionedColumns.Table
