import Mathlib.Data.Finset.Image
import VersionedColumns.Table.Action

/-!
# Snapshots of committed and pending rows

What a table in which changes wait for a commit means to its sessions, without
cells, marks or counters: one map of committed rows, and for every session the
rows it has inserted and the keys it has deleted.  Every call has its meaning
here, answers included, and a session sees the committed rows it has not
deleted together with its own inserts.

Calls on indexes do nothing to these maps, and their answers are not told.
-/

namespace VersionedColumns

open Table (Action Reply)

/-- The committed rows and the pending changes of every session. -/
@[ext]
structure Snapshots where
  /-- The key that the next row will have. -/
  next : Key
  committed : Key → Option (List Value)
  inserts : Session → Key → Option (List Value)
  /-- Sessions with the committed keys that they have deleted. -/
  deletes : Finset (Session × Key)

namespace Snapshots

/-- Nothing is committed and nothing is pending. -/
def empty : Snapshots where
  next := 0
  committed _ := none
  inserts _ _ := none
  deletes := ∅

/-! ## What a session sees -/

/-- The values that a session sees under a key. -/
def seen (store : Snapshots) (session : Session) (key : Key) :
    Option (List Value) :=
  (store.inserts session key).or
    (if (session, key) ∈ store.deletes then none else store.committed key)

/-- The keys and values that a session sees, in the order of the keys. -/
def rows (store : Snapshots) (session : Session) : List (Key × List Value) :=
  (List.range store.next).filterMap fun key =>
    (store.seen session key).map (key, ·)

/-! ## Changing rows -/

/-- A session inserts a row under the next key. -/
def insert (store : Snapshots) (session : Session) (values : List Value) :
    Snapshots :=
  { store with
    next := store.next + 1
    inserts := fun other key =>
      if other = session ∧ key = store.next then some values
      else store.inserts other key }

/-- A session takes an insert of its own back. -/
def takeBack (store : Snapshots) (session : Session) (key : Key) : Snapshots :=
  { store with
    inserts := fun other held =>
      if other = session ∧ held = key then none else store.inserts other held }

/-- A session deletes a committed row. -/
def delete (store : Snapshots) (session : Session) (key : Key) : Snapshots :=
  { store with deletes := Insert.insert (session, key) store.deletes }

/-- Whether any session has deleted the key. -/
def isDeleted (store : Snapshots) (key : Key) : Bool :=
  key ∈ store.deletes.image Prod.snd

/--
A session removes a row: an insert of its own, or a committed row that nobody
has deleted.
-/
def remove (store : Snapshots) (session : Session) (key : Key) :
    Outcome Snapshots Row :=
  match store.inserts session key with
  | some values =>
    (.ok ⟨key, values, false, session⟩, store.takeBack session key)
  | none =>
    match store.committed key with
    | some values =>
      if store.isDeleted key then
        (.error (.nothingToRemove key store.next), store)
      else (.ok (Row.stored key values), store.delete session key)
    | none => (.error (.nothingToRemove key store.next), store)

/-! ## Ending a transaction -/

/-- The number of a session's pending inserts and deletes. -/
def pendingCount (store : Snapshots) (session : Session) : Nat :=
  ((List.range store.next).filter fun key =>
    (store.inserts session key).isSome || (session, key) ∈ store.deletes).length

/-- A session's changes become committed. -/
def commit (store : Snapshots) (session : Session) : Snapshots :=
  { store with
    committed := fun key =>
      if (session, key) ∈ store.deletes then none
      else (store.inserts session key).or (store.committed key)
    inserts := fun other key =>
      if other = session then none else store.inserts other key
    deletes := store.deletes.filter fun change => change.1 ≠ session }

/-- The rows that a session has deleted, in the order of their keys. -/
def deletedRows (store : Snapshots) (session : Session) : List (List Value) :=
  (List.range store.next).filterMap fun key =>
    if (session, key) ∈ store.deletes then store.committed key else none

/--
A session's inserts are dropped, and the rows that it has deleted move to the
next keys in the order of their old ones.  They are committed there.
-/
def rollback (store : Snapshots) (session : Session) : Snapshots where
  next := store.next + (store.deletedRows session).length
  committed key :=
    if key < store.next then
      if (session, key) ∈ store.deletes then none else store.committed key
    else (store.deletedRows session)[key - store.next]?
  inserts other key :=
    if other = session then none else store.inserts other key
  deletes := store.deletes.filter fun change => change.1 ≠ session

/-! ## Calls -/

/-- Carry out a call on a table with the given columns. -/
def perform (columns : List Column) (store : Snapshots) :
    Action → Option (Except Error Reply) × Snapshots
  | .insert session values =>
    if values.length = columns.length then
      match Table.convert columns values with
      | .error error => (some (.error error), store)
      | .ok converted =>
        (some (.ok (.key store.next)), store.insert session converted)
    else
      (some (.error (.columnCountMismatch columns.length values.length)), store)
  | .remove session key =>
    let (outcome, store) := store.remove session key
    (some (outcome.map .row), store)
  | .commit session =>
    (some (.ok (.count (store.pendingCount session))), store.commit session)
  | .rollback session =>
    (some (.ok (.count (store.pendingCount session))), store.rollback session)
  | .addIndex .. | .dropIndex .. | .renameIndex .. => (none, store)
  | .truncate | .discard => (some (.ok .done), empty)
  | .close => (some (.ok .done), store)

/-- The store after a sequence of calls. -/
def run (columns : List Column) (store : Snapshots) (actions : List Action) :
    Snapshots :=
  actions.foldl (fun store action => (store.perform columns action).2) store

end Snapshots

end VersionedColumns
