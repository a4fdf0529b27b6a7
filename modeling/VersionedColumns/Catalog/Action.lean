import VersionedColumns.Catalog

/-!
# The life of a catalog

The calls that change a catalog, as data, and what a sequence of them makes of
it.  A table is called through its number until it is dropped, and through the
handle that its creation gave for as long as anybody likes.
-/

namespace VersionedColumns.Catalog

/-- A call that changes a catalog or one of its tables. -/
inductive Action where
  | create (schema : Schema)
  | drop (id : TableId)
  | openSession
  /-- Call the table with a number. -/
  | onListed (id : TableId) (call : Table.Action)
  /-- Call the table that a handle reaches. -/
  | onHeld (handle : Handle) (call : Table.Action)
deriving DecidableEq

/-- What a call answers when it succeeds, or reaches a table. -/
inductive Reply where
  | done
  | table (found : TableHandle)
  | session (session : Session)
  /-- What the table answers, which may be an error. -/
  | answered (answer : Except Error Table.Reply)

/-- Pass a call on to the table that a handle reaches. -/
def pass (catalog : Catalog) (handle : Handle) (call : Table.Action) :
    Outcome Catalog Reply :=
  match catalog.held? handle with
  | none => (.error (.tableNotFound handle), catalog)
  | some table =>
    let (answer, table) := table.perform call
    (.ok (.answered answer), catalog.update handle table)

/-- Carry out a call. -/
def perform (catalog : Catalog) : Action → Outcome Catalog Reply
  | .create schema =>
    let (outcome, catalog) := catalog.createTable schema
    (outcome.map .table, catalog)
  | .drop id =>
    let (outcome, catalog) := catalog.drop id
    (outcome.map fun _ => .done, catalog)
  | .openSession =>
    let (session, catalog) := catalog.openSession
    (.ok (.session session), catalog)
  | .onListed id call =>
    match catalog.handle id with
    | .error error => (.error error, catalog)
    | .ok handle => catalog.pass handle call
  | .onHeld handle call => catalog.pass handle call

/-- The catalog after a call, whether it succeeds or fails. -/
def after (catalog : Catalog) (action : Action) : Catalog :=
  (catalog.perform action).2

/-- The catalog after a sequence of calls. -/
def run (catalog : Catalog) (actions : List Action) : Catalog :=
  actions.foldl after catalog

@[simp]
theorem run_nil (catalog : Catalog) : catalog.run [] = catalog := rfl

@[simp]
theorem run_cons (catalog : Catalog) (action : Action)
    (actions : List Action) :
    catalog.run (action :: actions) = (catalog.after action).run actions := rfl

end VersionedColumns.Catalog
