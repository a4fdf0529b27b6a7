import VersionedColumns.Table.Indexes
import VersionedColumns.Table.Transaction

/-!
# The life of a table

The calls that change a table, as data, and what a sequence of them makes of
it.  A call that fails has an effect too: the table as it leaves it.
-/

namespace VersionedColumns.Table

/-- A call that changes a table. -/
inductive Action where
  | insert (session : Session) (values : List Value)
  | remove (session : Session) (key : Key)
  | commit (session : Session)
  | rollback (session : Session)
  | addIndex (name column : String)
  | dropIndex (name : String)
  | renameIndex (name newName : String)
  | truncate
  | close
  | discard
deriving DecidableEq

/-- What a call answers when it succeeds. -/
inductive Reply where
  | done
  | key (key : Key)
  | row (row : Row)
  | count (count : Nat)
deriving DecidableEq

/-- Carry out a call. -/
def perform (table : Table) : Action → Outcome Table Reply
  | .insert session values =>
    let (outcome, table) := table.insert session values
    (outcome.map .key, table)
  | .remove session key =>
    let (outcome, table) := table.remove session key
    (outcome.map .row, table)
  | .commit session =>
    let (count, table) := table.commit session
    (.ok (.count count), table)
  | .rollback session =>
    let (outcome, table) := table.rollback session
    (outcome.map .count, table)
  | .addIndex name column =>
    let (outcome, table) := table.addIndex name column
    (outcome.map fun _ => .done, table)
  | .dropIndex name =>
    let (outcome, table) := table.dropIndex name
    (outcome.map fun _ => .done, table)
  | .renameIndex name newName =>
    let (outcome, table) := table.renameIndex name newName
    (outcome.map fun _ => .done, table)
  | .truncate => (.ok .done, table.truncate)
  | .close => (.ok .done, table.close)
  | .discard => (.ok .done, table.discard)

/-- The table after a call, whether it succeeds or fails. -/
def after (table : Table) (action : Action) : Table :=
  (table.perform action).2

/-- The table after a sequence of calls. -/
def run (table : Table) (actions : List Action) : Table :=
  actions.foldl after table

@[simp]
theorem run_nil (table : Table) : table.run [] = table := rfl

@[simp]
theorem run_cons (table : Table) (action : Action) (actions : List Action) :
    table.run (action :: actions) = (table.after action).run actions := rfl

@[simp]
theorem run_append (table : Table) (first second : List Action) :
    table.run (first ++ second) = (table.run first).run second := by
  simp [run]

end VersionedColumns.Table
