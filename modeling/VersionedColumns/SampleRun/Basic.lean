import VersionedColumns.Catalog
import VersionedColumns.SampleRun.Options

/-!
# A sample run

A table of three columns is filled with rows that follow a simple rule, indexed
if asked for, thinned out and committed.  The report tells how many rows there
are and what they take, what each index would cost, which rows a scan yields,
and where a searched value is found.
-/

namespace VersionedColumns

/-- What a program leaves behind: its exit code and its standard output. -/
structure ProgramResult where
  exitCode : Nat
  output : String
deriving DecidableEq

namespace SampleRun

/-- The table of a sample run. -/
def schema : Schema where
  name := "T"
  columns := [⟨"A", .int⟩, ⟨"B", .varchar⟩, ⟨"C", .bigInt⟩]
  persistent := false

/-- The values of the row with a given number. -/
def rowValues (number : Nat) : List Value :=
  [.int (Int32.ofInt (number % 3 : Nat)),
    .varchar (String.ofList (Text.naturalDigits (number % 2))),
    .bigInt (Int64.ofInt (10 * (number : Int) - 5))]

/-- The name of the index on a column. -/
def indexName (column : String) : String :=
  "IDX_" ++ Text.capitals column

/-- A change to the table that ends the run if it fails. -/
def advance {Result : Type} (outcome : Outcome Table Result) :
    Except Error Table :=
  outcome.1.map fun _ => outcome.2

/-- Insert the rows with the given numbers. -/
def load (session : Session) (table : Table) :
    List Nat → Except Error Table
  | [] => .ok table
  | number :: rest => do
    let table ← advance (table.insert session (rowValues number))
    load session table rest

/-- Remove the rows with the given keys. -/
def thin (session : Session) (table : Table) : List Key → Except Error Table
  | [] => .ok table
  | key :: rest => do
    let table ← advance (table.remove session key)
    thin session table rest

/-- The keys below a bound that are met in steps of one length. -/
def keysInSteps (step : Nat) (forward : 0 < step) (bound key : Key) :
    List Key :=
  if key < bound then key :: keysInSteps step forward bound (key + step)
  else []
termination_by bound - key
decreasing_by grind

/-- The keys to remove: the first, and from there on in steps, if at all. -/
def keysToRemove (options : SampleOptions) : List Key :=
  if forward : 0 < options.removeEvery then
    keysInSteps options.removeEvery forward options.rows 0
  else []

/-- The committed table of a run, and the session that made it. -/
def prepare (options : SampleOptions) : Except Error (Session × Table) := do
  let config := { Config.standard with versioned := options.versioned }
  let (session, catalog) := (Catalog.empty config).openSession
  let (created, catalog) := catalog.create schema
  let table ← catalog.table (← created)
  let table ← load session table (List.range options.rows)
  let table ←
    match options.indexColumn with
    | some column => advance (table.addIndex (indexName column) column)
    | none => .ok table
  let table ← thin session table (keysToRemove options)
  return (session, (table.commit session).2)

/-! ## The report -/

/-- The line on the size of the table. -/
def sizeLine (session : Session) (table : Table) : String :=
  "rows: " ++ toString (table.rowCount session) ++ " (memory: " ++
    toString table.memoryUse ++ " bytes)\n"

/-- The line on an index, with its cost for a comparison of column `A`. -/
def indexLine (index : Index) : String :=
  "index " ++ index.planText ++ " cost(A=?): " ++
    (index.cost (some [Comparisons.equality, 0, 0])).display ++ "\n"

/-- A number at the right end of four places, or of more if it needs them. -/
def rightAligned (number : Nat) : String :=
  let digits := Text.naturalDigits number
  String.ofList (List.replicate (4 - digits.length) ' ' ++ digits)

/-- The line on a row. -/
def rowLine (row : Row) : String :=
  rightAligned row.key ++ ": " ++
    " | ".intercalate (row.values.map Value.display) ++ "\n"

/-- The report up to the search. -/
def report (session : Session) (table : Table) : String :=
  sizeLine session table ++ String.join (table.indexes.map indexLine) ++
    String.join ((table.scan session).remaining.1.map rowLine)

/-- The line on the search, if one is asked for. -/
def probeLine (options : SampleOptions) (session : Session) (table : Table) :
    Except Error String :=
  match options.indexColumn, options.probe with
  | some column, some probe => do
    let found ← table.findEqual session column (.varchar probe)
    let place :=
      match found with
      | some row => "key " ++ toString row.key
      | none => "no row"
    return "probe " ++ column ++ "=" ++ probe ++ " -> " ++ place ++ "\n"
  | _, _ => .ok ""

/-- The whole run.  After a failure the output ends where it stood. -/
def result (options : SampleOptions) : ProgramResult :=
  match prepare options with
  | .error _ => ⟨1, ""⟩
  | .ok (session, table) =>
    match probeLine options session table with
    | .error _ => ⟨1, report session table⟩
    | .ok line => ⟨0, report session table ++ line⟩

end SampleRun

end VersionedColumns
