import VersionedColumns.Text.Numeral

/-!
# Options of a sample run

What a sample run can be told on its command line: how many rows to load,
which column to index and what to look up there, how many rows to remove, and
whether changes wait for a commit.
-/

namespace VersionedColumns

/-- The settings of a sample run. -/
structure SampleOptions where
  /-- The number of rows to load. -/
  rows : Nat
  /-- The column to build an equality index on. -/
  indexColumn : Option String
  /-- The text to look up through that index. -/
  probe : Option String
  /-- Every so many rows one is removed; none if zero. -/
  removeEvery : Nat
  versioned : Bool
deriving DecidableEq

namespace SampleOptions

/-- The settings where nothing is asked for. -/
def standard : SampleOptions where
  rows := 10
  indexColumn := none
  probe := none
  removeEvery := 0
  versioned := false

/-- Read a count of at most 32 bits. -/
def readCount? (text : String) : Option Nat :=
  (Text.readInteger? text.toList).bind fun number =>
    if 0 ≤ number ∧ number < UInt32.size then some number.toNat else none

/-- Set the option with a name to a text; none if there is no such option. -/
def set? (options : SampleOptions) (name value : String) :
    Option (Except String SampleOptions) :=
  let counted (change : Nat → SampleOptions) : Except String SampleOptions :=
    match readCount? value with
    | some count => .ok (change count)
    | none => .error ("invalid value '" ++ value ++ "' for '" ++ name ++ "'")
  if name ∈ ["--rows", "-r"] then
    some (counted fun count => { options with rows := count })
  else if name ∈ ["--remove-every"] then
    some (counted fun count => { options with removeEvery := count })
  else if name ∈ ["--index-column", "-i"] then
    some (.ok { options with indexColumn := some value })
  else if name ∈ ["--probe", "-p"] then
    some (.ok { options with probe := some value })
  else none

/-- Read the arguments of a command line into the options. -/
def read (options : SampleOptions) : List String → Except String SampleOptions
  | [] => .ok options
  | name :: rest =>
    if name ∈ ["--multi-version", "-m"] then
      read { options with versioned := true } rest
    else
      match rest with
      | [] => .error ("unexpected argument or missing value: " ++ name)
      | value :: rest =>
        match options.set? name value with
        | some (.ok options) => read options rest
        | some (.error message) => .error message
        | none => .error ("unexpected argument: " ++ name)

end SampleOptions

end VersionedColumns
