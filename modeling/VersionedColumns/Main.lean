import VersionedColumns.SampleRun.Basic

/-!
# The sample program

The command line around a sample run: arguments in, report and exit code out.
-/

open VersionedColumns

/-- Run the sample that the arguments ask for. -/
def main (arguments : List String) : IO UInt32 := do
  match SampleOptions.standard.read arguments with
  | .error message =>
    IO.eprintln ("error: " ++ message)
    return 2
  | .ok options =>
    let result := SampleRun.result options
    IO.print result.output
    return UInt32.ofNat result.exitCode
