import VersionedColumns.Binary64.Rounding
import VersionedColumns.Text.Letters

/-!
# Configuration

What can be set for all tables at once, and the values that hold when nothing
is set.  Diagnostics can also be asked for by an environment variable.
-/

namespace VersionedColumns

/-- The version of the library. -/
def version : String := "0.1.0"

/-- The environment variable that asks for diagnostics. -/
def diagnosticsVariable : String := "ATLASCOL_DEBUG"

/-- The settings that all tables of a catalog share. -/
structure Config where
  /-- Whether changes wait for a commit before other sessions see them. -/
  versioned : Bool
  /-- Whether the columns are listed in the log after every insert. -/
  diagnostics : Bool
  /-- What a scan costs even if the table is empty. -/
  scanCost : Binary64
deriving DecidableEq

namespace Config

/-- The settings under a given value of the environment variable, if any. -/
def ofEnvironment (setting : Option String) : Config where
  versioned := false
  diagnostics := setting.any (Text.sameLetters "on")
  scanCost := Binary64.ofInteger 1000

/-- The settings where the environment variable is not set. -/
def standard : Config :=
  ofEnvironment none

end Config

end VersionedColumns
