import VersionedColumns.Binary64.Rounding

/-!
# What a query compares, and what that costs

For every column a query names the comparisons it makes as a set of bits.  An
index answers with a cost, and the cheapest index is taken.
-/

namespace VersionedColumns

/-- A set of comparisons on one column, a bit for each. -/
abbrev Comparisons := Nat

namespace Comparisons

/-- The column equals a value. -/
def equality : Comparisons := 1

/-- The column is at least a value. -/
def start : Comparisons := 2

/-- The column is at most a value. -/
def finish : Comparisons := 4

/-- The column lies between two values. -/
def range : Comparisons := start ||| finish

/-- The condition never holds. -/
def never : Comparisons := 8

/-- Whether the comparisons on a column include equality. -/
def hasEquality (comparisons : Comparisons) : Bool :=
  comparisons &&& equality == equality

end Comparisons

/-- The cost of an index that does not serve the query. -/
def unusableCost : Binary64 := Binary64.ofInteger Int64.maxValue.toInt

/-- The cost of looking up one value. -/
def lookupCost : Binary64 := Binary64.ofInteger 2

end VersionedColumns
