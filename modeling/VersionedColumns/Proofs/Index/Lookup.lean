import VersionedColumns.Proofs.Index.Mirror
import VersionedColumns.Proofs.Index.View

/-!
# The first row with a value

To look a value up in a column without an index is to walk the live rows in the
order of their keys and to stop at the first one with the value.  The main
statement says that this walk stops at the row of the least live key whose cell
has the value, whoever may see it.
-/

namespace VersionedColumns

namespace Grid

/-- The least live key whose cell in a column has a value. -/
structure IsFirstWith (grid : Grid) (column : Nat) (value : Value) (key : Key) :
    Prop where
  live : grid.isLive key = true
  held : (grid.cells key)[column]? = some value
  least : ∀ {other}, grid.isLive other = true →
    (grid.cells other)[column]? = some value → key ≤ other

variable {grid : Grid} {column : Nat} {value : Value} {key : Key}

/-- There is at most one first key with a value. -/
theorem IsFirstWith.unique {other : Key}
    (first : grid.IsFirstWith column value key)
    (otherFirst : grid.IsFirstWith column value other) :
    key = other :=
  Nat.le_antisymm (first.least otherFirst.live otherFirst.held)
    (otherFirst.least first.live first.held)

theorem head?_keysWith_eq_some_iff :
    (grid.keysWith column 0 value).head? = some key ↔
      grid.IsFirstWith column value key := by
  have ordered : (grid.keysWith column 0 value).Pairwise (· < ·) :=
    keysWith_pairwise
  have members : ∀ other, other ∈ grid.keysWith column 0 value ↔
      grid.isLive other = true ∧ (grid.cells other)[column]? = some value :=
    fun other => mem_keysWith.trans (and_iff_right (Nat.zero_le other))
  generalize grid.keysWith column 0 value = keys at ordered members
  cases keys with
  | nil =>
      constructor
      · exact nofun
      · intro first
        cases (members key).2 ⟨first.live, first.held⟩
  | cons head rest =>
      have behind := (List.pairwise_cons.1 ordered).1
      have headFirst : grid.IsFirstWith column value head := by
        rcases (members head).1 List.mem_cons_self with ⟨live, held⟩
        refine ⟨live, held, ?_⟩
        intro other otherLive otherHeld
        rcases List.mem_cons.1 ((members other).2 ⟨otherLive, otherHeld⟩) with
          rfl | later
        · exact Nat.le_refl _
        · exact Nat.le_of_lt (behind other later)
      rw [List.head?_cons, Option.some.injEq]
      constructor
      · rintro rfl
        exact headFirst
      · intro first
        exact headFirst.unique first

theorem head?_keysWith_eq_none_iff :
    (grid.keysWith column 0 value).head? = none ↔
      ∀ key, ¬grid.IsFirstWith column value key := by
  rw [Option.eq_none_iff_forall_ne_some]
  exact forall_congr' fun key => not_congr head?_keysWith_eq_some_iff

end Grid

namespace PrimaryIndex

/-- Whether a row has a value in a column. -/
def holdsAt (column : Nat) (value : Value) (row : Row) : Bool :=
  row.value? column == some value

@[simp]
theorem holdsAt_iff {column : Nat} {value : Value} {row : Row} :
    holdsAt column value row = true ↔ row.value? column = some value :=
  beq_iff_eq

/-- The first live row with a value is that of the least key with it. -/
theorem Coherent.find?_liveRows {index : PrimaryIndex}
    (coherent : index.Coherent) (columns : index.grid.columns ≠ [])
    (fits : index.nextKey < 2 ^ 64) (column : Nat) (value : Value) :
    index.liveRows.find? (holdsAt column value) =
      (index.grid.keysWith column 0 value).head?.bind index.row? := by
  have walked : (List.range index.nextKey).filter (fun key =>
      (index.filledRow? key).any (holdsAt column value)) =
        index.grid.keysWith column 0 value := by
    apply List.filter_congr
    intro key member
    have inside := List.mem_range.1 member
    have notLast := ne_tombstoneKey_of_lt inside fits
    rcases coherent.filledRow?_cases columns inside notLast with
      ⟨dead, none⟩ | ⟨live, row, found, -, values⟩
    · simp [dead, none]
    · simp [live, found, holdsAt, Row.value?, values]
  rw [liveRows, List.find?_filterMap, ← List.head?_filter, walked]
  cases first : (index.grid.keysWith column 0 value).head? with
  | none => rfl
  | some key =>
      have live := (Grid.head?_keysWith_eq_some_iff.1 first).live
      have inside := Grid.lt_nextKey_of_isLive live
      have notLast := ne_tombstoneKey_of_lt inside fits
      rcases coherent.filledRow?_cases columns inside notLast with
        ⟨dead, -⟩ | ⟨-, row, found, -, -⟩
      · rw [live] at dead
        cases dead
      · have read := (Option.filter_eq_some_iff.1 found).1
        rw [Option.bind_some, Option.bind_some, found, read]

end PrimaryIndex

end VersionedColumns
