import VersionedColumns.Proofs.Grid
import VersionedColumns.Proofs.Index.Equality

/-!
# Indexes that mirror a grid

An equality index mirrors a grid from a key on when it holds, for every value,
the live keys from there on whose cell in the indexed column has that value,
in increasing order.

To store a row in the grid and in the index, or to remove it from both, keeps
them mirrored.  A row below the first mirrored key is not in the index and may
be removed just the same.
-/

namespace VersionedColumns

/-- The live keys from a given one on that have a value in a column. -/
def Grid.keysWith (grid : Grid) (column : Nat) (first : Key) (value : Value) :
    List Key :=
  (List.range grid.nextKey).filter fun key =>
    first ≤ key && grid.isLive key && (grid.cells key)[column]? == some value

namespace Grid

variable {grid : Grid} {column : Nat} {first key : Key} {value : Value}

theorem mem_keysWith :
    key ∈ grid.keysWith column first value ↔
      first ≤ key ∧ grid.isLive key = true ∧
        (grid.cells key)[column]? = some value := by
  simp only [keysWith, List.mem_filter, List.mem_range, Bool.and_eq_true,
    decide_eq_true_eq, beq_iff_eq]
  constructor
  · rintro ⟨-, ⟨behind, live⟩, held⟩
    exact ⟨behind, live, held⟩
  · rintro ⟨behind, live, held⟩
    exact ⟨lt_nextKey_of_isLive live, ⟨behind, live⟩, held⟩

theorem keysWith_pairwise :
    (grid.keysWith column first value).Pairwise (· < ·) :=
  List.Pairwise.filter _ List.pairwise_lt_range

theorem keysWith_nodup : (grid.keysWith column first value).Nodup :=
  List.Nodup.filter _ List.nodup_range

theorem keysWith_eq_nil (behind : grid.nextKey ≤ first) :
    grid.keysWith column first value = [] := by
  rw [List.eq_nil_iff_forall_not_mem]
  intro key member
  rcases mem_keysWith.1 member with ⟨later, live, -⟩
  exact
    absurd (lt_nextKey_of_isLive live) (Nat.not_lt.2 (Nat.le_trans behind later))

/-- A stored row comes last among the keys with its value. -/
theorem InStep.keysWith_appended (inStep : grid.InStep) {values : List Value}
    (fitting : values.length = grid.columns.length)
    (inside : first ≤ grid.nextKey) :
    (grid.appended values).keysWith column first value =
      if values[column]? = some value then
        grid.keysWith column first value ++ [grid.nextKey]
      else grid.keysWith column first value := by
  have old : (List.range grid.nextKey).filter (fun key =>
      first ≤ key && (grid.appended values).isLive key &&
        ((grid.appended values).cells key)[column]? == some value) =
        grid.keysWith column first value := by
    apply List.filter_congr
    intro key member
    have differs : key ≠ grid.nextKey := Nat.ne_of_lt (List.mem_range.1 member)
    rw [inStep.isLive_appended, beq_eq_false_iff_ne.2 differs, Bool.or_false,
      inStep.cells_appended fitting, if_neg differs]
  have live : (grid.appended values).isLive grid.nextKey = true := by
    simp [inStep.isLive_appended]
  have cells : (grid.appended values).cells grid.nextKey = values :=
    (inStep.cells_appended fitting grid.nextKey).trans (if_pos rfl)
  rw [keysWith, appended_nextKey, List.range_succ, List.filter_append, old]
  by_cases held : values[column]? = some value <;>
    simp [live, cells, inside, held]

theorem keysWith_without (gone : Key) :
    (grid.without gone).keysWith column first value =
      (grid.keysWith column first value).filter (· != gone) := by
  rw [keysWith, keysWith, List.filter_filter, without_nextKey]
  apply List.filter_congr
  intro key member
  rw [isLive_without]
  by_cases same : key = gone
  · simp [same]
  · rw [cells_without_of_ne _ same, bne_iff_ne.2 same, Bool.and_true,
      Bool.true_and]

end Grid

/-- An index holds the keys of a grid from a given one on. -/
structure EqualityIndex.Mirrors (index : EqualityIndex) (grid : Grid)
    (first : Key) : Prop where
  reaches : index.column < grid.columns.length
  inside : first ≤ grid.nextKey
  holds : index.Holds (grid.keysWith index.column first)

namespace EqualityIndex.Mirrors

variable {index : EqualityIndex} {grid : Grid} {first : Key}

/-- An index without rows mirrors the keys that are still to come. -/
theorem clear (reaches : index.column < grid.columns.length) :
    index.clear.Mirrors grid grid.nextKey where
  reaches := reaches
  inside := Nat.le_refl _
  holds :=
    (Holds.clear index).congr fun _ =>
      (Grid.keysWith_eq_nil (Nat.le_refl _)).symm

theorem insert (mirrors : index.Mirrors grid first) (inStep : grid.InStep)
    {row : Row} (fitting : row.values.length = grid.columns.length)
    (next : row.key = grid.nextKey) :
    (index.insert row).2.Mirrors (grid.appended row.values) first := by
  have reaches : index.column < row.values.length := fitting ▸ mirrors.reaches
  have held : row.value? index.column = some row.values[index.column] :=
    List.getElem?_eq_getElem reaches
  refine ⟨?_, Nat.le_succ_of_le mirrors.inside, ?_⟩
  · rw [insert_column, Grid.appended_columns_length fitting]
    exact mirrors.reaches
  · rw [insert_column]
    apply (mirrors.holds.insert held).congr
    intro value
    rw [inStep.keysWith_appended fitting mirrors.inside, next,
      List.getElem?_eq_getElem reaches]
    simp only [Option.some.injEq, eq_comm]

theorem remove (mirrors : index.Mirrors grid first) {row : Row}
    (values : row.values = grid.cells row.key) :
    (index.remove row).2.Mirrors (grid.without row.key) first := by
  have reaches : index.column < row.values.length := by
    rw [values, Grid.cells_length]
    exact mirrors.reaches
  have held : row.value? index.column = some row.values[index.column] :=
    List.getElem?_eq_getElem reaches
  refine ⟨?_, mirrors.inside, ?_⟩
  · rw [remove_column, Grid.without_columns_length]
    exact mirrors.reaches
  · rw [remove_column]
    apply (mirrors.holds.remove held).congr
    intro value
    rw [Grid.keysWith_without]
    split
    · rw [Grid.keysWith_nodup.erase_eq_filter]
    · rename_i differs
      symm
      rw [List.filter_eq_self]
      intro key member
      rw [bne_iff_ne]
      rintro rfl
      have cell := (Grid.mem_keysWith.1 member).2.2
      rw [← values] at cell
      exact differs (Option.some.inj (cell.symm.trans held))

end EqualityIndex.Mirrors

end VersionedColumns
