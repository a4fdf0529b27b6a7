import Mathlib.Data.List.Nodup
import VersionedColumns.Grid

/-!
# Grids in step

A grid is in step when every column has exactly one cell for every key that
was handed out and only such keys are removed.  All operations keep a grid in
step, and each of them has one exact effect on two views of it: which keys are
live, and what the cells of a key are.

The live keys in increasing order are the third view.  A stored row is put at
their end, and a removal takes out one of them.
-/

namespace VersionedColumns.Grid

/-- Columns, removed keys and the next key belong together. -/
structure InStep (grid : Grid) : Prop where
  size_eq : ∀ column ∈ grid.columns, column.size = grid.nextKey
  removed_lt : ∀ key ∈ grid.removed, key < grid.nextKey
  removed_nodup : grid.removed.Nodup

/-- The keys that are handed out and not removed, in increasing order. -/
def liveKeys (grid : Grid) : List Key :=
  (List.range grid.nextKey).filter grid.isLive

@[simp]
theorem mem_liveKeys {grid : Grid} {key : Key} :
    key ∈ grid.liveKeys ↔ grid.isLive key = true := by
  simp only [liveKeys, List.mem_filter, List.mem_range]
  constructor
  · exact fun member => member.2
  · exact fun live => ⟨(isLive_iff.1 live).1, live⟩

theorem lt_nextKey_of_isLive {grid : Grid} {key : Key}
    (live : grid.isLive key = true) :
    key < grid.nextKey :=
  (isLive_iff.1 live).1

/-- A key that was not handed out is not live. -/
theorem isLive_eq_false_of_le {grid : Grid} {key : Key}
    (outside : grid.nextKey ≤ key) :
    grid.isLive key = false := by
  cases live : grid.isLive key with
  | false => rfl
  | true =>
      exact absurd (lt_nextKey_of_isLive live) (Nat.not_lt.2 outside)

theorem row?_eq_of_isLive_false {grid : Grid} {key : Key}
    (inside : key < grid.nextKey) (dead : grid.isLive key = false) :
    grid.row? key = some Row.tombstone := by
  have removed : grid.isRemoved key = true := by
    simpa [isLive, inside] using dead
  rw [row?, if_neg (Nat.not_le.2 inside), if_pos removed]

/-! ## The empty grid -/

theorem InStep.empty (names : List String) : (empty names).InStep where
  size_eq := by
    intro column member
    rcases List.mem_map.1 member with ⟨name, -, rfl⟩
    rfl
  removed_lt := by
    intro key member
    cases member
  removed_nodup := List.nodup_nil

theorem InStep.clear (grid : Grid) : grid.clear.InStep where
  size_eq := by
    intro column member
    rcases List.mem_map.1 member with ⟨old, -, rfl⟩
    rfl
  removed_lt := by
    intro key member
    cases member
  removed_nodup := List.nodup_nil

@[simp]
theorem clear_columns_length (grid : Grid) :
    grid.clear.columns.length = grid.columns.length := by
  simp [Grid.clear]

/-! ## Storing a row -/

/-- The grid with one more row, one value for every column. -/
def appended (grid : Grid) (values : List Value) : Grid :=
  { grid with
    columns := List.zipWith Array.push grid.columns values
    nextKey := grid.nextKey + 1
    bytes := grid.bytes + Value.footprints values }

theorem append_of_length_eq {grid : Grid} {values : List Value}
    (fitting : values.length = grid.columns.length) :
    grid.append values = (.ok grid.nextKey, grid.appended values) := by
  rw [append, if_pos fitting, appended]

@[simp]
theorem appended_nextKey (grid : Grid) (values : List Value) :
    (grid.appended values).nextKey = grid.nextKey + 1 := rfl

@[simp]
theorem appended_removed (grid : Grid) (values : List Value) :
    (grid.appended values).removed = grid.removed := rfl

theorem appended_columns_length {grid : Grid} {values : List Value}
    (fitting : values.length = grid.columns.length) :
    (grid.appended values).columns.length = grid.columns.length := by
  simp [appended, fitting]

/-- One more cell at the end of every column is read under the next key. -/
theorem map_getD_zipWith_push {columns : List (Array Value)} {next : Key}
    (sizes : ∀ column ∈ columns, column.size = next)
    {values : List Value} (fitting : values.length = columns.length)
    (key : Key) :
    ((List.zipWith Array.push columns values).map fun column =>
        column.getD key .null) =
      if key = next then values
      else columns.map fun column => column.getD key .null := by
  induction columns generalizing values with
  | nil =>
      cases List.length_eq_zero_iff.1 fitting
      simp
  | cons column columns induction =>
      rcases List.exists_cons_of_length_eq_add_one fitting with
        ⟨value, values, rfl⟩
      have size : column.size = next := sizes column List.mem_cons_self
      have others :=
        induction
          (fun other member => sizes other (List.mem_cons_of_mem _ member))
          (Nat.succ.inj fitting)
      rw [List.zipWith_cons_cons, List.map_cons, others]
      by_cases last : key = next
      · have pushed : (column.push value).getD key .null = value := by
          simp [Array.getD_eq_getD_getElem?, last, ← size]
        rw [if_pos last, if_pos last, pushed]
      · have kept : (column.push value).getD key .null = column.getD key .null := by
          simp [Array.getD_eq_getD_getElem?, Array.getElem?_push, size, last]
        rw [if_neg last, if_neg last, kept, List.map_cons]

/-- A stored row is read under its key, and all other cells are as before. -/
theorem InStep.cells_appended {grid : Grid} (inStep : grid.InStep)
    {values : List Value} (fitting : values.length = grid.columns.length)
    (key : Key) :
    (grid.appended values).cells key =
      if key = grid.nextKey then values else grid.cells key :=
  map_getD_zipWith_push inStep.size_eq fitting key

/-- A stored row makes the next key live. -/
theorem InStep.isLive_appended {grid : Grid} (inStep : grid.InStep)
    (values : List Value) (key : Key) :
    (grid.appended values).isLive key =
      (grid.isLive key || key == grid.nextKey) := by
  have fresh : grid.nextKey ∉ grid.removed :=
    fun member => Nat.lt_irrefl _ (inStep.removed_lt _ member)
  rw [Bool.eq_iff_iff]
  simp only [isLive_iff, appended_nextKey, appended_removed, Bool.or_eq_true,
    beq_iff_eq]
  constructor
  · rintro ⟨inside, present⟩
    rcases Nat.lt_succ_iff_lt_or_eq.1 inside with below | last
    · exact Or.inl ⟨below, present⟩
    · exact Or.inr last
  · rintro (⟨inside, present⟩ | rfl)
    · exact ⟨Nat.lt_succ_of_lt inside, present⟩
    · exact ⟨Nat.lt_succ_self _, fresh⟩

/-- A stored row comes behind all live rows. -/
theorem InStep.liveKeys_appended {grid : Grid} (inStep : grid.InStep)
    (values : List Value) :
    (grid.appended values).liveKeys = grid.liveKeys ++ [grid.nextKey] := by
  have old :
      (List.range grid.nextKey).filter (grid.appended values).isLive =
        grid.liveKeys := by
    apply List.filter_congr
    intro key member
    have differs : (key == grid.nextKey) = false := by
      simpa using Nat.ne_of_lt (List.mem_range.1 member)
    rw [inStep.isLive_appended, differs, Bool.or_false]
  have last : (grid.appended values).isLive grid.nextKey = true := by
    simp [inStep.isLive_appended]
  rw [liveKeys, appended_nextKey, List.range_succ, List.filter_append, old,
    List.filter_cons_of_pos last, List.filter_nil]

theorem InStep.appended {grid : Grid} (inStep : grid.InStep)
    (values : List Value) :
    (grid.appended values).InStep where
  size_eq := by
    intro column member
    rcases List.getElem_of_mem member with ⟨position, inside, rfl⟩
    have within : position < grid.columns.length := by
      rw [Grid.appended, List.length_zipWith] at inside
      exact (Nat.lt_min.1 inside).1
    have size := inStep.size_eq _ (List.getElem_mem within)
    simp [Grid.appended, size]
  removed_lt := by
    intro key member
    exact Nat.lt_succ_of_lt (inStep.removed_lt key member)
  removed_nodup := inStep.removed_nodup

/-! ## Removing a row -/

/-- The grid after the removal of a key. -/
def without (grid : Grid) (key : Key) : Grid :=
  { grid with
    columns := grid.columns.map fun column => column.setIfInBounds key .null
    removed := key :: grid.removed
    bytes := grid.bytes - Value.footprints (grid.cells key) }

theorem remove_of_isLive {grid : Grid} {key : Key}
    (live : grid.isLive key = true) :
    grid.remove key = (.ok (), grid.without key) := by
  rw [remove, if_pos live, without]

@[simp]
theorem without_nextKey (grid : Grid) (key : Key) :
    (grid.without key).nextKey = grid.nextKey := rfl

@[simp]
theorem without_columns_length (grid : Grid) (key : Key) :
    (grid.without key).columns.length = grid.columns.length := by
  simp [without]

/-- A removal leaves the cells of all other keys as they were. -/
theorem cells_without_of_ne (grid : Grid) {key other : Key}
    (differs : other ≠ key) :
    (grid.without key).cells other = grid.cells other := by
  simp only [cells, without, List.map_map]
  apply List.map_congr_left
  intro column member
  simp [Array.getD_eq_getD_getElem?, differs.symm]

/-- A removal makes its key the only one that is live no longer. -/
theorem isLive_without (grid : Grid) (key other : Key) :
    (grid.without key).isLive other = (grid.isLive other && other != key) := by
  rw [Bool.eq_iff_iff]
  simp only [isLive_iff, without, List.mem_cons, not_or, Bool.and_eq_true,
    bne_iff_ne]
  constructor
  · rintro ⟨inside, differs, present⟩
    exact ⟨⟨inside, present⟩, differs⟩
  · rintro ⟨⟨inside, present⟩, differs⟩
    exact ⟨inside, differs, present⟩

/-- A removal takes its key out of the live ones. -/
theorem liveKeys_without (grid : Grid) (key : Key) :
    (grid.without key).liveKeys = grid.liveKeys.filter (· != key) := by
  rw [liveKeys, liveKeys, List.filter_filter, without_nextKey]
  apply List.filter_congr
  intro other member
  rw [isLive_without, Bool.and_comm]

theorem InStep.without {grid : Grid} (inStep : grid.InStep) {key : Key}
    (live : grid.isLive key = true) :
    (grid.without key).InStep where
  size_eq := by
    intro column member
    rcases List.mem_map.1 member with ⟨old, oldMember, rfl⟩
    simp [inStep.size_eq old oldMember, Grid.without]
  removed_lt := by
    intro other member
    rcases List.mem_cons.1 member with rfl | old
    · exact (isLive_iff.1 live).1
    · exact inStep.removed_lt other old
  removed_nodup :=
    List.nodup_cons.2 ⟨(isLive_iff.1 live).2, inStep.removed_nodup⟩

/-! ## Counting keys -/

/-- The removed keys are those that were handed out and are not live. -/
theorem InStep.removed_perm {grid : Grid} (inStep : grid.InStep) :
    grid.removed.Perm
      ((List.range grid.nextKey).filter fun key => !grid.isLive key) := by
  refine
    (List.perm_ext_iff_of_nodup inStep.removed_nodup
      (List.Nodup.filter _ List.nodup_range)).2 ?_
  intro key
  rw [List.mem_filter, List.mem_range, Bool.not_eq_true', isLive, isRemoved]
  constructor
  · intro removed
    exact ⟨inStep.removed_lt key removed, by simp [removed]⟩
  · rintro ⟨inside, dead⟩
    simpa [inside] using dead

/-- Every key that was handed out is either live or removed. -/
theorem InStep.length_liveKeys_add {grid : Grid} (inStep : grid.InStep) :
    grid.liveKeys.length + grid.removed.length = grid.nextKey := by
  rw [inStep.removed_perm.length_eq, liveKeys]
  exact
    (List.length_eq_length_filter_add grid.isLive).symm.trans List.length_range

/-- No more keys are removed than were handed out. -/
theorem InStep.removed_length_le {grid : Grid} (inStep : grid.InStep) :
    grid.removed.length ≤ grid.nextKey := by
  rw [← inStep.length_liveKeys_add]
  exact Nat.le_add_left _ _

theorem InStep.liveCount_eq {grid : Grid} (inStep : grid.InStep) :
    grid.liveCount = grid.liveKeys.length := by
  rw [liveCount, ← inStep.length_liveKeys_add, Nat.add_sub_cancel]

end VersionedColumns.Grid
