import Mathlib.Algebra.BigOperators.Group.List.Basic
import VersionedColumns.Proofs.Table.Runs

/-!
# What the stored values take

The bytes of a grid are counted as rows come and go.  The count is at all times
the sum over the live keys of what their cells take, so nothing that is removed
is ever taken off twice, and the count cannot fall below zero.
-/

namespace VersionedColumns

theorem Value.footprints_eq_sum (values : List Value) :
    footprints values = (values.map footprint).sum := by
  rw [footprints, List.sum_eq_foldl, List.foldl_map]

namespace Grid

/-- The bytes that the cells of the live keys take together. -/
def weight (grid : Grid) : Nat :=
  (grid.liveKeys.map fun key => Value.footprints (grid.cells key)).sum

/-- The bytes are counted as they are. -/
def Weighed (grid : Grid) : Prop :=
  grid.bytes = grid.weight

theorem Weighed.empty (names : List String) : (empty names).Weighed := rfl

theorem Weighed.clear (grid : Grid) : grid.clear.Weighed := rfl

/-- The bytes are those of every cell of the live keys. -/
theorem Weighed.bytes_eq {grid : Grid} (weighed : grid.Weighed) :
    grid.bytes =
      (grid.liveKeys.map fun key =>
        ((grid.cells key).map Value.footprint).sum).sum := by
  rw [weighed, weight]
  simp only [Value.footprints_eq_sum]

/-- A stored row adds what its values take. -/
theorem InStep.weight_appended {grid : Grid} (inStep : grid.InStep)
    {values : List Value} (fitting : values.length = grid.columns.length) :
    (grid.appended values).weight =
      grid.weight + Value.footprints values := by
  have old : grid.liveKeys.map (fun key =>
      Value.footprints ((grid.appended values).cells key)) =
        grid.liveKeys.map fun key => Value.footprints (grid.cells key) := by
    apply List.map_congr_left
    intro key member
    have differs : key ≠ grid.nextKey :=
      Nat.ne_of_lt (lt_nextKey_of_isLive (mem_liveKeys.1 member))
    rw [inStep.cells_appended fitting, if_neg differs]
  rw [weight, inStep.liveKeys_appended, List.map_append, List.sum_append, old,
    List.map_singleton, List.sum_singleton, inStep.cells_appended fitting,
    if_pos rfl, weight]

/-- A removed row takes off what its cells have taken. -/
theorem weight_without {grid : Grid} {key : Key}
    (live : grid.isLive key = true) :
    Value.footprints (grid.cells key) + (grid.without key).weight =
      grid.weight := by
  have nodup : grid.liveKeys.Nodup := List.Nodup.filter _ List.nodup_range
  have others : (grid.liveKeys.erase key).map (fun other =>
      Value.footprints ((grid.without key).cells other)) =
        (grid.liveKeys.erase key).map fun other =>
          Value.footprints (grid.cells other) := by
    apply List.map_congr_left
    intro other member
    rw [cells_without_of_ne _ (nodup.mem_erase_iff.1 member).1]
  rw [weight, liveKeys_without, ← nodup.erase_eq_filter, others, weight]
  exact
    List.sum_map_erase (fun other => Value.footprints (grid.cells other))
      (mem_liveKeys.2 live)

theorem InStep.weighed_appended {grid : Grid} (inStep : grid.InStep)
    (weighed : grid.Weighed) {values : List Value}
    (fitting : values.length = grid.columns.length) :
    (grid.appended values).Weighed := by
  rw [Weighed, inStep.weight_appended fitting, ← weighed]
  rfl

theorem Weighed.without {grid : Grid} (weighed : grid.Weighed) {key : Key}
    (live : grid.isLive key = true) :
    (grid.without key).Weighed := by
  change grid.bytes - Value.footprints (grid.cells key) = _
  rw [weighed, ← weight_without live, Nat.add_sub_cancel_left]

end Grid

namespace Table

theorem Sound.weighed_withRow {table : Table} (sound : table.Sound)
    (weighed : table.primary.grid.Weighed) {values : List Value}
    (fits : Fits table.columns values) (session : Session) :
    (table.withRow session values).primary.grid.Weighed :=
  sound.coherent.inStep.weighed_appended weighed
    (fits.length_eq.trans sound.width.symm)

theorem weighed_withoutRow {table : Table}
    (weighed : table.primary.grid.Weighed) {row : Row}
    (found : table.liveRow? row.key = some row) (session : Session) :
    (table.withoutRow session row).primary.grid.Weighed :=
  weighed.without (liveRow?_eq_some found).1

theorem Sound.weighed_steps {session : Session} {table later : Table}
    (sound : table.Sound) (weighed : table.primary.grid.Weighed)
    (steps : Steps session table later) :
    later.primary.grid.Weighed := by
  refine
    steps.preserve (motive := fun table => table.primary.grid.Weighed) ?_ sound
      weighed
  intro table later sound weighed step
  cases step with
  | stored fits => exact sound.weighed_withRow weighed fits session
  | takenBack found member own => exact weighed_withoutRow weighed found session
  | settled member => exact weighed

/-- Every call keeps the bytes counted as they are. -/
theorem Sound.weighed_after {table : Table} (sound : table.Sound)
    (weighed : table.primary.grid.Weighed) {action : Action}
    (limit : KeysFit table action) :
    (table.after action).primary.grid.Weighed := by
  have effect := sound.perform_effect action limit
  generalize (table.perform action).1 = answer at effect
  generalize table.after action = later at effect ⊢
  cases effect with
  | refused error => exact weighed
  | inserted fits => exact sound.weighed_withRow weighed fits _
  | removed found =>
      have same := (liveRow?_eq_some found).2.1
      subst same
      exact weighed_withoutRow weighed found _
  | committed steps | rolledBack steps => exact sound.weighed_steps weighed steps
  | indexAdded inside accepted | indexDropped found | indexRenamed | closed =>
      exact weighed
  | truncated | discarded => exact Grid.Weighed.clear _

theorem Sound.weighed_run {table : Table} (sound : table.Sound)
    (weighed : table.primary.grid.Weighed) {actions : List Action}
    (limits : Obeys KeysFit table actions) :
    (table.run actions).primary.grid.Weighed :=
  (limits.preserve
    (motive := fun table => table.Sound ∧ table.primary.grid.Weighed)
    (fun kept limit =>
      ⟨kept.1.after _ limit, kept.1.weighed_after kept.2 limit⟩)
    ⟨sound, weighed⟩).2

end Table

end VersionedColumns
