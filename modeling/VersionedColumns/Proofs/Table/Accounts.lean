import VersionedColumns.Proofs.Table.MemoryUse
import VersionedColumns.Proofs.Table.Mirroring

/-!
# Counters that are kept

A table counts the bytes of its values, its stored rows and, in every equality
index, the keys there.  None of these is ever counted anew: a call adds what it
stores and takes off what it removes.  All of them agree with the rows at any
time, also in the middle of a rollback, so what is taken off was counted
before, and no counter falls below zero.
-/

namespace VersionedColumns.Table

variable {table : Table} {session : Session}

/-- The counters of a table agree with its rows. -/
structure Accounted (table : Table) : Prop where
  /-- The bytes are those of the values under the live keys. -/
  memoryUse_eq : table.memoryUse =
    (table.primary.grid.liveKeys.map fun key =>
      ((table.primary.grid.cells key).map Value.footprint).sum).sum
  storedRowCount_eq : table.storedRowCount = table.primary.grid.liveCount
  liveCount_eq : table.primary.grid.liveCount =
    table.primary.grid.liveKeys.length
  /-- No more keys are removed than were handed out. -/
  removed_le : table.primary.grid.removed.length ≤ table.primary.nextKey
  /-- The bytes that the removal of a live key takes off were counted. -/
  bytes_le : ∀ key, table.primary.grid.isLive key = true →
    ((table.primary.grid.cells key).map Value.footprint).sum ≤ table.memoryUse
  /-- So was its row. -/
  rowCount_pos : ∀ key, table.primary.grid.isLive key = true →
    1 ≤ table.storedRowCount
  /-- And so was every key that can be taken out of an equality index. -/
  indexed_pos : ∀ index ∈ table.secondary, ∀ value key,
    Group.contains value key index.groups = true → 1 ≤ index.rowCount

theorem Mirrored.rowCount_pos {firsts : List Key}
    (mirrored : table.Mirrored firsts) {index : EqualityIndex}
    (member : index ∈ table.secondary) {value : Value} {key : Key}
    (contained : Group.contains value key index.groups = true) :
    1 ≤ index.rowCount := by
  rcases List.getElem_of_mem member with ⟨position, inside, rfl⟩
  have within : position < firsts.length := mirrored.length_eq ▸ inside
  have mirrors := (List.forall₂_iff_get.1 mirrored).2 position inside within
  exact mirrors.holds.rowCount_pos contained

theorem Sound.accounted (sound : table.Sound)
    (weighed : table.primary.grid.Weighed) {firsts : List Key}
    (mirrored : table.Mirrored firsts) :
    table.Accounted where
  memoryUse_eq := weighed.bytes_eq
  storedRowCount_eq :=
    sound.coherent.rowCount_eq.trans sound.coherent.inStep.liveCount_eq.symm
  liveCount_eq := sound.coherent.inStep.liveCount_eq
  removed_le := sound.coherent.inStep.removed_length_le
  bytes_le := by
    intro key live
    rw [memoryUse, weighed, ← Grid.weight_without live,
      ← Value.footprints_eq_sum]
    exact Nat.le_add_right _ _
  rowCount_pos := by
    intro key live
    rw [storedRowCount, sound.coherent.rowCount_eq]
    exact List.length_pos_of_mem (Grid.mem_liveKeys.2 live)
  indexed_pos := fun _ member _ _ contained =>
    mirrored.rowCount_pos member contained

/-- The counters agree with the rows after any part of a rollback. -/
theorem Sound.accounted_undoEach (sound : table.Sound)
    (weighed : table.primary.grid.Weighed) {firsts : List Key}
    (mirrored : table.Mirrored firsts)
    (limit : KeysFit table (.rollback session)) {undone : List Row}
    (part : undone <+: table.pendingOf session) :
    (undoEach session undone table).2.Accounted := by
  refine
    Sound.undoing
      (motive := fun changes table =>
        table.primary.grid.Weighed → table.Mirrored firsts →
          ∀ undone, undone <+: changes →
            (undoEach session undone table).2.Accounted)
      ?_ ?_ sound rfl limit weighed mirrored undone part
  · intro table sound _ weighed mirrored undone part
    rw [List.prefix_nil.1 part]
    exact sound.accounted weighed mirrored
  · intro table change rest sound member own limit once later weighed mirrored
      undone part
    have steps := sound.steps_undone member own limit
    cases undone with
    | nil => exact sound.accounted weighed mirrored
    | cons first undone =>
        rcases List.cons_prefix_cons.1 part with ⟨rfl, others⟩
        rw [undoEach, once]
        exact
          later (sound.weighed_steps weighed steps)
            (sound.mirrored_steps mirrored steps) undone others

/--
In every table that a run from a new one reaches, the counters agree with the
rows, and they still do after any part of a rollback.
-/
theorem accounted_of_run (id : TableId) (schema : Schema) (config : Config)
    (actions : List Action)
    (limits : Obeys KeysFit (create id schema config) actions)
    (table : Table) (reached : (create id schema config).run actions = table) :
    table.Accounted ∧
      ∀ session, KeysFit table (.rollback session) →
        ∀ undone, undone <+: table.pendingOf session →
          (undoEach session undone table).2.Accounted := by
  have new := Sound.create id schema config
  have sound := new.run limits
  have weighed := new.weighed_run (Grid.Weighed.empty _) limits
  have mirrored :=
    new.mirrored_run List.Forall₂.nil (Nat.two_pow_pos 64) limits
  rw [reached] at sound weighed mirrored
  exact
    ⟨sound.accounted weighed mirrored, fun session limit undone part =>
      sound.accounted_undoEach weighed mirrored limit part⟩

/-- Half a rollback later the restored row is counted as well. -/
theorem accounted_of_sample_run :
    ((create 1 sampleSchema sampleConfig).run
        (sampleActions.take 5)).memoryUse = 8 ∧
      ((undoEach 2
        ((((create 1 sampleSchema sampleConfig).run
          (sampleActions.take 5)).pendingOf 2).take 1)
        ((create 1 sampleSchema sampleConfig).run
          (sampleActions.take 5))).2).memoryUse = 16 := by
  have accounted :=
    accounted_of_run 1 sampleSchema sampleConfig (sampleActions.take 5)
      (by decide +kernel) _ rfl
  constructor
  · rw [accounted.1.memoryUse_eq]
    decide +kernel
  · rw [(accounted.2 2 (by decide +kernel) _
      (List.take_prefix _ _)).memoryUse_eq]
    decide +kernel

end VersionedColumns.Table
