import VersionedColumns.Proofs.Table.MemoryUse
import VersionedColumns.Proofs.Table.Modes
import VersionedColumns.Proofs.Table.Origins
import VersionedColumns.Proofs.Table.Searchable

/-!
# Tables of one session

As long as one session makes all calls, its commit leaves no change that waits.
A table without such changes reads as its cells are: every live row is seen
once, in the order of the keys and without an owner, and every row that is
stored is counted.
-/

namespace VersionedColumns

namespace PrimaryIndex

/-- Where no change waits for a commit, the live rows are those of the cells. -/
theorem Coherent.liveRows_of_settled {index : PrimaryIndex}
    (coherent : index.Coherent) (settled : index.pending.rows = [])
    (columns : index.grid.columns ≠ []) (limit : index.nextKey < 2 ^ 64) :
    index.liveRows =
      index.grid.liveKeys.map fun key =>
        Row.stored key (index.grid.cells key) := by
  rw [liveRows, Grid.liveKeys, ← List.filterMap_eq_filter, List.map_filterMap]
  apply List.filterMap_congr
  intro key member
  have inside := List.mem_range.1 member
  have notLast := ne_tombstoneKey_of_lt inside limit
  have unchanged : index.pending.row? key = none := by
    rw [PendingChanges.row?, settled]
    rfl
  rw [coherent.filledRow?_eq columns inside notLast,
    standing_of_row?_none unchanged]
  cases live : index.grid.isLive key <;>
    simp [Option.guard, live, Standing.stored?, Standing.row]

end PrimaryIndex

namespace Table

/-- A scan goes through the cells where no change waits for a commit. -/
theorem Sound.scanned_of_settled {table : Table} (sound : table.Sound)
    (settled : table.primary.pending.rows = []) (columns : table.columns ≠ [])
    (limit : table.primary.nextKey < 2 ^ 64) (session : Session) :
    table.scanned session =
      table.primary.grid.liveKeys.map fun key =>
        Row.stored key (table.primary.grid.cells key) := by
  have gridColumns := sound.grid_columns_ne_nil columns
  have rows :=
    sound.coherent.liveRows_of_settled settled gridColumns limit
  rw [← rows]
  exact PrimaryIndex.remaining_start_of_settled settled session

/-- All changes of a table that can be searched are of one session. -/
structure OneSession (table : Table) (session : Session) : Prop where
  searchable : table.Searchable
  weighed : table.primary.grid.Weighed
  own : ∀ change ∈ table.primary.pending.rows, change.owner = session
  balanced : table.primary.versioned = true → table.primary.pending.Balanced

theorem OneSession.create (id : TableId) (schema : Schema) (config : Config)
    (session : Session) :
    (create id schema config).OneSession session where
  searchable := Searchable.create id schema config
  weighed := Grid.Weighed.empty _
  own := nofun
  balanced := fun _ => PendingChanges.Balanced.empty _

variable {table : Table} {session : Session}

/-- Calls of the session leave the table to it. -/
theorem OneSession.of_after (one : table.OneSession session) {action : Action}
    {later : Table} (after : table.after action = later)
    (alone : ∀ caller ∈ action.session?, caller = session)
    (keysFit : later.primary.nextKey < 2 ^ 64) (stays : action ≠ .close) :
    later.OneSession session := by
  subst after
  have limit : KeysFit table action := keysFit
  have sound := one.searchable.sound
  constructor
  · exact one.searchable.after limit stays
  · exact sound.weighed_after one.weighed limit
  · intro change member
    rcases sound.pending_or_makes limit member with old | made
    · exact one.own change old
    · cases made <;> exact alone _ rfl
  · intro versioned
    rw [(sound.after_frame action limit).2] at versioned
    refine sound.balanced_after versioned (one.balanced versioned) ?_ limit
    cases action with
    | remove caller key =>
        intro _ change pending _
        rw [alone caller rfl]
        exact one.own change (PendingChanges.mem_rows_of_row? pending).1
    | insert caller values | commit caller | rollback caller
    | addIndex name column | dropIndex name | renameIndex name newName
    | truncate | close | discard => trivial

/-- A commit of the session leaves no change that waits. -/
theorem OneSession.settled_commit (one : table.OneSession session) :
    (table.commit session).2.primary.pending.rows = [] := by
  have sound := one.searchable.sound
  cases versioned : table.primary.versioned with
  | false =>
      apply (sound.commit session).coherent.unrecorded
      rw [commit_snd]
      exact (PendingChanges.settled_recorded _ session).trans versioned
  | true =>
      have idle := sound.pendingOf_commit versioned session
      rw [pendingOf, PendingChanges.ownedBy, List.filter_eq_nil_iff] at idle
      rw [List.eq_nil_iff_forall_not_mem]
      intro change member
      have own := one.own change (mem_rows_of_mem_commit member)
      exact idle change member (beq_iff_eq.2 own)

/-- Once nothing waits all live rows are counted. -/
theorem OneSession.rowCount_of_settled (one : table.OneSession session)
    (settled : table.primary.pending.rows = [])
    (countFits : table.primary.rowCount < 2 ^ 63) :
    table.rowCount session = table.primary.grid.liveKeys.length := by
  rw [Table.rowCount_of_settled one.balanced settled countFits]
  exact one.searchable.sound.coherent.rowCount_eq

end Table

end VersionedColumns
