import VersionedColumns.Proofs.Index.Standing

/-!
# Runs of a primary index

A primary index can be called on its own, without the checks that its table
makes: with rows of any width, with rows that are stored nowhere, and with
changes that were never pending.  All of that keeps the index coherent, so every
index that a run from an empty one reaches is coherent.
-/

namespace VersionedColumns.PrimaryIndex

/-- A call that can change a primary index. -/
inductive Action where
  | insert (session : Session) (row : Row)
  | remove (session : Session) (row : Row)
  | commit (kind : ChangeKind) (row : Row)
  | clear
  /-- Closing an index does nothing. -/
  | close
deriving DecidableEq

/-- The index after a call, whether it succeeds or fails. -/
def after (index : PrimaryIndex) : Action → PrimaryIndex
  | .insert session row => (index.insert session row).2
  | .remove session row => (index.remove session row).2
  | .commit kind row => index.commit kind row
  | .clear => index.clear
  | .close => index

/-- The index after a sequence of calls. -/
def run (index : PrimaryIndex) (actions : List Action) : PrimaryIndex :=
  actions.foldl after index

variable {index : PrimaryIndex} {session : Session} {row : Row}

/-! ## One call -/

/-- Of a row that is stored only the values count. -/
theorem insert_snd_of_length_eq
    (fitting : row.values.length = index.grid.columns.length) :
    (index.insert session row).2 = index.withRow session row.values := by
  rw [insert, Grid.append_of_length_eq fitting, withRow]
  cases versioned : index.pending.recorded with
  | true => simp [inserted, nextRow, PrimaryIndex.versioned, versioned,
      Row.ofValues, Row.stored, nextKey]
  | false => simp [PendingChanges.recordInsert, versioned]

theorem insert_snd_of_length_ne
    (differs : row.values.length ≠ index.grid.columns.length) :
    (index.insert session row).2 = index := by
  rw [insert, Grid.append_of_length_ne differs]

theorem remove_snd_of_not_isLive (dead : index.grid.isLive row.key = false) :
    (index.remove session row).2 = index := by
  rw [remove, Grid.remove_of_not_isLive dead]

/-- What a call can make of an index. -/
inductive Effect (index : PrimaryIndex) : Action → PrimaryIndex → Prop
  /-- A call that fails changes nothing, and neither does closing. -/
  | unchanged {action : Action} : Effect index action index
  | stored {session : Session} {row : Row}
      (fitting : row.values.length = index.grid.columns.length) :
      Effect index (.insert session row) (index.withRow session row.values)
  | removed {session : Session} {row : Row}
      (live : index.grid.isLive row.key = true) :
      Effect index (.remove session row) (index.withoutRow session row)
  | committed {kind : ChangeKind} {row : Row} :
      Effect index (.commit kind row) (index.commit kind row)
  | cleared : Effect index .clear index.clear

theorem after_effect (index : PrimaryIndex) (action : Action) :
    Effect index action (index.after action) := by
  cases action with
  | insert session row =>
      rw [after]
      by_cases fitting : row.values.length = index.grid.columns.length
      · rw [insert_snd_of_length_eq fitting]
        exact .stored fitting
      · rw [insert_snd_of_length_ne fitting]
        exact .unchanged
  | remove session row =>
      rw [after]
      cases live : index.grid.isLive row.key with
      | true =>
          rw [remove_of_isLive live]
          exact .removed live
      | false =>
          rw [remove_snd_of_not_isLive live]
          exact .unchanged
  | commit kind row => exact .committed
  | clear => exact .cleared
  | close => exact .unchanged

theorem Coherent.after (coherent : index.Coherent) (action : Action) :
    (index.after action).Coherent := by
  have effect := index.after_effect action
  generalize index.after action = later at effect ⊢
  cases effect with
  | unchanged => exact coherent
  | stored fitting => exact coherent.withRow fitting _
  | removed live => exact coherent.withoutRow live _
  | committed => exact coherent.commit _ _
  | cleared => exact Coherent.clear index

/-- No call adds or drops a column, or changes when changes count. -/
theorem after_frame (index : PrimaryIndex) (action : Action) :
    (index.after action).grid.columns.length = index.grid.columns.length ∧
      (index.after action).versioned = index.versioned := by
  have effect := index.after_effect action
  generalize index.after action = later at effect ⊢
  cases effect with
  | unchanged => exact ⟨rfl, rfl⟩
  | stored fitting =>
      exact ⟨Grid.appended_columns_length fitting, withRow_versioned _ _ _⟩
  | removed live =>
      exact ⟨Grid.without_columns_length _ _, withoutRow_versioned _ _ _⟩
  | committed => exact ⟨rfl, commit_versioned _ _ _⟩
  | cleared => exact ⟨Grid.clear_columns_length _, rfl⟩

/-! ## All calls -/

theorem Coherent.run (coherent : index.Coherent) (actions : List Action) :
    (index.run actions).Coherent := by
  induction actions generalizing index with
  | nil => exact coherent
  | cons action actions induction => exact induction (coherent.after action)

theorem run_frame (index : PrimaryIndex) (actions : List Action) :
    (index.run actions).grid.columns.length = index.grid.columns.length ∧
      (index.run actions).versioned = index.versioned := by
  induction actions generalizing index with
  | nil => exact ⟨rfl, rfl⟩
  | cons action actions induction =>
      rcases index.after_frame action with ⟨columns, versioned⟩
      rcases induction (index.after action) with ⟨laterColumns, laterVersioned⟩
      exact ⟨laterColumns.trans columns, laterVersioned.trans versioned⟩

end VersionedColumns.PrimaryIndex
