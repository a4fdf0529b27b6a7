import Mathlib.Algebra.BigOperators.Group.List.Basic
import Mathlib.Tactic.Abel
import VersionedColumns.Proofs.PendingChanges

/-!
# Balanced counts

The counts of uncommitted changes are balanced when the adjustment of every
session is the number of its inserts less the number of its deletes, and the
total is the same over all sessions.

A change that is recorded and one that is committed keep counts balanced, with
one condition on a change that takes another one back: both have to be of the
same session.  The count goes to the session that makes the call, and the
change that is gone was counted for its owner.
-/

namespace VersionedColumns

/-- By how much an uncommitted change alters the row count of its owner. -/
def Row.effect (row : Row) : Int :=
  if row.deleted then -1 else 1

theorem Row.reversal_changeKind (row : Row) :
    row.changeKind.reversal = -row.effect := by
  rw [Row.changeKind, Row.effect]
  cases row.deleted <;> rfl

namespace PendingChanges

/-- The number of a session's uncommitted inserts. -/
def insertsOf (changes : PendingChanges) (session : Session) : Nat :=
  (changes.ownedBy session).countP fun change => !change.deleted

/-- The number of a session's uncommitted deletes. -/
def deletesOf (changes : PendingChanges) (session : Session) : Nat :=
  (changes.ownedBy session).countP fun change => change.deleted

/-- By how much changes alter the row count altogether. -/
def effects (changes : List Row) : Int :=
  (changes.map Row.effect).sum

@[simp]
theorem effects_cons (change : Row) (changes : List Row) :
    effects (change :: changes) = change.effect + effects changes := rfl

theorem effects_perm {first second : List Row} (perm : first.Perm second) :
    effects first = effects second :=
  (perm.map Row.effect).sum_eq

theorem effects_eq (changes : List Row) :
    effects changes =
      changes.countP (fun change => !change.deleted) -
        changes.countP fun change => change.deleted := by
  induction changes with
  | nil => rfl
  | cons change rest induction =>
      rw [effects_cons, induction, Row.effect]
      cases mark : change.deleted with
      | false =>
          simp only [Bool.false_eq_true, if_false, List.countP_cons, mark,
            Bool.not_false, if_true]
          push_cast
          abel
      | true =>
          simp only [if_true, List.countP_cons, mark, Bool.not_true,
            Bool.false_eq_true, if_false]
          push_cast
          abel

/-- The counts are those of the changes. -/
structure Balanced (changes : PendingChanges) : Prop where
  adjustment_eq : ∀ session,
    changes.adjustment session = effects (changes.ownedBy session)
  total_eq : changes.total = effects changes.rows

theorem Balanced.adjustment_eq_sub {changes : PendingChanges}
    (balanced : changes.Balanced) (session : Session) :
    changes.adjustment session =
      changes.insertsOf session - changes.deletesOf session :=
  (balanced.adjustment_eq session).trans (effects_eq _)

theorem Balanced.empty (recorded : Bool) : (empty recorded).Balanced where
  adjustment_eq _ := rfl
  total_eq := rfl

/-! ## One change more or less -/

theorem effects_ownedBy_of_perm {changes later : PendingChanges} {change : Row}
    (perm : later.rows.Perm (change :: changes.rows)) (session : Session) :
    effects (later.ownedBy session) =
      effects (changes.ownedBy session) +
        if session = change.owner then change.effect else 0 := by
  have owned := effects_perm (perm.filter fun row => row.owner == session)
  rw [ownedBy, ownedBy, owned, List.filter_cons]
  by_cases own : session = change.owner
  · rw [if_pos (beq_iff_eq.2 own.symm), if_pos own, effects_cons, Int.add_comm]
  · rw [if_neg (by simpa using Ne.symm own), if_neg own, Int.add_zero]

/-- Counts stay balanced when a change is added and counted for its owner. -/
theorem Balanced.gain {changes later : PendingChanges}
    (balanced : changes.Balanced) {change : Row}
    (perm : later.rows.Perm (change :: changes.rows))
    (adjustments : later.adjustments =
      adjust change.owner change.effect changes.adjustments)
    (total : later.total = changes.total + change.effect) :
    later.Balanced where
  adjustment_eq := by
    intro session
    rw [effects_ownedBy_of_perm perm, ← balanced.adjustment_eq]
    rw [adjustment, adjustments]
    exact lookup_adjust _ _ _ _
  total_eq := by
    rw [total, effects_perm perm, effects_cons, balanced.total_eq, Int.add_comm]

/-- Counts stay balanced when a change is dropped and taken from its owner. -/
theorem Balanced.lose {changes later : PendingChanges}
    (balanced : changes.Balanced) {change : Row}
    (perm : changes.rows.Perm (change :: later.rows))
    (adjustments : later.adjustments =
      adjust change.owner (-change.effect) changes.adjustments)
    (total : later.total = changes.total - change.effect) :
    later.Balanced where
  adjustment_eq := by
    intro session
    have before := balanced.adjustment_eq session
    have counted :=
      lookup_adjust change.owner session (-change.effect) changes.adjustments
    rw [effects_ownedBy_of_perm perm] at before
    rw [adjustment] at before
    rw [adjustment, adjustments, counted, before]
    split <;> abel
  total_eq := by
    rw [total, balanced.total_eq, effects_perm perm, effects_cons]
    abel

/-! ## Inserts, deletes and commits -/

theorem toggle_perm {row : Row} {rows : List Row}
    (absent : rows.find? (·.key == row.key) = none) :
    (toggle row rows).Perm (row :: rows) := by
  induction rows with
  | nil => exact List.Perm.refl _
  | cons first rest induction =>
      rw [List.find?_eq_none] at absent
      have differs : first.key ≠ row.key := by
        simpa using absent first List.mem_cons_self
      have later : rest.find? (·.key == row.key) = none :=
        List.find?_eq_none.2 fun other member =>
          absent other (List.mem_cons_of_mem _ member)
      rw [toggle]
      split
      · exact List.Perm.refl _
      · rw [if_neg (Ne.symm differs)]
        exact ((induction later).cons first).trans (List.Perm.swap row first rest)

theorem Ordered.perm_cons_filter {changes : PendingChanges}
    (ordered : changes.Ordered) {change : Row} (member : change ∈ changes.rows) :
    changes.rows.Perm
      (change :: changes.rows.filter fun other => other.key != change.key) := by
  rw [Ordered] at ordered
  generalize changes.rows = rows at ordered member ⊢
  induction rows with
  | nil => cases member
  | cons first rest induction =>
      rcases List.pairwise_cons.1 ordered with ⟨behind, ordered⟩
      rcases List.mem_cons.1 member with rfl | later
      · have others : rest.filter (fun other => other.key != change.key) = rest := by
          rw [List.filter_eq_self]
          intro other otherMember
          simpa using Nat.ne_of_gt (behind other otherMember)
        rw [List.filter_cons_of_neg (by simp), others]
      · have differs : first.key ≠ change.key :=
          Nat.ne_of_lt (behind change later)
        rw [List.filter_cons_of_pos (by simpa using differs)]
        exact
          ((induction ordered later).cons first).trans
            (List.Perm.swap change first _)

/-- A change under a key that has none is counted for its owner. -/
theorem Balanced.record {changes : PendingChanges}
    (balanced : changes.Balanced) (recorded : changes.recorded = true)
    {row : Row} (absent : changes.row? row.key = none) :
    (changes.record row.owner row.effect row).Balanced := by
  rw [record_eq recorded]
  exact balanced.gain (toggle_perm absent) rfl rfl

/-- A change is taken back by another under its key that undoes its count. -/
theorem Balanced.record_of_row? {changes : PendingChanges}
    (balanced : changes.Balanced) (ordered : changes.Ordered)
    (recorded : changes.recorded = true) {row change : Row}
    (found : changes.row? row.key = some change) :
    (changes.record change.owner (-change.effect) row).Balanced := by
  rcases mem_rows_of_row? found with ⟨member, same⟩
  have left : ∀ key,
      (changes.record change.owner (-change.effect) row).row? key =
        if key = change.key then none else changes.row? key := by
    intro key
    rw [ordered.row?_record recorded change.owner (-change.effect) row key, same]
    split
    · rename_i here
      rw [here, found]
    · rfl
  have rows := ordered.rows_eq_filter (ordered.record _ _ row) left
  have perm := ordered.perm_cons_filter member
  rw [← rows] at perm
  refine balanced.lose perm ?_ ?_
  · rw [record_eq recorded]
    rfl
  · rw [record_eq recorded, sub_eq_add_neg]
    rfl

theorem Balanced.commit {changes : PendingChanges}
    (balanced : changes.Balanced) (ordered : changes.Ordered)
    (recorded : changes.recorded = true) {change : Row}
    (member : change ∈ changes.rows) :
    (changes.commit change.changeKind change).Balanced := by
  rw [commit_eq recorded, change.reversal_changeKind]
  refine balanced.lose (ordered.perm_cons_filter member) rfl ?_
  rw [sub_eq_add_neg]
  rfl

end PendingChanges

end VersionedColumns
