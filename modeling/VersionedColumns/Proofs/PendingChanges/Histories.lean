import Mathlib.Algebra.BigOperators.Finprod
import Mathlib.Algebra.Group.Nat.Even
import VersionedColumns.Proofs.PendingChanges

/-!
# Uncommitted changes after any history

Uncommitted changes can be recorded and committed on their own, without the
checks that a table makes: for any sessions, with rows that are stored nowhere
and with changes that were never pending.

What is left under a key then depends only on the rows that were recorded there
since the key was settled last.  Two of them cancel out, so an odd number leaves
the last one and an even number leaves nothing.  The total is the sum of all
adjustments whatever was called before, so that the row count of a session
leaves out what the others have changed.
-/

namespace VersionedColumns.PendingChanges

/-- A call that alters what is pending. -/
inductive Action where
  | recordInsert (session : Session) (row : Row)
  | recordDelete (session : Session) (row : Row)
  | commit (kind : ChangeKind) (row : Row)
  | clear
deriving DecidableEq

/-- The changes after a call. -/
def after (changes : PendingChanges) : Action → PendingChanges
  | .recordInsert session row => changes.recordInsert session row
  | .recordDelete session row => changes.recordDelete session row
  | .commit kind row => changes.commit kind row
  | .clear => changes.clear

/-- The changes after a sequence of calls. -/
def run (changes : PendingChanges) (actions : List Action) : PendingChanges :=
  actions.foldl after changes

theorem run_concat (changes : PendingChanges) (actions : List Action)
    (action : Action) :
    changes.run (actions ++ [action]) = (changes.run actions).after action := by
  rw [run, List.foldl_append]
  rfl

/-! ## What is recorded under a key -/

/-- The row that a call records: an insert as it is given, a delete marked. -/
def Action.recorded? : Action → Option Row
  | .recordInsert _ row => some row
  | .recordDelete _ row => some { row with deleted := true }
  | .commit _ _ | .clear => none

/-- Whether nothing is left under a key after a call, whatever came before. -/
def Action.settles (key : Key) : Action → Bool
  | .commit _ row => row.key == key
  | .clear => true
  | .recordInsert _ _ | .recordDelete _ _ => false

/-- The rows recorded under a key since it was settled, the latest one first. -/
def recordedSince (key : Key) (actions : List Action) : List Row :=
  ((actions.reverse.takeWhile (!·.settles key)).filterMap
    Action.recorded?).filter fun row => row.key == key

/-- What an even or odd number of rows leaves when any two of them cancel out. -/
def remainder (rows : List Row) : Option Row :=
  if Odd rows.length then rows.head? else none

theorem recordedSince_of_settles {key : Key} {action : Action}
    (settles : action.settles key = true) (actions : List Action) :
    recordedSince key (actions ++ [action]) = [] := by
  simp [recordedSince, settles]

theorem recordedSince_of_not_settles {key : Key} {action : Action}
    (keeps : action.settles key = false) (actions : List Action) :
    recordedSince key (actions ++ [action]) =
      (([action].filterMap Action.recorded?).filter fun row => row.key == key) ++
        recordedSince key actions := by
  have latest : (actions ++ [action]).reverse.takeWhile (!·.settles key) =
      [action] ++ actions.reverse.takeWhile (!·.settles key) := by
    simp [keeps]
  rw [recordedSince, latest, List.filterMap_append, List.filter_append]
  rfl

theorem recordedSince_of_recorded? {key : Key} {action : Action} {row : Row}
    (keeps : action.settles key = false)
    (recorded : action.recorded? = some row) (actions : List Action) :
    recordedSince key (actions ++ [action]) =
      if key = row.key then row :: recordedSince key actions
      else recordedSince key actions := by
  rw [recordedSince_of_not_settles keeps]
  by_cases same : key = row.key
  · simp [recorded, same]
  · simp [recorded, same, Ne.symm same]

/-- One row more takes away what was left, or is left itself. -/
theorem remainder_cons (row : Row) (rows : List Row) :
    remainder (row :: rows) =
      match remainder rows with
      | some _ => none
      | none => some row := by
  rw [remainder, remainder, List.length_cons]
  by_cases odd : Odd rows.length
  · have even : ¬Odd (rows.length + 1) := by
      rw [Nat.not_odd_iff_even]
      exact odd.add_one
    rcases List.exists_cons_of_length_pos odd.pos with ⟨last, others, rfl⟩
    rw [if_neg even, if_pos odd]
    rfl
  · have next : Odd (rows.length + 1) := (Nat.not_odd_iff_even.1 odd).add_one
    rw [if_pos next, if_neg odd]
    rfl

theorem remainder_isSome_iff (rows : List Row) :
    (remainder rows).isSome = true ↔ Odd rows.length := by
  rw [remainder]
  split
  · rename_i odd
    rcases List.exists_cons_of_length_pos odd.pos with ⟨last, others, rfl⟩
    simp only [List.head?_cons, Option.isSome_some, odd]
  · rename_i even
    simp only [Option.isSome_none, Bool.false_eq_true, even]

theorem head?_of_remainder {rows : List Row} {row : Row}
    (left : remainder rows = some row) :
    rows.head? = some row := by
  rw [remainder] at left
  split at left
  · exact left
  · cases left

/-! ## One call -/

variable {changes : PendingChanges}

theorem after_recorded (changes : PendingChanges) (action : Action) :
    (changes.after action).recorded = changes.recorded := by
  cases action with
  | recordInsert session row | recordDelete session row =>
      exact record_recorded _ _ _ _
  | commit kind row => exact commit_recorded _ _ _
  | clear => rfl

theorem Ordered.after (ordered : changes.Ordered) (action : Action) :
    (changes.after action).Ordered := by
  cases action with
  | recordInsert session row | recordDelete session row =>
      exact ordered.record _ _ _
  | commit kind row => exact ordered.commit kind row
  | clear => exact List.Pairwise.nil

/-- A call leaves under a key what the rows recorded there leave. -/
theorem Ordered.row?_after (ordered : changes.Ordered)
    (recorded : changes.recorded = true) {key : Key} {actions : List Action}
    (before : changes.row? key = remainder (recordedSince key actions))
    (action : Action) :
    (changes.after action).row? key =
      remainder (recordedSince key (actions ++ [action])) := by
  have adds : ∀ session amount row, action.settles key = false →
      action.recorded? = some row →
      (changes.record session amount row).row? key =
        remainder (recordedSince key (actions ++ [action])) := by
    intro session amount row keeps records
    rw [ordered.row?_record recorded, recordedSince_of_recorded? keeps records,
      before]
    split
    · exact (remainder_cons row _).symm
    · rfl
  cases action with
  | recordInsert session row => exact adds session 1 row rfl rfl
  | recordDelete session row => exact adds session (-1) _ rfl rfl
  | commit kind row =>
      refine (commit_row? recorded kind row key).trans ?_
      by_cases same : key = row.key
      · rw [if_pos same, recordedSince_of_settles (by simp [Action.settles, same])]
        rfl
      · have keeps : (Action.commit kind row).settles key = false := by
          simpa [Action.settles] using Ne.symm same
        rw [if_neg same, recordedSince_of_not_settles keeps, before]
        rfl
  | clear =>
      rw [recordedSince_of_settles rfl]
      rfl

/-! ## The total of the adjustments -/

/-- The total is the sum of the adjustments, of which few are not zero. -/
structure Totalled (changes : PendingChanges) : Prop where
  finite : (Function.support changes.adjustment).Finite
  total_eq : changes.total = ∑ᶠ session, changes.adjustment session

theorem Totalled.empty (recorded : Bool) : (empty recorded).Totalled where
  finite := Function.hasFiniteSupport_zero
  total_eq := finsum_zero.symm

/-- Which rows are pending does not matter to the counts. -/
theorem Totalled.withRows (totalled : changes.Totalled) (rows : List Row) :
    { changes with rows := rows }.Totalled :=
  ⟨totalled.finite, totalled.total_eq⟩

/-- What is counted for one session adds to the sum over all of them. -/
theorem Totalled.count (totalled : changes.Totalled) (session : Session)
    (amount : Int) :
    (changes.count session amount).Totalled := by
  have counted : (changes.count session amount).adjustment =
      fun other => changes.adjustment other +
        if other = session then amount else 0 :=
    funext fun other => changes.adjustment_count session other amount
  have one : (Function.support fun other : Session =>
      if other = session then amount else 0).Finite := by
    apply (Set.finite_singleton session).subset
    intro other differs
    by_contra elsewhere
    exact differs (if_neg elsewhere)
  constructor
  · rw [counted]
    exact Function.HasFiniteSupport.add totalled.finite one
  · rw [counted, finsum_add_distrib totalled.finite one,
      finsum_eq_single _ session fun other differs => if_neg differs,
      if_pos rfl, count_total, totalled.total_eq]

theorem Totalled.record (totalled : changes.Totalled) (session : Session)
    (amount : Int) (row : Row) :
    (changes.record session amount row).Totalled := by
  rw [PendingChanges.record]
  split
  · exact (totalled.withRows _).count session amount
  · exact totalled

theorem Totalled.after (totalled : changes.Totalled) (action : Action) :
    (changes.after action).Totalled := by
  cases action with
  | recordInsert session row | recordDelete session row =>
      exact totalled.record _ _ _
  | commit kind row =>
      cases recorded : changes.recorded with
      | true =>
          rw [PendingChanges.after, commit_eq recorded]
          exact (totalled.withRows _).count _ _
      | false =>
          rw [PendingChanges.after, commit_of_not_recorded recorded]
          exact totalled
  | clear => exact Totalled.empty _

/-- What the other sessions have changed is the sum of their adjustments. -/
theorem Totalled.foreign_eq (totalled : changes.Totalled) (session : Session) :
    changes.foreign session =
      ∑ᶠ (other) (_ : other ≠ session), changes.adjustment other := by
  have all := add_finsum_cond_ne session totalled.finite
  rw [foreign, totalled.total_eq, ← all, add_sub_cancel_left]

/-- A session counts all rows but what the others have changed. -/
theorem rowCount_eq_sub_foreign (recorded : changes.recorded = true)
    {count : Nat} (fits : count < 2 ^ 63) (session : Session) :
    (changes.rowCount session count : Int) =
      max 0 (count - changes.foreign session) := by
  rw [rowCount, if_pos recorded, signedCount_of_lt fits, foreign]
  omega

/-! ## All calls -/

theorem run_recorded (actions : List Action) :
    ((empty true).run actions).recorded = true := by
  induction actions using List.reverseRecOn with
  | nil => rfl
  | append_singleton actions action induction =>
      rw [run_concat, after_recorded, induction]

theorem Ordered.run (actions : List Action) :
    ((empty true).run actions).Ordered := by
  induction actions using List.reverseRecOn with
  | nil => exact List.Pairwise.nil
  | append_singleton actions action induction =>
      rw [run_concat]
      exact induction.after action

theorem Totalled.run (actions : List Action) :
    ((PendingChanges.empty true).run actions).Totalled := by
  induction actions using List.reverseRecOn with
  | nil => exact Totalled.empty true
  | append_singleton actions action induction =>
      rw [run_concat]
      exact induction.after action

/-- What is left under a key is the remainder of the rows recorded there. -/
theorem row?_run (actions : List Action) (key : Key) :
    ((empty true).run actions).row? key =
      remainder (recordedSince key actions) := by
  induction actions using List.reverseRecOn with
  | nil => rfl
  | append_singleton actions action induction =>
      rw [run_concat]
      exact (Ordered.run actions).row?_after (run_recorded actions) induction action

/-- What uncommitted changes say of the calls that led to them. -/
structure Reflects (changes : PendingChanges) (actions : List Action) :
    Prop where
  finite : (Function.support changes.adjustment).Finite
  total_eq : changes.total = ∑ᶠ session, changes.adjustment session
  /-- A session leaves out what all others have changed. -/
  rowCount_eq : ∀ session count, count < 2 ^ 63 →
    (changes.rowCount session count : Int) =
      max 0 (count -
        ∑ᶠ (other) (_ : other ≠ session), changes.adjustment other)
  /-- A key has a change if an odd number was recorded since it was settled. -/
  row?_isSome_iff : ∀ key,
    (changes.row? key).isSome = true ↔ Odd (recordedSince key actions).length
  /-- The change is the row that was recorded last. -/
  head?_of_row? : ∀ key row, changes.row? key = some row →
    (recordedSince key actions).head? = some row
  mem_rows_iff : ∀ row,
    row ∈ changes.rows ↔ changes.row? row.key = some row
  keys_increase :
    changes.rows.Pairwise fun first second => first.key < second.key
  /-- A change is listed for its owner and for nobody else. -/
  mem_ownedBy_iff : ∀ row session,
    row ∈ changes.ownedBy session ↔ row ∈ changes.rows ∧ row.owner = session

/-- Whatever is recorded and committed, the changes reflect it. -/
theorem reflects_of_run (actions : List Action) :
    ((empty true).run actions).Reflects actions := by
  have ordered := Ordered.run actions
  have totalled := Totalled.run actions
  have found := row?_run actions
  refine ⟨totalled.finite, totalled.total_eq, ?_, ?_, ?_, ?_, ordered, ?_⟩
  · intro session count fits
    rw [rowCount_eq_sub_foreign (run_recorded actions) fits,
      totalled.foreign_eq]
  · intro key
    rw [found]
    exact remainder_isSome_iff _
  · intro key row left
    rw [found] at left
    exact head?_of_remainder left
  · intro row
    rw [ordered.row?_eq_some_iff]
    exact (and_iff_left rfl).symm
  · intro row session
    rw [ownedBy, List.mem_filter, beq_iff_eq]

/-- A row is deleted by another session, and one again after its commit. -/
def sampleHistory : List Action :=
  [.recordInsert 1 ⟨4, [.int 7], false, 1⟩,
    .recordDelete 2 ⟨4, [.int 7], false, 1⟩,
    .recordInsert 1 ⟨2, [.int 9], false, 1⟩,
    .commit .insert ⟨2, [.int 9], false, 1⟩,
    .recordDelete 2 ⟨2, [.int 9], false, 2⟩,
    .recordInsert 1 ⟨6, [.int 5], false, 1⟩]

/-- Deletes stay with the session that made them, whoever made the insert. -/
theorem reflects_sampleHistory :
    ((empty true).run sampleHistory).row? 2 =
        some ⟨2, [.int 9], true, 2⟩ ∧
      ((empty true).run sampleHistory).row? 4 = none ∧
      (∑ᶠ (other) (_ : other ≠ 1),
        ((empty true).run sampleHistory).adjustment other) = -2 := by
  have reflects := reflects_of_run sampleHistory
  refine ⟨?_, ?_, ?_⟩
  · have pending := (reflects.row?_isSome_iff 2).2 (by decide)
    rcases Option.isSome_iff_exists.1 pending with ⟨row, found⟩
    rw [found, ← reflects.head?_of_row? 2 row found]
    decide
  · have even : ¬Odd (recordedSince 4 sampleHistory).length := by decide
    rw [← reflects.row?_isSome_iff] at even
    simpa using even
  · have counted := reflects.rowCount_eq 1 10 (by decide)
    have twelve : ((empty true).run sampleHistory).rowCount 1 10 = 12 := by
      decide
    rw [twelve] at counted
    omega

end VersionedColumns.PendingChanges
