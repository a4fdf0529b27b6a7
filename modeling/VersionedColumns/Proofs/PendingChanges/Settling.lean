import VersionedColumns.Proofs.PendingChanges.Balance

/-!
# Settling the changes of a session

A session's changes are committed one after the other, but together they have
one effect.  What is left are the changes of the other sessions, and what the
changes counted is taken back from their session and from the total.

So it makes no difference which of two sessions commits first.
-/

namespace VersionedColumns.PendingChanges

variable {changes : PendingChanges} {session other : Session}

/-- Let changes count for everybody, one after the other. -/
def commitEach (changes : PendingChanges) (rows : List Row) : PendingChanges :=
  rows.foldl (fun changes row => changes.commit row.changeKind row) changes

/-- What is pending once all changes of a session are committed. -/
def settled (changes : PendingChanges) (session : Session) : PendingChanges :=
  changes.commitEach (changes.ownedBy session)

/-! ## Several changes -/

@[simp]
theorem commitEach_cons (changes : PendingChanges) (row : Row)
    (rows : List Row) :
    changes.commitEach (row :: rows) =
      (changes.commit row.changeKind row).commitEach rows := rfl

@[simp]
theorem commitEach_recorded (changes : PendingChanges) (rows : List Row) :
    (changes.commitEach rows).recorded = changes.recorded := by
  induction rows generalizing changes with
  | nil => rfl
  | cons row rows induction =>
      rw [commitEach_cons, induction, commit_recorded]

theorem Ordered.commitEach (ordered : changes.Ordered) (rows : List Row) :
    (changes.commitEach rows).Ordered := by
  induction rows generalizing changes with
  | nil => exact ordered
  | cons row rows induction => exact induction (ordered.commit _ _)

/-- Exactly the changes under the committed keys are gone. -/
theorem rows_commitEach (recorded : changes.recorded = true)
    (rows : List Row) :
    (changes.commitEach rows).rows =
      changes.rows.filter fun change => change.key ∉ rows.map Row.key := by
  induction rows generalizing changes with
  | nil => exact (List.filter_eq_self.2 (by simp)).symm
  | cons row rows induction =>
      have first : (changes.commit row.changeKind row).rows =
          changes.rows.filter fun change => change.key != row.key := by
        rw [commit_eq recorded]
        rfl
      rw [commitEach_cons, induction ((commit_recorded _ _ _).trans recorded),
        first, List.filter_filter]
      apply List.filter_congr
      intro change _
      rw [Bool.eq_iff_iff]
      simp [and_comm]

/-- Changes of one session are taken back from its adjustment alone. -/
theorem adjustment_commitEach (recorded : changes.recorded = true)
    {rows : List Row} (own : ∀ row ∈ rows, row.owner = session)
    (other : Session) :
    (changes.commitEach rows).adjustment other =
      changes.adjustment other -
        if other = session then effects rows else 0 := by
  induction rows generalizing changes with
  | nil =>
      change changes.adjustment other = _ - if _ then 0 else 0
      rw [ite_self, Int.sub_zero]
  | cons row rows induction =>
      have first : (changes.commit row.changeKind row).adjustment other =
          changes.adjustment other +
            if other = row.owner then -row.effect else 0 := by
        rw [commit_eq recorded, adjustment_count, row.reversal_changeKind]
        rfl
      rw [commitEach_cons,
        induction ((commit_recorded _ _ _).trans recorded)
          fun later member => own later (List.mem_cons_of_mem _ member),
        first, own row List.mem_cons_self, effects_cons]
      split <;> abel

theorem total_commitEach (recorded : changes.recorded = true)
    (rows : List Row) :
    (changes.commitEach rows).total = changes.total - effects rows := by
  induction rows generalizing changes with
  | nil => exact (Int.sub_zero _).symm
  | cons row rows induction =>
      have first : (changes.commit row.changeKind row).total =
          changes.total + -row.effect := by
        rw [commit_eq recorded, row.reversal_changeKind]
        rfl
      rw [commitEach_cons, induction ((commit_recorded _ _ _).trans recorded),
        first, effects_cons]
      abel

/-! ## All changes of a session -/

theorem owner_of_mem_ownedBy {change : Row}
    (member : change ∈ changes.ownedBy session) :
    change.owner = session :=
  beq_iff_eq.1 (List.mem_filter.1 member).2

/-- The changes of a session are those under the keys of its changes. -/
theorem Ordered.key_mem_ownedBy_iff (ordered : changes.Ordered) {change : Row}
    (member : change ∈ changes.rows) :
    change.key ∈ (changes.ownedBy session).map Row.key ↔
      change.owner = session := by
  constructor
  · intro owned
    rcases List.mem_map.1 owned with ⟨mine, mineOwned, same⟩
    have found := ordered.row?_key (List.mem_of_mem_filter mineOwned)
    rw [same, ordered.row?_key member] at found
    rw [Option.some.inj found]
    exact owner_of_mem_ownedBy mineOwned
  · intro own
    exact
      List.mem_map_of_mem (List.mem_filter.2 ⟨member, beq_iff_eq.2 own⟩)

@[simp]
theorem settled_recorded (changes : PendingChanges) (session : Session) :
    (changes.settled session).recorded = changes.recorded :=
  commitEach_recorded _ _

theorem Ordered.settled (ordered : changes.Ordered) (session : Session) :
    (changes.settled session).Ordered :=
  ordered.commitEach _

/-- Exactly the changes of the other sessions are left. -/
theorem Ordered.rows_settled (ordered : changes.Ordered)
    (recorded : changes.recorded = true) (session : Session) :
    (changes.settled session).rows =
      changes.rows.filter fun change => change.owner != session := by
  rw [PendingChanges.settled, rows_commitEach recorded]
  apply List.filter_congr
  intro change member
  rw [Bool.eq_iff_iff, decide_eq_true_eq, bne_iff_ne,
    ordered.key_mem_ownedBy_iff member]

theorem Ordered.ownedBy_settled (ordered : changes.Ordered)
    (recorded : changes.recorded = true) (differs : other ≠ session) :
    (changes.settled session).ownedBy other = changes.ownedBy other := by
  rw [ownedBy, ordered.rows_settled recorded, List.filter_filter, ownedBy]
  apply List.filter_congr
  intro change _
  by_cases own : change.owner = other
  · simp [own, differs]
  · simp [own]

theorem adjustment_settled (recorded : changes.recorded = true)
    (session other : Session) :
    (changes.settled session).adjustment other =
      changes.adjustment other -
        if other = session then effects (changes.ownedBy session) else 0 :=
  adjustment_commitEach recorded (fun _ => owner_of_mem_ownedBy) other

theorem total_settled (recorded : changes.recorded = true)
    (session : Session) :
    (changes.settled session).total =
      changes.total - effects (changes.ownedBy session) :=
  total_commitEach recorded _

/-- What other sessions count for a session stays as it is. -/
theorem foreign_settled (recorded : changes.recorded = true)
    (session : Session) :
    (changes.settled session).foreign session = changes.foreign session := by
  rw [foreign, foreign, adjustment_settled recorded, total_settled recorded,
    if_pos rfl]
  abel

/-! ## Two sessions -/

/-- Changes that differ at most in the order in which sessions are listed. -/
structure Alike (first second : PendingChanges) : Prop where
  recorded : first.recorded = second.recorded
  rows : first.rows = second.rows
  adjustment : ∀ session, first.adjustment session = second.adjustment session
  total : first.total = second.total

theorem Alike.refl (changes : PendingChanges) : changes.Alike changes where
  recorded := rfl
  rows := rfl
  adjustment := fun _ => rfl
  total := rfl

/-- It makes no difference which of two sessions commits first. -/
theorem Ordered.settled_comm (ordered : changes.Ordered)
    (recorded : changes.recorded = true) (session other : Session) :
    ((changes.settled session).settled other).Alike
      ((changes.settled other).settled session) := by
  by_cases differs : other = session
  · rw [differs]
    exact Alike.refl _
  have first := ordered.settled session
  have second := ordered.settled other
  have firstRecorded := (settled_recorded changes session).trans recorded
  have secondRecorded := (settled_recorded changes other).trans recorded
  have others := ordered.ownedBy_settled recorded differs
  have own := ordered.ownedBy_settled recorded (Ne.symm differs)
  constructor
  · simp only [settled_recorded]
  · rw [first.rows_settled firstRecorded, second.rows_settled secondRecorded,
      ordered.rows_settled recorded, ordered.rows_settled recorded,
      List.filter_filter, List.filter_filter]
    apply List.filter_congr
    intro change _
    exact Bool.and_comm _ _
  · intro viewer
    rw [adjustment_settled firstRecorded, adjustment_settled secondRecorded,
      adjustment_settled recorded, adjustment_settled recorded, others, own]
    abel
  · rw [total_settled firstRecorded, total_settled secondRecorded,
      total_settled recorded, total_settled recorded, others, own]
    abel

end VersionedColumns.PendingChanges
