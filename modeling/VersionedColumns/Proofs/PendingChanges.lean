import Mathlib.Algebra.Group.Nat.Defs
import Mathlib.Data.List.Sort
import VersionedColumns.PendingChanges

/-!
# Uncommitted changes by key

The uncommitted changes are ordered when their keys increase strictly, so that
a key has at most one change.  Toggling a row and committing one keep that
order, and each has one exact effect on the change that is found under a key.

Ordered changes below a bound are the changes found under the keys up to that
bound, one key after the other.  This lets a sum or a list over the changes be
read as one over keys.
-/

namespace VersionedColumns

/-- The amount by which the commit of a change alters its owner's count. -/
def ChangeKind.reversal : ChangeKind → Int
  | .insert => -1
  | .delete => 1

namespace PendingChanges

/-- The changes stand in strictly increasing order of their keys. -/
def Ordered (changes : PendingChanges) : Prop :=
  changes.rows.Pairwise fun first second => first.key < second.key

/-! ## Toggling a row -/

theorem mem_of_mem_toggle {row other : Row} {rows : List Row}
    (member : other ∈ toggle row rows) :
    other = row ∨ other ∈ rows := by
  induction rows with
  | nil =>
      exact Or.inl (List.mem_singleton.1 member)
  | cons first rest induction =>
      rw [toggle] at member
      split at member
      · exact List.mem_cons.1 member
      · split at member
        · exact Or.inr (List.mem_cons_of_mem _ member)
        · rcases List.mem_cons.1 member with rfl | later
          · exact Or.inr List.mem_cons_self
          · rcases induction later with same | old
            · exact Or.inl same
            · exact Or.inr (List.mem_cons_of_mem _ old)

theorem pairwise_toggle {row : Row} {rows : List Row}
    (ordered : rows.Pairwise fun first second => first.key < second.key) :
    (toggle row rows).Pairwise fun first second => first.key < second.key := by
  induction rows with
  | nil =>
      exact List.pairwise_singleton _ row
  | cons first rest induction =>
      rcases List.pairwise_cons.1 ordered with ⟨behind, ordered⟩
      rw [toggle]
      split
      · rename_i below
        refine List.pairwise_cons.2 ⟨?_, List.pairwise_cons.2 ⟨behind, ordered⟩⟩
        intro other member
        rcases List.mem_cons.1 member with rfl | later
        · exact below
        · exact Nat.lt_trans below (behind other later)
      · split
        · exact ordered
        · rename_i notBelow differs
          refine List.pairwise_cons.2 ⟨?_, induction ordered⟩
          intro other member
          rcases mem_of_mem_toggle member with rfl | later
          · exact Nat.lt_of_le_of_ne (Nat.not_lt.1 notBelow) (Ne.symm differs)
          · exact behind other later

/-- Where all keys lie behind a given one, no change is found under it. -/
theorem find?_eq_none_of_lt {rows : List Row} {key : Key}
    (behind : ∀ row ∈ rows, key < row.key) :
    rows.find? (·.key == key) = none := by
  rw [List.find?_eq_none]
  intro row member
  simpa using Nat.ne_of_gt (behind row member)

/-- A key gains a change if it had none and loses the one it had. -/
theorem find?_toggle {row : Row} {rows : List Row}
    (ordered : rows.Pairwise fun first second => first.key < second.key)
    (key : Key) :
    (toggle row rows).find? (·.key == key) =
      if key = row.key then
        match rows.find? (·.key == key) with
        | some _ => none
        | none => some row
      else rows.find? (·.key == key) := by
  induction rows with
  | nil =>
      by_cases same : key = row.key
      · simp [toggle, same]
      · simp [toggle, same, Ne.symm same]
  | cons first rest induction =>
      rcases List.pairwise_cons.1 ordered with ⟨behind, ordered⟩
      rw [toggle]
      by_cases below : row.key < first.key
      · have absent : rest.find? (·.key == row.key) = none :=
          find?_eq_none_of_lt fun other member =>
            Nat.lt_trans below (behind other member)
        have differs : (first.key == row.key) = false := by
          simpa using Nat.ne_of_gt below
        rw [if_pos below]
        by_cases same : key = row.key
        · subst same
          simp [differs, absent]
        · simp [List.find?_cons, same, Ne.symm same]
      · rw [if_neg below]
        by_cases held : row.key = first.key
        · have absent : rest.find? (·.key == row.key) = none :=
            find?_eq_none_of_lt fun other member => held ▸ behind other member
          rw [if_pos held]
          by_cases same : key = row.key
          · subst same
            simp [← held, absent]
          · simp [← held, same, Ne.symm same]
        · rw [if_neg held]
          by_cases here : first.key = key
          · subst here
            simp [Ne.symm held]
          · have differs : (first.key == key) = false := by simpa using here
            simpa [List.find?_cons, differs] using induction ordered

/-! ## The change to a key -/

theorem mem_rows_of_row? {changes : PendingChanges} {key : Key} {row : Row}
    (found : changes.row? key = some row) :
    row ∈ changes.rows ∧ row.key = key :=
  ⟨List.mem_of_find?_eq_some found, by simpa using List.find?_some found⟩

/-- In ordered changes, a change is the one that is found under its key. -/
theorem Ordered.row?_key {changes : PendingChanges} (ordered : changes.Ordered)
    {row : Row} (member : row ∈ changes.rows) :
    changes.row? row.key = some row := by
  rw [Ordered] at ordered
  rw [row?]
  generalize changes.rows = rows at ordered member
  induction rows with
  | nil => cases member
  | cons first rest induction =>
      rcases List.pairwise_cons.1 ordered with ⟨behind, ordered⟩
      rcases List.mem_cons.1 member with rfl | later
      · simp
      · have differs : (first.key == row.key) = false := by
          simpa using Nat.ne_of_lt (behind row later)
        simpa [List.find?_cons, differs] using induction ordered later

theorem Ordered.row?_eq_some_iff {changes : PendingChanges}
    (ordered : changes.Ordered) {key : Key} {row : Row} :
    changes.row? key = some row ↔ row ∈ changes.rows ∧ row.key = key := by
  constructor
  · exact mem_rows_of_row?
  · rintro ⟨member, rfl⟩
    exact ordered.row?_key member

/-- Two lists in order of keys are equal if they have the same members. -/
theorem eq_of_mem_iff {rows others : List Row}
    (ordered : rows.Pairwise fun first second => first.key < second.key)
    (otherOrdered : others.Pairwise fun first second => first.key < second.key)
    (same : ∀ row, row ∈ rows ↔ row ∈ others) :
    rows = others := by
  have : Std.Irrefl fun first second : Row => first.key < second.key :=
    ⟨fun row => Nat.lt_irrefl row.key⟩
  have : Std.Antisymm fun first second : Row => first.key < second.key :=
    ⟨fun _ _ before after => absurd before (Nat.lt_asymm after)⟩
  exact List.Pairwise.eq_of_mem_iff ordered otherOrdered fun {row} => same row

/-- Ordered changes are those found under the keys below a bound. -/
theorem Ordered.rows_eq_filterMap {changes : PendingChanges}
    (ordered : changes.Ordered) {bound : Key}
    (bounded : ∀ row ∈ changes.rows, row.key < bound) :
    changes.rows = (List.range bound).filterMap changes.row? := by
  refine eq_of_mem_iff ordered ?_ ?_
  · refine List.Pairwise.filterMap changes.row? ?_ List.pairwise_lt_range
    intro first second before row found other otherFound
    rw [(mem_rows_of_row? found).2, (mem_rows_of_row? otherFound).2]
    exact before
  · intro row
    simp only [List.mem_filterMap, List.mem_range]
    constructor
    · intro member
      exact ⟨row.key, bounded row member, ordered.row?_key member⟩
    · rintro ⟨key, -, found⟩
      exact (mem_rows_of_row? found).1

/-- Changes that are found under all keys but one are the others. -/
theorem Ordered.rows_eq_filter {changes later : PendingChanges}
    (ordered : changes.Ordered) (laterOrdered : later.Ordered) {gone : Key}
    (found : ∀ key, later.row? key =
      if key = gone then none else changes.row? key) :
    later.rows = changes.rows.filter fun row => row.key != gone := by
  refine eq_of_mem_iff laterOrdered (List.Pairwise.filter _ ordered) ?_
  intro row
  have same := found row.key
  rw [List.mem_filter, bne_iff_ne]
  constructor
  · intro member
    rw [laterOrdered.row?_key member] at same
    by_cases here : row.key = gone
    · rw [if_pos here] at same
      cases same
    · rw [if_neg here] at same
      exact ⟨(mem_rows_of_row? same.symm).1, here⟩
  · rintro ⟨member, elsewhere⟩
    rw [if_neg elsewhere, ordered.row?_key member] at same
    exact (mem_rows_of_row? same).1

/-! ## Recording and committing -/

@[simp]
theorem count_total (changes : PendingChanges) (session : Session)
    (amount : Int) :
    (changes.count session amount).total = changes.total + amount := rfl

@[simp]
theorem count_row? (changes : PendingChanges) (session : Session)
    (amount : Int) (key : Key) :
    (changes.count session amount).row? key = changes.row? key := rfl

/-- Toggle a row and count an amount for a session. -/
def record (changes : PendingChanges) (session : Session) (amount : Int)
    (row : Row) : PendingChanges :=
  if changes.recorded then
    { changes with rows := toggle row changes.rows }.count session amount
  else changes

theorem recordInsert_eq (changes : PendingChanges) (session : Session)
    (row : Row) :
    changes.recordInsert session row = changes.record session 1 row := rfl

theorem recordDelete_eq (changes : PendingChanges) (session : Session)
    (row : Row) :
    changes.recordDelete session row =
      changes.record session (-1) { row with deleted := true } := rfl

theorem record_eq {changes : PendingChanges}
    (recorded : changes.recorded = true) (session : Session) (amount : Int)
    (row : Row) :
    changes.record session amount row =
      { changes with rows := toggle row changes.rows }.count session amount := by
  rw [record, if_pos recorded]

theorem commit_eq {changes : PendingChanges}
    (recorded : changes.recorded = true) (kind : ChangeKind) (row : Row) :
    changes.commit kind row =
      { changes with
        rows := changes.rows.filter fun other => other.key != row.key }.count
          row.owner kind.reversal := by
  cases kind with
  | insert | delete =>
      rw [commit, if_pos recorded]
      rfl

theorem record_of_not_recorded {changes : PendingChanges}
    (immediate : changes.recorded = false) (session : Session) (amount : Int)
    (row : Row) :
    changes.record session amount row = changes := by
  rw [record, immediate, if_neg Bool.false_ne_true]

theorem commit_of_not_recorded {changes : PendingChanges}
    (immediate : changes.recorded = false) (kind : ChangeKind) (row : Row) :
    changes.commit kind row = changes := by
  cases kind with
  | insert | delete => rw [commit, immediate, if_neg Bool.false_ne_true]

@[simp]
theorem record_recorded (changes : PendingChanges) (session : Session)
    (amount : Int) (row : Row) :
    (changes.record session amount row).recorded = changes.recorded := by
  cases recorded : changes.recorded with
  | true => rw [record_eq recorded, count_recorded, recorded]
  | false => rw [record_of_not_recorded recorded, recorded]

@[simp]
theorem commit_recorded (changes : PendingChanges) (kind : ChangeKind)
    (row : Row) :
    (changes.commit kind row).recorded = changes.recorded := by
  cases recorded : changes.recorded with
  | true => rw [commit_eq recorded, count_recorded, recorded]
  | false => rw [commit_of_not_recorded recorded, recorded]

/-- By how much all sessions but one alter the row count. -/
def foreign (changes : PendingChanges) (session : Session) : Int :=
  changes.total - changes.adjustment session

theorem foreign_count (changes : PendingChanges) {session other : Session}
    (differs : other ≠ session) (amount : Int) :
    (changes.count other amount).foreign session =
      changes.foreign session + amount := by
  rw [foreign, adjustment_count, if_neg (Ne.symm differs), Int.add_zero,
    count_total, foreign]
  omega

theorem foreign_record {changes : PendingChanges}
    (recorded : changes.recorded = true) {session other : Session}
    (differs : other ≠ session) (amount : Int) (row : Row) :
    (changes.record other amount row).foreign session =
      changes.foreign session + amount := by
  rw [record_eq recorded, foreign_count _ differs]
  rfl

theorem foreign_commit {changes : PendingChanges}
    (recorded : changes.recorded = true) (kind : ChangeKind) {row : Row}
    {session : Session} (differs : row.owner ≠ session) :
    (changes.commit kind row).foreign session =
      changes.foreign session + kind.reversal := by
  rw [commit_eq recorded, foreign_count _ differs]
  rfl

/-- A count that fits a signed number of 64 bits is read as itself. -/
theorem signedCount_of_lt {count : Nat} (limit : count < 2 ^ 63) :
    signedCount count = count := by
  have fits : count < 9223372036854775808 := limit
  have size : UInt64.size = 18446744073709551616 := rfl
  apply Int.bmod_eq_of_le
  · omega
  · omega

/-- A row becomes the change to its key, or takes the one there away. -/
theorem Ordered.row?_record {changes : PendingChanges}
    (ordered : changes.Ordered) (recorded : changes.recorded = true)
    (session : Session) (amount : Int) (row : Row) (key : Key) :
    (changes.record session amount row).row? key =
      if key = row.key then
        match changes.row? key with
        | some _ => none
        | none => some row
      else changes.row? key := by
  rw [record_eq recorded, count_row?]
  exact find?_toggle ordered key

/-- A commit drops the change to the key of the row and no other. -/
theorem commit_row? {changes : PendingChanges}
    (recorded : changes.recorded = true) (kind : ChangeKind) (row : Row)
    (key : Key) :
    (changes.commit kind row).row? key =
      if key = row.key then none else changes.row? key := by
  rw [commit_eq recorded, count_row?, row?, row?, List.find?_filter]
  by_cases same : key = row.key
  · rw [if_pos same, List.find?_eq_none]
    intro other member
    simp [same]
  · rw [if_neg same]
    congr 1
    funext other
    by_cases here : other.key = key
    · simp [here, same]
    · simp [here]

theorem mem_commit_rows {changes : PendingChanges} {kind : ChangeKind}
    {row other : Row}
    (member : other ∈ (changes.commit kind row).rows) :
    other ∈ changes.rows := by
  cases recorded : changes.recorded with
  | true =>
      rw [commit_eq recorded] at member
      exact List.mem_of_mem_filter member
  | false =>
      rw [commit_of_not_recorded recorded] at member
      exact member

theorem mem_commit_rows_of_ne {changes : PendingChanges} {kind : ChangeKind}
    {row other : Row} (member : other ∈ changes.rows)
    (differs : other.key ≠ row.key) :
    other ∈ (changes.commit kind row).rows := by
  cases recorded : changes.recorded with
  | true =>
      rw [commit_eq recorded]
      exact List.mem_filter.2 ⟨member, bne_iff_ne.2 differs⟩
  | false =>
      rw [commit_of_not_recorded recorded]
      exact member

theorem mem_record_rows {changes : PendingChanges} {session : Session}
    {amount : Int} {row other : Row}
    (member : other ∈ (changes.record session amount row).rows) :
    other = row ∨ other ∈ changes.rows := by
  cases recorded : changes.recorded with
  | true =>
      rw [record_eq recorded] at member
      exact mem_of_mem_toggle member
  | false =>
      rw [record_of_not_recorded recorded] at member
      exact Or.inr member

theorem Ordered.record {changes : PendingChanges} (ordered : changes.Ordered)
    (session : Session) (amount : Int) (row : Row) :
    (changes.record session amount row).Ordered := by
  cases recorded : changes.recorded with
  | true =>
      rw [record_eq recorded]
      exact pairwise_toggle ordered
  | false =>
      rw [record_of_not_recorded recorded]
      exact ordered

theorem Ordered.commit {changes : PendingChanges} (ordered : changes.Ordered)
    (kind : ChangeKind) (row : Row) :
    (changes.commit kind row).Ordered := by
  cases recorded : changes.recorded with
  | true =>
      rw [commit_eq recorded]
      exact List.Pairwise.filter _ ordered
  | false =>
      rw [commit_of_not_recorded recorded]
      exact ordered

end PendingChanges

end VersionedColumns
