import Mathlib.Algebra.GroupWithZero.Nat
import Mathlib.Data.List.Nodup
import VersionedColumns.Index.Equality

/-!
# The groups of an equality index

Groups are tidy when no value has two of them and none is empty.  Tidy groups
are determined by one list of keys for every value, which is empty where there
is no group.  Putting a key in appends it to the list of its value, taking it
out erases it there, and both keep groups tidy and count one key.
-/

namespace VersionedColumns

namespace Group

/-- The keys under a value, none of them where the value has no group. -/
def keysOf (value : Value) (groups : List Group) : List Key :=
  (keys? value groups).getD []

/-- The number of keys in all groups. -/
def size (groups : List Group) : Nat :=
  (groups.map fun group => group.2.length).sum

/-- Every value has at most one group, and every group has a key. -/
structure Tidy (groups : List Group) : Prop where
  distinct : (groups.map Prod.fst).Nodup
  filled : ∀ group ∈ groups, group.2 ≠ []

theorem Tidy.nil : Tidy [] where
  distinct := List.nodup_nil
  filled := by
    intro group member
    cases member

theorem tidy_cons {first : Group} {rest : List Group} :
    Tidy (first :: rest) ↔
      first.1 ∉ rest.map Prod.fst ∧ first.2 ≠ [] ∧ Tidy rest := by
  constructor
  · rintro ⟨distinct, filled⟩
    rcases List.nodup_cons.1 distinct with ⟨fresh, others⟩
    rcases List.forall_mem_cons.1 filled with ⟨some, rest⟩
    exact ⟨fresh, some, others, rest⟩
  · rintro ⟨fresh, some, others, rest⟩
    constructor
    · exact List.nodup_cons.2 ⟨fresh, others⟩
    · exact List.forall_mem_cons.2 ⟨some, rest⟩

@[simp]
theorem size_cons (first : Group) (rest : List Group) :
    size (first :: rest) = first.2.length + size rest := rfl

theorem keysOf_cons (value : Value) (first : Group) (rest : List Group) :
    keysOf value (first :: rest) =
      if value = first.1 then first.2 else keysOf value rest := by
  rw [keysOf, keys?, List.lookup_cons]
  by_cases same : value = first.1
  · rw [if_pos same, beq_iff_eq.2 same]
    rfl
  · rw [if_neg same, beq_eq_false_iff_ne.2 same]
    rfl

theorem mem_of_keys? {value : Value} {keys : List Key} {groups : List Group}
    (found : keys? value groups = some keys) :
    (value, keys) ∈ groups := by
  induction groups with
  | nil => cases found
  | cons first rest induction =>
      rcases first with ⟨held, others⟩
      rw [keys?, List.lookup_cons] at found
      by_cases same : value = held
      · subst same
        rw [beq_self_eq_true] at found
        cases found
        exact List.mem_cons_self
      · rw [beq_eq_false_iff_ne.2 same] at found
        exact List.mem_cons_of_mem _ (induction found)

theorem keys?_eq_none {value : Value} {groups : List Group}
    (absent : value ∉ groups.map Prod.fst) :
    keys? value groups = none := by
  cases found : keys? value groups with
  | none => rfl
  | some keys =>
      exact absurd (List.mem_map_of_mem (f := Prod.fst) (mem_of_keys? found))
        absent

theorem Tidy.keys?_of_mem {value : Value} {keys : List Key}
    {groups : List Group} (tidy : Tidy groups) (member : (value, keys) ∈ groups) :
    keys? value groups = some keys := by
  have distinct := tidy.distinct
  clear tidy
  induction groups with
  | nil => cases member
  | cons first rest induction =>
      rcases first with ⟨held, others⟩
      rcases List.nodup_cons.1 distinct with ⟨fresh, distinct⟩
      rw [keys?, List.lookup_cons]
      rcases List.mem_cons.1 member with same | later
      · cases same
        rw [beq_self_eq_true]
      · have listed : value ∈ rest.map Prod.fst :=
          List.mem_map_of_mem (f := Prod.fst) later
        have differs : value ≠ held := by
          rintro rfl
          exact fresh listed
        rw [beq_eq_false_iff_ne.2 differs]
        exact induction later distinct

/-- Tidy groups have a group exactly for the values with keys. -/
theorem Tidy.keys?_eq {groups : List Group} (tidy : Tidy groups)
    (value : Value) :
    keys? value groups =
      if keysOf value groups = [] then none
      else some (keysOf value groups) := by
  cases found : keys? value groups with
  | none => rw [keysOf, found, Option.getD_none, if_pos rfl]
  | some keys =>
      have filled : keys ≠ [] := tidy.filled _ (mem_of_keys? found)
      rw [keysOf, found, Option.getD_some, if_neg filled]

theorem contains_iff {value : Value} {key : Key} {groups : List Group} :
    contains value key groups = true ↔ key ∈ keysOf value groups := by
  rw [contains, keysOf]
  cases keys? value groups with
  | none => simp
  | some keys => simp

/-! ## Putting a key in -/

/-- A key that is put in comes last among those of its value. -/
theorem keysOf_insert (value other : Value) (key : Key)
    (groups : List Group) :
    keysOf other (insert value key groups) =
      if other = value then keysOf value groups ++ [key]
      else keysOf other groups := by
  rw [keysOf, keys?_insert]
  by_cases same : other = value
  · rw [if_pos same, if_pos same]
    rfl
  · rw [if_neg same, if_neg same]
    rfl

theorem mem_values_insert {value other : Value} {key : Key}
    {groups : List Group} :
    other ∈ (insert value key groups).map Prod.fst ↔
      other = value ∨ other ∈ groups.map Prod.fst := by
  induction groups with
  | nil => simp [insert]
  | cons first rest induction =>
      rcases first with ⟨held, keys⟩
      rw [insert]
      split
      · rename_i same
        subst same
        simp
      · rw [List.map_cons, List.mem_cons, induction, List.map_cons, List.mem_cons]
        exact or_left_comm

theorem Tidy.insert {groups : List Group} (tidy : Tidy groups) (value : Value)
    (key : Key) :
    Tidy (insert value key groups) := by
  induction groups with
  | nil => exact tidy_cons.2 ⟨List.not_mem_nil, List.cons_ne_nil _ _, Tidy.nil⟩
  | cons first rest induction =>
      rcases tidy_cons.1 tidy with ⟨fresh, filled, others⟩
      rw [Group.insert]
      split
      · have longer : first.2 ++ [key] ≠ [] :=
          List.append_ne_nil_of_left_ne_nil filled _
        exact tidy_cons.2 ⟨fresh, longer, others⟩
      · rename_i differs
        refine tidy_cons.2 ⟨?_, filled, induction others⟩
        intro member
        rcases mem_values_insert.1 member with same | later
        · exact differs same
        · exact fresh later

theorem size_insert (value : Value) (key : Key) (groups : List Group) :
    size (insert value key groups) = size groups + 1 := by
  induction groups with
  | nil => rfl
  | cons first rest induction =>
      rw [insert]
      split
      · rw [size_cons, size_cons, List.length_append, List.length_singleton]
        exact Nat.add_right_comm _ _ _
      · rw [size_cons, size_cons, induction, Nat.add_assoc]

/-! ## Taking a key out -/

theorem mem_values_erase {value other : Value} {key : Key}
    {groups : List Group}
    (member : other ∈ (erase value key groups).map Prod.fst) :
    other ∈ groups.map Prod.fst := by
  induction groups with
  | nil => cases member
  | cons first rest induction =>
      rcases first with ⟨held, keys⟩
      rw [erase] at member
      rw [List.map_cons, List.mem_cons]
      split at member
      · split at member
        · exact Or.inr member
        · exact List.mem_cons.1 member
      · rcases List.mem_cons.1 member with same | later
        · exact Or.inl same
        · exact Or.inr (induction later)

theorem Tidy.erase {groups : List Group} (tidy : Tidy groups) (value : Value)
    (key : Key) :
    Tidy (erase value key groups) := by
  induction groups with
  | nil => exact Tidy.nil
  | cons first rest induction =>
      rcases tidy_cons.1 tidy with ⟨fresh, filled, others⟩
      rw [Group.erase]
      split
      · split
        · exact others
        · rename_i left
          have some : first.2.erase key ≠ [] := by simpa using left
          exact tidy_cons.2 ⟨fresh, some, others⟩
      · refine tidy_cons.2 ⟨?_, filled, induction others⟩
        exact fun member => fresh (mem_values_erase member)

/-- A key that is taken out leaves the keys of its value alone. -/
theorem Tidy.keysOf_erase {groups : List Group} (tidy : Tidy groups)
    (value other : Value) (key : Key) :
    keysOf other (Group.erase value key groups) =
      if other = value then (keysOf value groups).erase key
      else keysOf other groups := by
  induction groups with
  | nil =>
      simp [Group.erase, keysOf, keys?]
  | cons first rest induction =>
      rcases first with ⟨held, keys⟩
      rcases tidy_cons.1 tidy with ⟨fresh, filled, others⟩
      rw [Group.erase]
      by_cases here : held = value
      · subst here
        have none : keysOf held rest = [] := by
          rw [keysOf, keys?_eq_none fresh]
          rfl
        rw [if_pos rfl, keysOf_cons, keysOf_cons, if_pos rfl]
        by_cases same : other = held
        · subst same
          rw [if_pos rfl]
          split
          · rename_i emptied
            rw [none, List.isEmpty_iff.1 emptied]
          · rw [keysOf_cons, if_pos rfl]
        · rw [if_neg same, if_neg same]
          split
          · rfl
          · rw [keysOf_cons, if_neg same]
      · rw [if_neg here, keysOf_cons, keysOf_cons, keysOf_cons,
          if_neg (Ne.symm here), induction others]
        by_cases same : other = held
        · subst same
          rw [if_pos rfl, if_neg here, if_pos rfl]
        · rw [if_neg same, if_neg same]

theorem size_erase {value : Value} {key : Key} {groups : List Group}
    (held : key ∈ keysOf value groups) :
    size (erase value key groups) + 1 = size groups := by
  induction groups with
  | nil => cases held
  | cons first rest induction =>
      rcases first with ⟨other, keys⟩
      rw [keysOf_cons] at held
      rw [erase]
      by_cases here : other = value
      · subst here
        rw [if_pos rfl] at held
        have shorter := List.length_erase_of_mem held
        have positive := List.length_pos_of_mem held
        rw [if_pos rfl]
        split
        · rename_i emptied
          rw [List.isEmpty_iff.1 emptied, List.length_nil] at shorter
          rw [size_cons]
          grind
        · rw [size_cons, size_cons, shorter]
          grind
      · rw [if_neg (Ne.symm here)] at held
        rw [if_neg here, size_cons, size_cons, ← induction held, Nat.add_assoc]

end Group

end VersionedColumns
