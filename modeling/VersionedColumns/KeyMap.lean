/-!
# Maps

A map holds one item at most under each label.  What it answers does not depend
on the order of its entries, which is that of their arrival.
-/

namespace VersionedColumns

/-- Items under labels, of which none occurs twice. -/
structure KeyMap (Label Item : Type) where
  entries : List (Label × Item)
  labels_nodup : (entries.map Prod.fst).Nodup
deriving DecidableEq

namespace KeyMap

variable {Label Item : Type}

/-- The map without entries. -/
def empty : KeyMap Label Item where
  entries := []
  labels_nodup := List.nodup_nil

/-- The number of entries. -/
def size (map : KeyMap Label Item) : Nat :=
  map.entries.length

/-- Keep the entries that a test of label and item admits. -/
def retain (map : KeyMap Label Item) (keeps : Label → Item → Bool) :
    KeyMap Label Item where
  entries := map.entries.filter fun entry => keeps entry.1 entry.2
  labels_nodup := map.labels_nodup.sublist (List.filter_sublist.map Prod.fst)

variable [DecidableEq Label]

/-- The item under a label. -/
def get? (map : KeyMap Label Item) (label : Label) : Option Item :=
  map.entries.lookup label

/-- Whether there is an item under a label. -/
def contains (map : KeyMap Label Item) (label : Label) : Bool :=
  (map.get? label).isSome

/-- Remove the item under a label, if there is one. -/
def erase (map : KeyMap Label Item) (label : Label) : KeyMap Label Item :=
  map.retain fun other _ => other != label

/-- Put an item under a label, in the place of the one that is there. -/
def insert (map : KeyMap Label Item) (label : Label) (item : Item) :
    KeyMap Label Item where
  entries := (map.erase label).entries ++ [(label, item)]
  labels_nodup := by
    rw [List.map_append, List.nodup_append]
    refine ⟨(map.erase label).labels_nodup, by simp, ?_⟩
    intro other kept last inserted
    rcases List.mem_map.1 kept with ⟨entry, member, rfl⟩
    have differs := (List.mem_filter.1 member).2
    rw [List.mem_singleton.1 inserted]
    simpa using differs

theorem lookup_eq_some_iff {entries : List (Label × Item)}
    (apart : (entries.map Prod.fst).Nodup) {label : Label} {item : Item} :
    entries.lookup label = some item ↔ (label, item) ∈ entries := by
  induction entries with
  | nil => simp
  | cons entry rest induction =>
      rcases entry with ⟨first, other⟩
      rw [List.map_cons, List.nodup_cons] at apart
      rw [List.lookup_cons, List.mem_cons, ← induction apart.2]
      by_cases same : label = first
      · have absent : rest.lookup label ≠ some item := by
          rw [ne_eq, induction apart.2, same]
          intro member
          exact apart.1 (List.mem_map.2 ⟨_, member, rfl⟩)
        simp [absent, ← same, eq_comm]
      · have differs : (label == first) = false := by simp [same]
        simp [same, differs]

/-- What is found under a label is its entry. -/
theorem get?_eq_some_iff {map : KeyMap Label Item} {label : Label}
    {item : Item} :
    map.get? label = some item ↔ (label, item) ∈ map.entries :=
  lookup_eq_some_iff map.labels_nodup

theorem get?_eq_none_iff {map : KeyMap Label Item} {label : Label} :
    map.get? label = none ↔ ∀ item, (label, item) ∉ map.entries := by
  constructor
  · intro absent item member
    rw [get?_eq_some_iff.2 member] at absent
    cases absent
  · intro absent
    cases found : map.get? label with
    | none => rfl
    | some item => exact absurd (get?_eq_some_iff.1 found) (absent item)

/-- An item under a label of its own comes last. -/
theorem insert_entries {map : KeyMap Label Item} {label : Label}
    (absent : map.get? label = none) (item : Item) :
    (map.insert label item).entries = map.entries ++ [(label, item)] := by
  have kept : (map.erase label).entries = map.entries := by
    rw [erase, retain, List.filter_eq_self]
    rintro ⟨other, kept⟩ member
    rw [bne_iff_ne]
    rintro rfl
    exact get?_eq_none_iff.1 absent kept member
  exact congrArg (· ++ [(label, item)]) kept

end KeyMap

end VersionedColumns
