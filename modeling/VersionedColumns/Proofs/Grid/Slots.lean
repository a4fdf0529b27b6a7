import Mathlib.Algebra.Group.Nat.Defs
import VersionedColumns.Proofs.Grid

/-!
# A grid as a list of rows

What a grid means, without columns, marks and counters: a list with one slot
for every key that was handed out, which holds a row or, once that is removed,
nothing.  A row that is stored comes into a new slot at the end, and a slot is
never moved.

The main statement says that a grid answers every call as its slots do, and
that all it can be asked is read off them: rows, columns, keys and counts.
-/

namespace VersionedColumns

/-! ## Calls on a grid -/

namespace Grid

/-- A call that changes a grid. -/
inductive Action where
  | append (values : List Value)
  | remove (key : Key)
  | clear
deriving DecidableEq

/-- What a call answers when it succeeds. -/
inductive Reply where
  | done
  | key (key : Key)
deriving DecidableEq

/-- Carry out a call. -/
def perform (grid : Grid) : Action → Outcome Grid Reply
  | .append values =>
    let (outcome, grid) := grid.append values
    (outcome.map .key, grid)
  | .remove key =>
    let (outcome, grid) := grid.remove key
    (outcome.map fun _ => .done, grid)
  | .clear => (.ok .done, grid.clear)

/-- The grid after a call, whether it succeeds or fails. -/
def after (grid : Grid) (action : Action) : Grid :=
  (grid.perform action).2

/-- The grid after a sequence of calls. -/
def run (grid : Grid) (actions : List Action) : Grid :=
  actions.foldl after grid

end Grid

/-! ## The same calls on slots -/

/-- A row for every key in order, and nothing where the row was removed. -/
abbrev Slots := List (Option (List Value))

namespace Slots

/-- Put a row of the right width into a new slot, whose place is its key. -/
def put (width : Nat) (slots : Slots) (values : List Value) :
    Outcome Slots Key :=
  if values.length = width then (.ok slots.length, slots ++ [some values])
  else (.error (.columnCountMismatch width values.length), slots)

/-- Take the row out of a slot that has one. -/
def blank (slots : Slots) (key : Key) : Outcome Slots Unit :=
  match slots[key]? with
  | some (some _) => (.ok (), slots.set key none)
  | some none | none => (.error (.nothingToRemove key slots.length), slots)

/-- Carry out a call on rows of the given width. -/
def perform (width : Nat) (slots : Slots) :
    Grid.Action → Outcome Slots Grid.Reply
  | .append values =>
    let (outcome, slots) := put width slots values
    (outcome.map .key, slots)
  | .remove key =>
    let (outcome, slots) := blank slots key
    (outcome.map fun _ => .done, slots)
  | .clear => (.ok .done, [])

/-- The slots after a sequence of calls. -/
def run (width : Nat) (slots : Slots) (actions : List Grid.Action) : Slots :=
  actions.foldl (fun slots action => (perform width slots action).2) slots

end Slots

namespace Grid

variable {grid : Grid} {key : Key} {values : List Value}

/-! ## The slots of a grid -/

/-- What the slot of a key holds. -/
def slot (grid : Grid) (key : Key) : Option (List Value) :=
  if grid.isLive key then some (grid.cells key) else none

/-- The slots of all keys that were handed out. -/
def slots (grid : Grid) : Slots :=
  (List.range grid.nextKey).map grid.slot

theorem slot_of_isLive (live : grid.isLive key = true) :
    grid.slot key = some (grid.cells key) :=
  if_pos live

theorem slot_eq_none_iff : grid.slot key = none ↔ grid.isLive key = false := by
  rw [slot]
  split <;> simp [*]

@[simp]
theorem slots_length (grid : Grid) : grid.slots.length = grid.nextKey := by
  simp [slots]

theorem slots_getElem? (grid : Grid) (key : Key) :
    grid.slots[key]? =
      if key < grid.nextKey then some (grid.slot key) else none := by
  rw [slots, List.getElem?_map]
  split
  · rename_i inside
    rw [List.getElem?_range inside, Option.map_some]
  · rename_i outside
    rw [List.getElem?_eq_none (by simpa using outside), Option.map_none]

/-- A slot holds a row exactly where its key is live. -/
theorem slots_getElem?_eq_some_iff :
    grid.slots[key]? = some (some values) ↔
      grid.isLive key = true ∧ grid.cells key = values := by
  rw [slots_getElem?, slot]
  constructor
  · intro found
    split at found
    · split at found
      · rename_i live
        exact ⟨live, Option.some.inj (Option.some.inj found)⟩
      · cases found
    · cases found
  · rintro ⟨live, rfl⟩
    rw [if_pos (lt_nextKey_of_isLive live), if_pos live]

/-- A slot is empty exactly where its key was handed out and is removed. -/
theorem InStep.slots_getElem?_eq_none_iff (inStep : grid.InStep) :
    grid.slots[key]? = some none ↔ key ∈ grid.removed := by
  rw [slots_getElem?]
  constructor
  · intro found
    split at found
    · rename_i inside
      have dead := slot_eq_none_iff.1 (Option.some.inj found)
      simpa [isLive, isRemoved, inside] using dead
    · cases found
  · intro removed
    have dead : grid.isLive key = false := by
      simp [isLive, isRemoved, removed]
    rw [if_pos (inStep.removed_lt key removed), slot_eq_none_iff.2 dead]

theorem InStep.slots_appended (inStep : grid.InStep)
    (fitting : values.length = grid.columns.length) :
    (grid.appended values).slots = grid.slots ++ [some values] := by
  have old : (List.range grid.nextKey).map (grid.appended values).slot =
      grid.slots := by
    apply List.map_congr_left
    intro key member
    have differs := Nat.ne_of_lt (List.mem_range.1 member)
    rw [slot, slot, inStep.isLive_appended, beq_eq_false_iff_ne.2 differs,
      Bool.or_false, inStep.cells_appended fitting, if_neg differs]
  have live : (grid.appended values).isLive grid.nextKey = true := by
    simp [inStep.isLive_appended]
  have last : (grid.appended values).slot grid.nextKey = some values := by
    rw [slot_of_isLive live, inStep.cells_appended fitting, if_pos rfl]
  rw [slots, appended_nextKey, List.range_succ, List.map_append, old,
    List.map_singleton, last]

/-- A removal empties one slot and leaves the others where they are. -/
theorem slots_without (grid : Grid) (key : Key) :
    (grid.without key).slots = grid.slots.set key none := by
  apply List.ext_getElem?
  intro other
  rw [List.getElem?_set, slots_getElem?, slots_getElem?, slots_length,
    without_nextKey]
  by_cases same : key = other
  · subst same
    have dead : (grid.without key).isLive key = false := by
      simp [isLive_without]
    rw [if_pos rfl, slot_eq_none_iff.2 dead]
  · have kept : (grid.without key).slot other = grid.slot other := by
      rw [slot, slot, isLive_without, bne_iff_ne.2 (Ne.symm same), Bool.and_true,
        cells_without_of_ne grid (Ne.symm same)]
    rw [if_neg same, kept]

/-! ## Calls in step -/

/-- What a call can answer, and what it can make of a grid. -/
inductive Effect (grid : Grid) : Action → Except Error Reply → Grid → Prop
  /-- A call that fails changes nothing. -/
  | refused {action : Action} (error : Error) :
      Effect grid action (.error error) grid
  | appended {values : List Value}
      (fitting : values.length = grid.columns.length) :
      Effect grid (.append values) (.ok (.key grid.nextKey))
        (grid.appended values)
  | removed {key : Key} (live : grid.isLive key = true) :
      Effect grid (.remove key) (.ok .done) (grid.without key)
  | cleared : Effect grid .clear (.ok .done) grid.clear

/-- Every call has one of these effects. -/
theorem perform_effect (grid : Grid) (action : Action) :
    Effect grid action (grid.perform action).1 (grid.after action) := by
  rw [after]
  cases action with
  | append values =>
      rw [perform]
      by_cases fitting : values.length = grid.columns.length
      · rw [append_of_length_eq fitting]
        exact Effect.appended fitting
      · rw [append_of_length_ne fitting]
        exact Effect.refused _
  | remove key =>
      rw [perform]
      cases live : grid.isLive key with
      | true =>
          rw [remove_of_isLive live]
          exact Effect.removed live
      | false =>
          rw [remove_of_not_isLive live]
          exact Effect.refused _
  | clear => exact Effect.cleared

/-- A call that fails leaves the grid as it was. -/
theorem after_of_fails {action : Action} {error : Error}
    (fails : (grid.perform action).1 = .error error) :
    grid.after action = grid := by
  have effect := grid.perform_effect action
  rw [fails] at effect
  generalize grid.after action = later at effect ⊢
  cases effect with
  | refused error => rfl

theorem after_columns_length (grid : Grid) (action : Action) :
    (grid.after action).columns.length = grid.columns.length := by
  have effect := grid.perform_effect action
  generalize (grid.perform action).1 = answer at effect
  generalize grid.after action = later at effect ⊢
  cases effect with
  | refused error => rfl
  | appended fitting => exact appended_columns_length fitting
  | removed live => exact grid.without_columns_length _
  | cleared => exact grid.clear_columns_length

/-- A grid answers a call as its slots do, and has the same slots after it. -/
theorem InStep.perform_slots (inStep : grid.InStep) (action : Action) :
    (grid.perform action).1 =
        (grid.slots.perform grid.columns.length action).1 ∧
      (grid.after action).slots =
        (grid.slots.perform grid.columns.length action).2 := by
  rw [after]
  cases action with
  | append values =>
      rw [perform, Slots.perform, Slots.put]
      by_cases fitting : values.length = grid.columns.length
      · rw [append_of_length_eq fitting, if_pos fitting, slots_length]
        exact ⟨rfl, inStep.slots_appended fitting⟩
      · rw [append_of_length_ne fitting, if_neg fitting]
        exact ⟨rfl, rfl⟩
  | remove key =>
      rw [perform, Slots.perform, Slots.blank]
      cases live : grid.isLive key with
      | true =>
          rw [remove_of_isLive live, slots_getElem?_eq_some_iff.2 ⟨live, rfl⟩]
          exact ⟨rfl, grid.slots_without key⟩
      | false =>
          rw [remove_of_not_isLive live, slots_getElem?, slot_eq_none_iff.2 live,
            slots_length]
          by_cases inside : key < grid.nextKey
          · rw [if_pos inside]
            exact ⟨rfl, rfl⟩
          · rw [if_neg inside]
            exact ⟨rfl, rfl⟩
  | clear => exact ⟨rfl, rfl⟩

/-! ## Cells of removed keys -/

/-- The cells of removed keys are empty. -/
def Blanked (grid : Grid) : Prop :=
  ∀ key ∈ grid.removed, ∀ cell ∈ grid.cells key, cell = .null

theorem InStep.blanked_appended (inStep : grid.InStep) (blanked : grid.Blanked)
    (fitting : values.length = grid.columns.length) :
    (grid.appended values).Blanked := by
  intro key removed
  have differs := Nat.ne_of_lt (inStep.removed_lt key removed)
  rw [inStep.cells_appended fitting, if_neg differs]
  exact blanked key removed

theorem Blanked.without (blanked : grid.Blanked) (key : Key) :
    (grid.without key).Blanked := by
  intro other removed cell member
  by_cases same : other = key
  · rcases List.mem_map.1 member with ⟨column, cleared, rfl⟩
    rcases List.mem_map.1 cleared with ⟨old, -, rfl⟩
    rw [same, Array.getD_eq_getD_getElem?, Array.getElem?_setIfInBounds_self]
    split <;> rfl
  · rw [cells_without_of_ne grid same] at member
    rcases List.mem_cons.1 removed with here | before
    · exact absurd here same
    · exact blanked other before cell member

/-- Every call keeps a grid in step and the cells of removed keys empty. -/
theorem InStep.after (inStep : grid.InStep) (blanked : grid.Blanked)
    (action : Action) :
    (grid.after action).InStep ∧ (grid.after action).Blanked := by
  have effect := grid.perform_effect action
  generalize (grid.perform action).1 = answer at effect
  generalize grid.after action = later at effect ⊢
  cases effect with
  | refused error => exact ⟨inStep, blanked⟩
  | appended fitting =>
      exact ⟨inStep.appended _, inStep.blanked_appended blanked fitting⟩
  | removed live => exact ⟨inStep.without live, blanked.without _⟩
  | cleared => exact ⟨InStep.clear grid, by rintro key ⟨⟩⟩

/-- A run makes of a grid what it makes of its slots. -/
theorem InStep.run (inStep : grid.InStep) (blanked : grid.Blanked)
    (actions : List Action) :
    ((grid.run actions).InStep ∧ (grid.run actions).Blanked) ∧
      (grid.run actions).columns.length = grid.columns.length ∧
      (grid.run actions).slots =
        Slots.run grid.columns.length grid.slots actions := by
  induction actions generalizing grid with
  | nil => exact ⟨⟨inStep, blanked⟩, rfl, rfl⟩
  | cons action rest induction =>
      rcases inStep.after blanked action with ⟨later, laterBlanked⟩
      rcases induction later laterBlanked with ⟨kept, width, same⟩
      rw [grid.after_columns_length, (inStep.perform_slots action).2] at same
      exact ⟨kept, width.trans (grid.after_columns_length action), same⟩

/-! ## Counts -/

/-- There are as many slots with a row as live keys. -/
theorem countP_slots (grid : Grid) :
    grid.slots.countP Option.isSome = grid.liveKeys.length := by
  rw [slots, List.countP_map, List.countP_eq_length_filter, liveKeys]
  congr 2
  funext key
  rw [Function.comp_apply, slot]
  cases grid.isLive key <;> rfl

/-- There are as many empty slots as removed keys. -/
theorem InStep.count_slots (inStep : grid.InStep) :
    grid.slots.count none = grid.removed.length := by
  rw [slots, List.count, List.countP_map, List.countP_eq_length_filter,
    inStep.removed_perm.length_eq]
  congr 2
  funext key
  rw [Function.comp_apply, slot]
  cases grid.isLive key <;> rfl

/-! ## Reading a grid by its slots -/

/-- All that can be asked of a grid is what its slots say. -/
structure ReadsAs (grid : Grid) (slots : Slots) : Prop where
  nextKey_eq : grid.nextKey = slots.length
  row?_eq_none_iff : ∀ key, grid.row? key = none ↔ slots.length ≤ key
  row?_eq_tombstone_iff : ∀ key,
    grid.row? key = some Row.tombstone ↔ slots[key]? = some none
  /-- A row is read with its key and with the values that were stored. -/
  row?_eq_stored : ∀ key values, slots[key]? = some (some values) →
    grid.row? key = some (Row.stored key values)
  /-- Every column has a cell for every key. -/
  size_eq : ∀ column ∈ grid.columns, column.size = slots.length
  /-- The cells of an empty slot are null. -/
  blank_eq : ∀ column ∈ grid.columns, ∀ key : Key, slots[key]? = some none →
    column[key]? = some .null
  mem_of_column? : ∀ name column, grid.column? name = some column →
    column ∈ grid.columns
  isRemoved_iff : ∀ key,
    grid.isRemoved key = true ↔ slots[key]? = some none
  removed_lt : ∀ key ∈ grid.removed, key < grid.nextKey
  removed_length : grid.removed.length = slots.count none
  liveCount_eq : grid.liveCount = slots.countP Option.isSome

/-- Only the key that no row has would read as the tombstone. -/
theorem row?_eq_tombstone_iff (limit : grid.nextKey < 2 ^ 64) :
    grid.row? key = some Row.tombstone ↔ grid.slots[key]? = some none := by
  rw [slots_getElem?]
  by_cases inside : key < grid.nextKey
  · rw [if_pos inside, Option.some.injEq, slot_eq_none_iff]
    cases live : grid.isLive key with
    | false => simp [row?_eq_of_isLive_false inside live]
    | true =>
        have notLast : key ≠ Row.tombstoneKey := by
          rw [Row.tombstoneKey]
          grind
        rw [row?_of_isLive live]
        simp only [Option.some.injEq, Bool.true_eq_false, iff_false]
        exact fun same => notLast (congrArg Row.key same)
  · rw [if_neg inside, row?_eq_none_iff.2 (Nat.le_of_not_lt inside)]
    simp

theorem InStep.readsAs_slots (inStep : grid.InStep) (blanked : grid.Blanked)
    (limit : grid.nextKey < 2 ^ 64) :
    grid.ReadsAs grid.slots where
  nextKey_eq := grid.slots_length.symm
  row?_eq_none_iff key := by
    rw [slots_length]
    exact row?_eq_none_iff
  row?_eq_tombstone_iff _ := row?_eq_tombstone_iff limit
  row?_eq_stored key values found := by
    rcases slots_getElem?_eq_some_iff.1 found with ⟨live, rfl⟩
    exact row?_of_isLive live
  size_eq column member := by
    rw [slots_length]
    exact inStep.size_eq column member
  blank_eq column member key found := by
    have removed := inStep.slots_getElem?_eq_none_iff.1 found
    have inside : key < column.size := by
      rw [inStep.size_eq column member]
      exact inStep.removed_lt key removed
    have empty : column.getD key .null = .null :=
      blanked key removed _ (List.mem_map_of_mem member)
    rw [Array.getD_eq_getD_getElem?, Array.getElem?_eq_getElem inside] at empty
    rw [Array.getElem?_eq_getElem inside]
    exact congrArg some empty
  mem_of_column? name column found := by
    rcases Option.map_eq_some_iff.1 found with ⟨entry, named, rfl⟩
    exact (List.of_mem_zip (List.mem_of_find?_eq_some named)).2
  isRemoved_iff key := by
    rw [inStep.slots_getElem?_eq_none_iff, isRemoved, List.contains_iff_mem]
  removed_lt := inStep.removed_lt
  removed_length := inStep.count_slots.symm
  liveCount_eq := inStep.liveCount_eq.trans grid.countP_slots.symm

/--
After any run from a grid without rows, all that can be asked of the grid is
what the slots say that the same calls make of an empty list, and the next call
has the same answer.  A call that fails changes nothing.
-/
theorem run_empty_refines_slots (names : List String) (actions : List Action)
    (grid : Grid) (reached : (empty names).run actions = grid) (slots : Slots)
    (kept : Slots.run names.length [] actions = slots)
    (limit : slots.length < 2 ^ 64) :
    grid.ReadsAs slots ∧
      ∀ action,
        (grid.perform action).1 = (slots.perform names.length action).1 ∧
          ∀ error, (grid.perform action).1 = .error error →
            grid.after action = grid := by
  have blank : (empty names).Blanked := by rintro key ⟨⟩
  have width : (empty names).columns.length = names.length :=
    List.length_map _
  rcases (InStep.empty names).run blank actions with
    ⟨⟨inStep, blanked⟩, sameWidth, same⟩
  rw [reached] at inStep blanked sameWidth same
  rw [width] at sameWidth same
  have equal : grid.slots = slots := same.trans kept
  subst equal
  rw [slots_length] at limit
  refine ⟨inStep.readsAs_slots blanked limit, fun action => ⟨?_, ?_⟩⟩
  · rw [← sameWidth]
    exact (inStep.perform_slots action).1
  · exact fun error fails => after_of_fails fails

/-- Two columns, a row too short, a removal and one that comes too late. -/
def sampleActions : List Action :=
  [.append [.int 7, .varchar "low"], .append [.int 8],
    .append [.int 9, .null], .remove 0, .remove 0]

/-- The removed row keeps its place, and the one behind it its key. -/
theorem run_sample_refines_slots :
    ((empty ["Level", "Note"]).run sampleActions).row? 0 =
        some Row.tombstone ∧
      ((empty ["Level", "Note"]).run sampleActions).row? 1 =
        some (Row.stored 1 [.int 9, .null]) ∧
      ((empty ["Level", "Note"]).run sampleActions).liveCount = 1 := by
  have reads :=
    (run_empty_refines_slots ["Level", "Note"] sampleActions _ rfl _ rfl
      (by decide)).1
  refine ⟨?_, ?_, ?_⟩
  · exact (reads.row?_eq_tombstone_iff 0).2 (by decide)
  · exact reads.row?_eq_stored 1 _ (by decide)
  · exact reads.liveCount_eq

end Grid

end VersionedColumns
