import VersionedColumns.Proofs.Table.Mirroring

/-!
# Tables that can be searched

A search through an equality index needs an index that covers all rows of the
table and converts values to the type of its column.  Both hold in a new table,
and every call but a closing one keeps them: closing a table empties its
indexes and leaves the rows.
-/

namespace VersionedColumns

theorem EqualityIndex.type_eq_of_clear_eq {index other : EqualityIndex}
    (same : index.clear = other.clear) :
    index.column = other.column ∧ index.columnType = other.columnType := by
  have column := congrArg EqualityIndex.column same
  have columnType := congrArg EqualityIndex.columnType same
  exact ⟨column, columnType⟩

namespace Table

/-! ## Types of equality indexes -/

/-- Every equality index has the type of its column. -/
def Typed (table : Table) : Prop :=
  ∀ index ∈ table.secondary,
    (table.columns[index.column]?).map Column.type = some index.columnType

theorem Typed.congr {table later : Table} (typed : table.Typed)
    (columns : later.columns = table.columns)
    (kept : ∀ index ∈ later.secondary, ∃ old ∈ table.secondary,
      index.column = old.column ∧ index.columnType = old.columnType) :
    later.Typed := by
  intro index member
  rcases kept index member with ⟨old, oldMember, column, type⟩
  rw [columns, column, type]
  exact typed old oldMember

/-- Indexes that change nothing but their rows keep their types. -/
theorem Typed.map {table later : Table} (typed : table.Typed)
    (columns : later.columns = table.columns)
    {change : EqualityIndex → EqualityIndex}
    (rowsOnly : ∀ index, (change index).clear = index.clear)
    (secondary : later.secondary = table.secondary.map change) :
    later.Typed := by
  apply typed.congr columns
  intro index member
  rw [secondary] at member
  rcases List.mem_map.1 member with ⟨old, oldMember, rfl⟩
  exact ⟨old, oldMember, EqualityIndex.type_eq_of_clear_eq (rowsOnly old)⟩

theorem Typed.step {session : Session} {table later : Table}
    (typed : table.Typed) (step : Step session table later) :
    later.Typed := by
  cases step with
  | stored fits =>
      exact typed.map rfl (fun index => index.clear_insert _) rfl
  | takenBack found member own =>
      exact typed.map rfl (fun index => index.clear_remove _) rfl
  | settled member => exact typed

/-- Every call keeps the types of the equality indexes. -/
theorem Sound.typed_after {table : Table} (sound : table.Sound)
    (typed : table.Typed) {action : Action} (limit : KeysFit table action) :
    (table.after action).Typed := by
  have effect := sound.perform_effect action limit
  generalize (table.perform action).1 = answer at effect
  generalize table.after action = later at effect ⊢
  cases effect with
  | refused error => exact typed
  | inserted fits =>
      exact typed.map rfl (fun index => index.clear_insert _) rfl
  | removed found =>
      exact typed.map rfl (fun index => index.clear_remove _) rfl
  | committed steps | rolledBack steps =>
      exact steps.preserve (fun _ typed step => typed.step step) sound typed
  | indexAdded inside accepted =>
      rename_i name _ position definition filled
      have kept := clear_fill table.primary none table.primary.nextKey
        (EqualityIndex.empty table.id name position definition.type)
      rw [accepted] at kept
      rcases EqualityIndex.type_eq_of_clear_eq kept with ⟨column, type⟩
      intro index member
      rcases List.mem_append.1 member with old | new
      · exact typed index old
      · rw [List.mem_singleton.1 new, column, type]
        exact congrArg (Option.map Column.type) inside
  | indexDropped found =>
      exact typed.congr rfl fun index member =>
        ⟨index, List.mem_of_mem_eraseP member, rfl, rfl⟩
  | indexRenamed =>
      refine typed.congr rfl fun index member => ?_
      rcases mem_renameFirst member with same | ⟨old, oldMember, rfl⟩
      · exact ⟨index, same, rfl, rfl⟩
      · exact ⟨old, oldMember, rfl, rfl⟩
  | truncated | closed =>
      have rowsOnly : ∀ index : EqualityIndex, index.clear.clear = index.clear :=
        fun _ => rfl
      exact typed.map rfl rowsOnly rfl
  | discarded =>
      intro index member
      cases member

/-! ## Equality indexes that cover all rows -/

/-- Every equality index covers all rows. -/
def Covered (table : Table) : Prop :=
  ∀ index ∈ table.secondary, index.Mirrors table.primary.grid 0

/-- The call does not close the table. -/
def StaysOpen (_ : Table) (action : Action) : Prop :=
  action ≠ .close

instance StaysOpen.decidable (table : Table) (action : Action) :
    Decidable (StaysOpen table action) :=
  inferInstanceAs (Decidable (_ ≠ _))

theorem covered_iff {table : Table} :
    table.Covered ↔ table.Mirrored (table.secondary.map fun _ => 0) := by
  rw [Mirrored, List.forall₂_map_right_iff, List.forall₂_same]
  rfl

/-- Indexes that cover all rows do so until the table is closed. -/
theorem firstsAfter_eq_zero {table : Table} {firsts : List Key}
    (all : ∀ first ∈ firsts, first = 0) {action : Action}
    (stays : StaysOpen table action) (answer : Except Error Reply) :
    ∀ first ∈ table.firstsAfter firsts action answer, first = 0 := by
  intro first member
  unfold firstsAfter at member
  split at member
  · rcases List.mem_append.1 member with old | new
    · exact all first old
    · exact List.mem_singleton.1 new
  · exact all first (List.mem_of_mem_eraseIdx member)
  · rcases List.mem_map.1 member with ⟨_, -, rfl⟩
    rfl
  · exact absurd rfl stays
  · cases member
  · exact all first member

theorem Mirrored.covered {table : Table} {firsts : List Key}
    (mirrored : table.Mirrored firsts) (all : ∀ first ∈ firsts, first = 0) :
    table.Covered := by
  have zeros : firsts = table.secondary.map fun _ => 0 := by
    rw [List.map_const', mirrored.length_eq]
    exact List.eq_replicate_of_mem all
  rw [covered_iff, ← zeros]
  exact mirrored

/-- Every call but a closing one leaves all rows covered. -/
theorem Sound.covered_after {table : Table} (sound : table.Sound)
    (covered : table.Covered) {action : Action}
    (start : table.primary.nextKey < 2 ^ 64) (limit : KeysFit table action)
    (stays : StaysOpen table action) :
    (table.after action).Covered := by
  have mirrored := sound.mirrored_after (covered_iff.1 covered) start limit
  apply mirrored.covered
  apply firstsAfter_eq_zero _ stays
  intro first member
  rcases List.mem_map.1 member with ⟨_, -, rfl⟩
  rfl

/-- A sound table whose equality indexes cover all rows, by the right type. -/
structure Searchable (table : Table) : Prop where
  sound : table.Sound
  keysFit : table.primary.nextKey < 2 ^ 64
  typed : table.Typed
  covered : table.Covered

theorem Searchable.create (id : TableId) (schema : Schema) (config : Config) :
    (create id schema config).Searchable where
  sound := Sound.create id schema config
  keysFit := Nat.two_pow_pos 64
  typed := by
    intro index member
    cases member
  covered := by
    intro index member
    cases member

theorem Searchable.after {table : Table} (searchable : table.Searchable)
    {action : Action} (limit : KeysFit table action)
    (stays : StaysOpen table action) :
    (table.after action).Searchable where
  sound := searchable.sound.after action limit
  keysFit := limit
  typed := searchable.sound.typed_after searchable.typed limit
  covered :=
    searchable.sound.covered_after searchable.covered searchable.keysFit limit
      stays

theorem Searchable.run {table : Table} (searchable : table.Searchable)
    {actions : List Action} (limits : Obeys KeysFit table actions)
    (stays : Obeys StaysOpen table actions) :
    (table.run actions).Searchable :=
  (limits.and stays).preserve
    (fun searchable kept => searchable.after kept.1 kept.2) searchable

end Table

end VersionedColumns
