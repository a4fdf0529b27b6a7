import VersionedColumns.Proofs.Table.Lookup

/-!
# Calls that are refused

A call on a table fails for one of few reasons, each of which can be told from
the table and the arguments before anything is changed.  The main statement
says that these are the only reasons in any table that a run reaches, and that
a call that fails leaves the table as it was.

Changes reach several indexes one after the other, so a failure halfway would
leave them apart.  In a sound table there is none: rows are as wide as the
table, every index is on one of its columns, and a row that is found is stored.
-/

namespace VersionedColumns

/-- The first value that has no counterpart in the type of its column. -/
structure IsFirstMisfit (columns : List Column) (values : List Value)
    (position : Nat) (column : Column) (value : Value) : Prop where
  placed : columns[position]? = some column
  given : values[position]? = some value
  unconverted : ∀ converted, value.convertTo column.type ≠ .ok converted
  first : ∀ earlier < position, ∀ other ∈ columns[earlier]?,
    ∀ before ∈ values[earlier]?,
      ∃ converted, before.convertTo other.type = .ok converted

theorem IsFirstMisfit.cons {columns : List Column} {values : List Value}
    {position : Nat} {column : Column} {value : Value}
    (misfit : IsFirstMisfit columns values position column value)
    {head : Column} {first converted : Value}
    (converts : first.convertTo head.type = .ok converted) :
    IsFirstMisfit (head :: columns) (first :: values) (position + 1) column
      value where
  placed := misfit.placed
  given := misfit.given
  unconverted := misfit.unconverted
  first := by
    intro earlier before other named held given
    cases earlier with
    | zero =>
        cases named
        cases given
        exact ⟨converted, converts⟩
    | succ earlier =>
        exact
          misfit.first earlier (Nat.lt_of_succ_lt_succ before) other named held
            given

/-- The first misfit comes later where the first value converts. -/
theorem IsFirstMisfit.tail {columns : List Column} {values : List Value}
    {position : Nat} {column head : Column} {value first : Value}
    (misfit : IsFirstMisfit (head :: columns) (first :: values) (position + 1)
      column value) :
    (∃ converted, first.convertTo head.type = .ok converted) ∧
      IsFirstMisfit columns values position column value where
  left := misfit.first 0 (Nat.succ_pos position) head rfl first rfl
  right :=
    { placed := misfit.placed
      given := misfit.given
      unconverted := misfit.unconverted
      first := fun earlier before =>
        misfit.first (earlier + 1) (Nat.succ_lt_succ before) }

namespace Table

/-- A conversion of values fails at the first misfit. -/
theorem convert_of_isFirstMisfit {columns : List Column} {values : List Value}
    {position : Nat} {column : Column} {value : Value}
    (misfit : IsFirstMisfit columns values position column value) :
    convert columns values = .error (.conversion value column.type) := by
  induction columns generalizing values position with
  | nil =>
      have placed := misfit.placed
      rw [List.getElem?_nil] at placed
      cases placed
  | cons head columns induction =>
      cases values with
      | nil =>
          have given := misfit.given
          rw [List.getElem?_nil] at given
          cases given
      | cons first values =>
          cases position with
          | zero =>
              cases misfit.placed
              cases misfit.given
              rw [convert]
              cases converts : value.convertTo column.type with
              | error error =>
                  cases Value.eq_conversion_of_convertTo converts
                  rfl
              | ok converted =>
                  exact absurd converts (misfit.unconverted converted)
          | succ position =>
              rcases misfit.tail with ⟨⟨converted, converts⟩, later⟩
              rw [convert, converts, induction later]
              rfl

/-- A conversion of values that fails does so at a first misfit. -/
theorem exists_isFirstMisfit_of_convert {columns : List Column}
    {values : List Value} {error : Error}
    (fails : convert columns values = .error error) :
    ∃ position column value,
      IsFirstMisfit columns values position column value ∧
        error = .conversion value column.type := by
  induction columns generalizing values with
  | nil => cases fails
  | cons head columns induction =>
      cases values with
      | nil => cases fails
      | cons first values =>
          rw [convert] at fails
          cases converts : first.convertTo head.type with
          | error cause =>
              rw [converts] at fails
              cases fails
              refine
                ⟨0, head, first, ⟨rfl, rfl, ?_, ?_⟩,
                  Value.eq_conversion_of_convertTo converts⟩
              · intro converted succeeds
                rw [converts] at succeeds
                cases succeeds
              · intro earlier before
                exact absurd before (Nat.not_lt_zero earlier)
          | ok converted =>
              cases others : convert columns values with
              | error cause =>
                  rw [converts, others] at fails
                  cases fails
                  rcases induction others with
                    ⟨position, column, value, misfit, same⟩
                  exact
                    ⟨position + 1, column, value, misfit.cons converts, same⟩
              | ok rest =>
                  rw [converts, others] at fails
                  cases fails

/-! ## The reasons to refuse a call -/

/-- Some index of the table has the name. -/
def NamesIndex (table : Table) (name : String) : Prop :=
  ∃ index ∈ table.indexes, index.name = name

/-- For what a call is refused, and with which error. -/
inductive Refuses (table : Table) : Action → Error → Prop
  /-- There are more or fewer values than columns. -/
  | miscounted {session : Session} {values : List Value}
      (differs : values.length ≠ table.columns.length) :
      Refuses table (.insert session values)
        (.columnCountMismatch table.columns.length values.length)
  /-- The first value that does not convert is told. -/
  | unconverted {session : Session} {values : List Value} {position : Nat}
      {column : Column} {value : Value}
      (fitting : values.length = table.columns.length)
      (misfit : IsFirstMisfit table.columns values position column value) :
      Refuses table (.insert session values) (.conversion value column.type)
  /-- The key was never handed out, or it is removed. -/
  | unstored {session : Session} {key : Key}
      (gone : table.primary.nextKey ≤ key ∨ key ∈ table.primary.grid.removed) :
      Refuses table (.remove session key)
        (.nothingToRemove key table.primary.nextKey)
  /-- A name that is taken is told before an unknown column. -/
  | taken {name column : String} (taken : table.NamesIndex name) :
      Refuses table (.addIndex name column) (.duplicateIndex name)
  | unknownColumn {name column : String} (free : ¬table.NamesIndex name)
      (unnamed : ∀ other ∈ table.columns,
        Text.sameLetters other.name column = false) :
      Refuses table (.addIndex name column) (.columnNotFound column)
  | primaryDropped :
      Refuses table (.dropIndex table.primary.name)
        (.dropOfPrimary table.primary.name)
  | unknownDropped {name : String} (unknown : ¬table.NamesIndex name) :
      Refuses table (.dropIndex name) (.indexNotFound name)
  | primaryRenamed {newName : String} :
      Refuses table (.renameIndex table.primary.name newName) .notForPrimary
  /-- A new name that is taken is told before an unknown old one. -/
  | newNameTaken {name newName : String} (other : name ≠ table.primary.name)
      (taken : table.NamesIndex newName) :
      Refuses table (.renameIndex name newName) (.duplicateIndex newName)
  | unknownRenamed {name newName : String} (unknown : ¬table.NamesIndex name)
      (free : ¬table.NamesIndex newName) :
      Refuses table (.renameIndex name newName) (.indexNotFound name)

/-! ## Names of indexes -/

theorem namesIndex_iff {table : Table} {name : String} :
    table.NamesIndex name ↔
      name = table.primary.name ∨
        ∃ index ∈ table.secondary, index.name = name := by
  simp [NamesIndex, indexes, Index.name, eq_comm]

theorem equalityIndex?_isSome_iff {table : Table} {name : String} :
    (table.equalityIndex? name).isSome = true ↔
      ∃ index ∈ table.secondary, index.name = name := by
  simp [equalityIndex?]

theorem hasIndex_iff {table : Table} {name : String} :
    table.hasIndex name = true ↔ table.NamesIndex name := by
  rw [hasIndex, Bool.or_eq_true, beq_iff_eq, equalityIndex?_isSome_iff,
    namesIndex_iff]

theorem equalityIndex?_of_unknown {table : Table} {name : String}
    (unknown : ¬table.NamesIndex name) :
    table.equalityIndex? name = none := by
  rw [← Option.not_isSome_iff_eq_none, equalityIndex?_isSome_iff]
  exact fun found => unknown (namesIndex_iff.2 (Or.inr found))

/-- A name in use that is not the primary one is that of an equality index. -/
theorem exists_equalityIndex?_of_known {table : Table} {name : String}
    (known : table.NamesIndex name) (other : name ≠ table.primary.name) :
    ∃ index, table.equalityIndex? name = some index := by
  rw [← Option.isSome_iff_exists, equalityIndex?_isSome_iff]
  exact (namesIndex_iff.1 known).resolve_left other

theorem ne_primary_of_unknown {table : Table} {name : String}
    (unknown : ¬table.NamesIndex name) :
    name ≠ table.primary.name :=
  fun same => unknown (namesIndex_iff.2 (Or.inl same))

/-! ## Calls and their reasons -/

/-- Only a key that was never handed out or is removed has no live row. -/
theorem Sound.liveRow?_eq_none_iff {table : Table} (sound : table.Sound)
    (limit : table.primary.nextKey < 2 ^ 64) {key : Key} :
    table.liveRow? key = none ↔
      table.primary.nextKey ≤ key ∨ key ∈ table.primary.grid.removed := by
  rw [sound.liveRow?_eq limit, Option.map_eq_none_iff,
    sound.coherent.stored?_standing]
  have dead : table.primary.grid.isLive key = false ↔
      table.primary.nextKey ≤ key ∨ key ∈ table.primary.grid.removed := by
    rw [← Bool.not_eq_true, Grid.isLive_iff, not_and_or, Nat.not_lt, not_not]
    rfl
  rw [← dead]
  cases table.primary.grid.isLive key <;> simp

/-- An index with a free name is added, filled with all live rows. -/
theorem Sound.addIndex_eq {table : Table} (sound : table.Sound)
    (limit : table.primary.nextKey < 2 ^ 64) {name column : String}
    {position : Nat} {definition : Column} (free : ¬table.NamesIndex name)
    (first : IsFirstNamed table.columns column position definition) :
    table.addIndex name column =
      (.ok (), { table with
        secondary := table.secondary ++
          [table.primary.liveRows.foldl (fun index row => (index.insert row).2)
            (EqualityIndex.empty table.id name position definition.type)] }) := by
  let index := EqualityIndex.empty table.id name position definition.type
  have reaches : index.column < table.primary.grid.columns.length := by
    rw [sound.width]
    exact (List.getElem?_eq_some_iff.1 first.placed).1
  have filled := sound.fill_all limit reaches
  rw [addIndex, if_neg (mt hasIndex_iff.1 free),
    columnNamed_of_isFirstNamed first]
  simp only [first.placed, index, filled]

/-- A call that has a reason to be refused fails with it. -/
theorem Sound.fails_of_refuses {table : Table} (sound : table.Sound)
    (start : table.primary.nextKey < 2 ^ 64) {action : Action} {error : Error}
    (refuses : table.Refuses action error) :
    (table.perform action).1 = .error error := by
  cases refuses with
  | miscounted differs =>
      rw [perform, insert_of_length_ne _ differs]
      rfl
  | unconverted fitting misfit =>
      rw [perform, insert, if_pos fitting, convert_of_isFirstMisfit misfit]
      rfl
  | unstored gone =>
      rw [perform, remove, (sound.liveRow?_eq_none_iff start).2 gone]
      rfl
  | taken taken =>
      rw [perform, addIndex, if_pos (hasIndex_iff.2 taken)]
      rfl
  | unknownColumn free unnamed =>
      rw [perform, addIndex, if_neg (mt hasIndex_iff.1 free),
        columnNamed_of_unnamed unnamed]
      rfl
  | primaryDropped =>
      rw [perform, dropIndex_primary_name]
      rfl
  | unknownDropped unknown =>
      rw [perform, dropIndex, if_neg (ne_primary_of_unknown unknown),
        equalityIndex?_of_unknown unknown]
      rfl
  | primaryRenamed =>
      rw [perform, renameIndex, if_pos rfl]
      rfl
  | newNameTaken other taken =>
      rw [perform, renameIndex, if_neg other, if_pos (hasIndex_iff.2 taken)]
      rfl
  | unknownRenamed unknown free =>
      rw [perform, renameIndex, if_neg (ne_primary_of_unknown unknown),
        if_neg (mt hasIndex_iff.1 free), equalityIndex?_of_unknown unknown]
      rfl

theorem Sound.refuses_of_insert {table : Table} (sound : table.Sound)
    {session : Session} {values : List Value} {error : Error}
    (fails : (table.perform (.insert session values)).1 = .error error) :
    table.Refuses (.insert session values) error := by
  by_cases fitting : values.length = table.columns.length
  · cases converts : convert table.columns values with
    | error cause =>
        rw [perform, insert, if_pos fitting, converts] at fails
        cases fails
        rcases exists_isFirstMisfit_of_convert converts with
          ⟨position, column, value, misfit, rfl⟩
        exact Refuses.unconverted fitting misfit
    | ok converted =>
        rw [perform, sound.insert_eq fitting converts] at fails
        cases fails
  · rw [perform, insert_of_length_ne session fitting] at fails
    cases fails
    exact Refuses.miscounted fitting

theorem Sound.refuses_of_remove {table : Table} (sound : table.Sound)
    (start : table.primary.nextKey < 2 ^ 64) {session : Session} {key : Key}
    {error : Error}
    (fails : (table.perform (.remove session key)).1 = .error error) :
    table.Refuses (.remove session key) error := by
  rw [perform] at fails
  rcases sound.remove_cases session key with
    ⟨none, refused⟩ | ⟨row, -, removed⟩
  · rw [refused] at fails
    cases fails
    exact Refuses.unstored ((sound.liveRow?_eq_none_iff start).1 none)
  · rw [removed] at fails
    cases fails

theorem Sound.refuses_of_addIndex {table : Table} (sound : table.Sound)
    (start : table.primary.nextKey < 2 ^ 64) {name column : String}
    {error : Error}
    (fails : (table.perform (.addIndex name column)).1 = .error error) :
    table.Refuses (.addIndex name column) error := by
  rw [perform] at fails
  by_cases taken : table.NamesIndex name
  · rw [addIndex, if_pos (hasIndex_iff.2 taken)] at fails
    cases fails
    exact Refuses.taken taken
  · rcases unnamed_or_isFirstNamed table.columns column with
      unnamed | ⟨position, definition, first⟩
    · rw [addIndex, if_neg (mt hasIndex_iff.1 taken),
        columnNamed_of_unnamed unnamed] at fails
      cases fails
      exact Refuses.unknownColumn taken unnamed
    · rw [sound.addIndex_eq start taken first] at fails
      cases fails

theorem refuses_of_dropIndex {table : Table} {name : String} {error : Error}
    (fails : (table.perform (.dropIndex name)).1 = .error error) :
    table.Refuses (.dropIndex name) error := by
  rw [perform] at fails
  by_cases primary : name = table.primary.name
  · subst primary
    rw [dropIndex_primary_name] at fails
    cases fails
    exact Refuses.primaryDropped
  · rw [dropIndex, if_neg primary] at fails
    by_cases known : table.NamesIndex name
    · rcases exists_equalityIndex?_of_known known primary with ⟨index, found⟩
      rw [found] at fails
      cases fails
    · rw [equalityIndex?_of_unknown known] at fails
      cases fails
      exact Refuses.unknownDropped known

theorem refuses_of_renameIndex {table : Table} {name newName : String}
    {error : Error}
    (fails : (table.perform (.renameIndex name newName)).1 = .error error) :
    table.Refuses (.renameIndex name newName) error := by
  rw [perform] at fails
  by_cases primary : name = table.primary.name
  · subst primary
    rw [renameIndex, if_pos rfl] at fails
    cases fails
    exact Refuses.primaryRenamed
  · rw [renameIndex, if_neg primary] at fails
    by_cases taken : table.NamesIndex newName
    · rw [if_pos (hasIndex_iff.2 taken)] at fails
      cases fails
      exact Refuses.newNameTaken primary taken
    · rw [if_neg (mt hasIndex_iff.1 taken)] at fails
      by_cases known : table.NamesIndex name
      · rcases exists_equalityIndex?_of_known known primary with ⟨index, found⟩
        rw [found] at fails
        cases fails
      · rw [equalityIndex?_of_unknown known] at fails
        cases fails
        exact Refuses.unknownRenamed known taken

/-- A call that fails has a reason to be refused. -/
theorem Sound.refuses_of_fails {table : Table} (sound : table.Sound)
    (start : table.primary.nextKey < 2 ^ 64) {action : Action}
    (limit : KeysFit table action) {error : Error}
    (fails : (table.perform action).1 = .error error) :
    table.Refuses action error := by
  cases action with
  | insert session values => exact sound.refuses_of_insert fails
  | remove session key => exact sound.refuses_of_remove start fails
  | addIndex name column => exact sound.refuses_of_addIndex start fails
  | dropIndex name => exact refuses_of_dropIndex fails
  | renameIndex name newName => exact refuses_of_renameIndex fails
  | rollback session =>
      rw [perform, sound.rollback_eq session limit] at fails
      cases fails
  | commit session | truncate | close | discard => cases fails

/-- A call that fails changes nothing. -/
theorem Sound.after_of_fails {table : Table} (sound : table.Sound)
    {action : Action} (limit : KeysFit table action) {error : Error}
    (fails : (table.perform action).1 = .error error) :
    table.after action = table := by
  have effect := sound.perform_effect action limit
  rw [fails] at effect
  generalize table.after action = later at effect ⊢
  cases effect
  rfl

/--
In every table that a run from a new one reaches, whether or not changes wait
for a commit, a call fails with an error exactly if there is that reason to
refuse it, and a call that fails leaves the table as it was.  There is never a
reason to refuse a rollback, which tells the number of changes taken back.
-/
theorem fails_iff_refuses_of_run (id : TableId) (schema : Schema)
    (config : Config) (actions : List Action)
    (limits : Obeys KeysFit (create id schema config) actions)
    (table : Table) (reached : (create id schema config).run actions = table)
    (action : Action) (limit : KeysFit table action) :
    (∀ error, (table.perform action).1 = .error error ↔
        table.Refuses action error) ∧
      (∀ error, (table.perform action).1 = .error error →
        table.after action = table) ∧
      ∀ session, action = .rollback session →
        (table.perform action).1 =
          .ok (.count (table.pendingOf session).length) := by
  have sound := (Sound.create id schema config).run limits
  have start := limits.nextKey_lt (Nat.two_pow_pos 64)
  rw [reached] at sound start
  refine ⟨?_, ?_, ?_⟩
  · intro error
    exact ⟨sound.refuses_of_fails start limit, sound.fails_of_refuses start⟩
  · intro error
    exact sound.after_of_fails limit
  · rintro session rfl
    rw [perform, sound.rollback_eq session limit]
    rfl

/-- A text that is no number is refused, and nothing changes. -/
theorem insert_refused_after_sample_run :
    (((create 1 sampleSchema sampleConfig).run sampleActions).perform
        (.insert 2 [.varchar "high"])).1 =
        .error (.conversion (.varchar "high") .int) ∧
      ((create 1 sampleSchema sampleConfig).run sampleActions).after
          (.insert 2 [.varchar "high"]) =
        (create 1 sampleSchema sampleConfig).run sampleActions := by
  have failing :=
    fails_iff_refuses_of_run 1 sampleSchema sampleConfig sampleActions
      (by decide +kernel) _ rfl (.insert 2 [.varchar "high"])
      (by decide +kernel)
  have refused : (((create 1 sampleSchema sampleConfig).run
      sampleActions).perform (.insert 2 [.varchar "high"])).1 =
        .error (.conversion (.varchar "high") .int) := by
    decide +kernel
  exact ⟨refused, failing.2.1 _ refused⟩

end Table

end VersionedColumns
