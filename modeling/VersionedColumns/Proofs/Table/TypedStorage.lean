import VersionedColumns.Proofs.Table.Transaction

/-!
# Typed storage

What a table stores fits the types of its columns, wherever it is kept: in the
cells, among the uncommitted changes or as the value of a group.  Values move
between these places, when a row is removed, rolled back or put into an index
that is added later, but none of them enters a table without a conversion.

So a conversion is never made twice with a different result, and a row that was
inserted is read with its converted values until it is removed.  All of this
holds however many keys have been handed out.
-/

namespace VersionedColumns

/-! ## Values and their columns -/

theorem Fits.value_fits {columns : List Column} {values : List Value}
    (fits : Fits columns values) {position : Nat} {column : Column}
    {value : Value} (inside : columns[position]? = some column)
    (held : values[position]? = some value) :
    value.fits column.type = true := by
  induction fits generalizing position with
  | nil => cases inside
  | cons fitting _ induction =>
      cases position with
      | zero =>
          cases inside
          cases held
          exact fitting
      | succ position => exact induction inside held

/-- Every cell is the value of its column, converted to the type of that. -/
structure ConvertsTo (columns : List Column) (values cells : List Value) :
    Prop where
  length_eq : values.length = columns.length
  converted :
    List.zipWith (fun column value => value.convertTo column.type)
        columns values =
      cells.map Except.ok

theorem convertsTo_of_convert {columns : List Column}
    {values cells : List Value} (fitting : values.length = columns.length)
    (converts : Table.convert columns values = .ok cells) :
    ConvertsTo columns values cells := by
  refine ⟨fitting, ?_⟩
  induction columns generalizing values cells with
  | nil =>
      cases List.length_eq_zero_iff.1 fitting
      cases converts
      rfl
  | cons column columns induction =>
      rcases List.exists_cons_of_length_eq_add_one fitting with
        ⟨value, values, rfl⟩
      rcases convert_cons_eq_ok converts with ⟨first, rest, head, tail, rfl⟩
      rw [List.zipWith_cons_cons, head, induction (Nat.succ.inj fitting) tail]
      rfl

namespace EqualityIndex

/-- An index has the type of its column, and every value it groups fits. -/
structure WellTyped (columns : List Column) (index : EqualityIndex) : Prop where
  type_eq : (columns[index.column]?).map Column.type = some index.columnType
  groups_fit : ∀ value ∈ index.groups.map Prod.fst,
    value.fits index.columnType = true

variable {columns : List Column} {index : EqualityIndex}

theorem WellTyped.empty {position : Nat} {definition : Column}
    (inside : columns[position]? = some definition) (table : TableId)
    (name : String) :
    (empty table name position definition.type).WellTyped columns where
  type_eq := by
    rw [EqualityIndex.empty, inside]
    rfl
  groups_fit := by
    intro value member
    cases member

theorem WellTyped.clear (typed : index.WellTyped columns) :
    index.clear.WellTyped columns where
  type_eq := typed.type_eq
  groups_fit := by
    intro value member
    cases member

/-- A row that fits its columns has a value that fits the index. -/
theorem WellTyped.insert (typed : index.WellTyped columns) {row : Row}
    (fits : Fits columns row.values) :
    (index.insert row).2.WellTyped columns := by
  cases held : row.value? index.column with
  | none =>
      rw [EqualityIndex.insert, valueOf, held]
      exact typed
  | some value =>
      rw [insert_eq_of_value? held]
      refine ⟨typed.type_eq, ?_⟩
      intro other member
      rcases Group.mem_values_insert.1 member with rfl | old
      · rcases Option.map_eq_some_iff.1 typed.type_eq with
          ⟨column, inside, type⟩
        have fitting := fits.value_fits inside held
        rw [type] at fitting
        exact fitting
      · exact typed.groups_fit other old

theorem WellTyped.remove (typed : index.WellTyped columns) (row : Row) :
    (index.remove row).2.WellTyped columns := by
  cases held : row.value? index.column with
  | none =>
      rw [EqualityIndex.remove, valueOf, held]
      exact typed
  | some value =>
      rw [remove_eq_of_value? held]
      split
      · exact
          ⟨typed.type_eq, fun other member =>
            typed.groups_fit other (Group.mem_values_erase member)⟩
      · exact typed

end EqualityIndex

namespace Table

/-! ## Every call keeps a table typed -/

/-- A sound table whose equality indexes have the types of their columns. -/
structure WellTyped (table : Table) : Prop extends Sound table where
  indexes_typed : ∀ index ∈ table.secondary, index.WellTyped table.columns

theorem WellTyped.create (id : TableId) (schema : Schema) (config : Config) :
    (create id schema config).WellTyped where
  toSound := Sound.create id schema config
  indexes_typed := by
    intro index member
    cases member

variable {table : Table}

theorem WellTyped.withRow (typed : table.WellTyped) {values : List Value}
    (fits : Fits table.columns values) (session : Session) :
    (table.withRow session values).WellTyped where
  toSound := typed.toSound.withRow fits session
  indexes_typed := by
    intro index member
    rcases List.mem_map.1 member with ⟨old, oldMember, rfl⟩
    exact (typed.indexes_typed old oldMember).insert fits

theorem WellTyped.withoutRow (typed : table.WellTyped) {row : Row}
    (found : table.liveRow? row.key = some row) (session : Session) :
    (table.withoutRow session row).WellTyped where
  toSound := typed.toSound.withoutRow found session
  indexes_typed := by
    intro index member
    rcases List.mem_map.1 member with ⟨old, oldMember, rfl⟩
    exact (typed.indexes_typed old oldMember).remove row

theorem WellTyped.commitRow (typed : table.WellTyped) (kind : ChangeKind)
    (row : Row) :
    (table.commitRow kind row).WellTyped :=
  ⟨typed.toSound.commitRow kind row, typed.indexes_typed⟩

theorem WellTyped.insert (typed : table.WellTyped) (session : Session)
    (values : List Value) :
    (table.insert session values).2.WellTyped := by
  rcases typed.insert_cases session values with
    ⟨_, refused⟩ | ⟨_, fits, stored⟩
  · rw [refused]
    exact typed
  · rw [stored]
    exact typed.withRow fits session

theorem WellTyped.remove (typed : table.WellTyped) (session : Session)
    (key : Key) :
    (table.remove session key).2.WellTyped := by
  rcases typed.remove_cases session key with
    ⟨_, refused⟩ | ⟨row, found, removed⟩
  · rw [refused]
    exact typed
  · have same := (liveRow?_eq_some found).2.1
    rw [removed]
    exact typed.withoutRow (by rw [same]; exact found) session

/-- The rows that are put into a new index are live and fit their columns. -/
theorem Sound.fits_of_nextRow? (sound : table.Sound) {behind : Option Row}
    {row : Row} (next : table.primary.nextRow? behind = some row) :
    Fits table.columns row.values := by
  rw [PrimaryIndex.nextRow?_eq_head?] at next
  rcases List.mem_filterMap.1 (List.mem_of_head? next) with ⟨key, -, filled⟩
  rcases Option.filter_eq_some_iff.1 filled with ⟨read, holds⟩
  have notTombstone : (!row.isTombstone) = true :=
    (Bool.and_eq_true_iff.1 holds).2
  have found : table.liveRow? key = some row := by
    rw [liveRow?, read]
    exact Option.filter_some_pos notTombstone
  rcases liveRow?_eq_some found with ⟨live, -, values, -⟩
  rw [values]
  exact sound.cells_fit live

theorem Sound.fill_wellTyped (sound : table.Sound) {index : EqualityIndex}
    (typed : index.WellTyped table.columns) (behind : Option Row) (keys : Nat) :
    (fill table.primary behind keys index).2.WellTyped table.columns := by
  induction keys generalizing behind index with
  | zero => exact typed
  | succ keys induction =>
      rw [fill]
      split
      · exact typed
      · rename_i row next
        have more := typed.insert (sound.fits_of_nextRow? next)
        split
        · rename_i refused
          rw [refused] at more
          exact more
        · rename_i accepted
          rw [accepted] at more
          exact induction more (some row)

/-- Other equality indexes of the right types keep a table typed. -/
theorem WellTyped.reindexed (typed : table.WellTyped)
    {secondary : List EqualityIndex}
    (indexes : ∀ index ∈ secondary, index.WellTyped table.columns) :
    { table with secondary := secondary }.WellTyped where
  toSound := by
    apply typed.toSound.reindexed
    intro index member
    rcases Option.map_eq_some_iff.1 (indexes index member).type_eq with
      ⟨column, inside, -⟩
    exact (List.getElem?_eq_some_iff.1 inside).1
  indexes_typed := indexes

/-- A table that has forgotten its rows is typed like one that has not. -/
theorem WellTyped.clear (typed : table.WellTyped) :
    { table with primary := table.primary.clear }.WellTyped where
  toSound := sound_clear typed.width typed.indexed
  indexes_typed := typed.indexes_typed

theorem WellTyped.indexes_clear (typed : table.WellTyped) :
    ∀ index ∈ table.secondary.map EqualityIndex.clear,
      index.WellTyped table.columns := by
  intro index member
  rcases List.mem_map.1 member with ⟨old, oldMember, rfl⟩
  exact (typed.indexes_typed old oldMember).clear

/-- Every call leaves a typed table typed, whether it succeeds or fails. -/
theorem WellTyped.after (typed : table.WellTyped) (action : Action) :
    (table.after action).WellTyped := by
  cases action with
  | insert session values => exact typed.insert session values
  | remove session key => exact typed.remove session key
  | commit session =>
      have sound := typed.toSound.commit session
      change (table.commit session).2.WellTyped
      rw [commit_snd] at sound ⊢
      exact ⟨sound, typed.indexes_typed⟩
  | rollback session =>
      -- what is stored again was pending, and is converted like any other row
      exact
        undoEach_preserve (motive := WellTyped)
          (fun session values typed => typed.insert session values)
          (fun session key typed => typed.remove session key)
          (fun kind row typed => typed.commitRow kind row) session
          (table.pendingOf session) typed
  | addIndex name column =>
      change (table.addIndex name column).2.WellTyped
      rcases table.addIndex_cases name column with
        ⟨_, refused⟩ | ⟨position, definition, filled, inside, accepted, added⟩
      · rw [refused]
        exact typed
      · rw [added]
        apply typed.reindexed
        intro index member
        rcases List.mem_append.1 member with old | new
        · exact typed.indexes_typed index old
        · have unfilled :=
            EqualityIndex.WellTyped.empty inside table.id name
          have all :=
            typed.toSound.fill_wellTyped unfilled none table.primary.nextKey
          rw [accepted] at all
          rw [List.mem_singleton.1 new]
          exact all
  | dropIndex name =>
      change (table.dropIndex name).2.WellTyped
      rcases table.dropIndex_cases name with ⟨_, refused⟩ | ⟨-, dropped⟩
      · rw [refused]
        exact typed
      · rw [dropped]
        exact
          typed.reindexed fun index member =>
            typed.indexes_typed index (List.mem_of_mem_eraseP member)
  | renameIndex name newName =>
      change (table.renameIndex name newName).2.WellTyped
      rcases table.renameIndex_cases name newName with ⟨_, refused⟩ | renamed
      · rw [refused]
        exact typed
      · rw [renamed]
        apply typed.reindexed
        intro index member
        rcases mem_renameFirst member with same | ⟨old, oldMember, rfl⟩
        · exact typed.indexes_typed index same
        · have kept := typed.indexes_typed old oldMember
          exact ⟨kept.type_eq, kept.groups_fit⟩
  | truncate => exact typed.clear.reindexed typed.indexes_clear
  | close => exact typed.reindexed typed.indexes_clear
  | discard =>
      apply typed.clear.reindexed
      intro index member
      cases member

theorem WellTyped.run (typed : table.WellTyped) (actions : List Action) :
    (table.run actions).WellTyped := by
  induction actions generalizing table with
  | nil => exact typed
  | cons action rest induction => exact induction (typed.after action)

theorem run_columns (table : Table) (actions : List Action) :
    (table.run actions).columns = table.columns :=
  congrArg Prod.fst (table.run_shape actions)

/-! ## What a row keeps until it is removed -/

theorem addIndex_primary (table : Table) (name column : String) :
    (table.addIndex name column).2.primary = table.primary := by
  rcases table.addIndex_cases name column with
    ⟨_, refused⟩ | ⟨_, _, _, -, -, added⟩
  · rw [refused]
  · rw [added]

theorem dropIndex_primary (table : Table) (name : String) :
    (table.dropIndex name).2.primary = table.primary := by
  rcases table.dropIndex_cases name with ⟨_, refused⟩ | ⟨-, dropped⟩
  · rw [refused]
  · rw [dropped]

theorem renameIndex_primary (table : Table) (name newName : String) :
    (table.renameIndex name newName).2.primary = table.primary := by
  rcases table.renameIndex_cases name newName with ⟨_, refused⟩ | renamed
  · rw [refused]
  · rw [renamed]

/-- The call does not remove the row at a key, alone or among others. -/
def SparesKey (key : Key) (table : Table) : Action → Prop
  | .remove session other =>
    other = key → (table.remove session other).1.isOk = false
  | .rollback session =>
    ∀ change ∈ table.pendingOf session,
      change.changeKind = .insert → change.key ≠ key
  | .truncate | .discard => False
  | .insert .. | .commit _ | .addIndex .. | .dropIndex .. | .renameIndex ..
  | .close => True

instance SparesKey.decidable (key : Key) (table : Table) :
    (action : Action) → Decidable (SparesKey key table action)
  | .remove session other =>
    inferInstanceAs (Decidable (other = key →
      (table.remove session other).1.isOk = false))
  | .rollback session =>
    inferInstanceAs (Decidable (∀ change ∈ table.pendingOf session,
      change.changeKind = .insert → change.key ≠ key))
  | .truncate | .discard => isFalse fun spares => spares
  | .insert .. | .commit _ | .addIndex .. | .dropIndex .. | .renameIndex ..
  | .close => isTrue trivial

/-- A typed table holds given cells under a live key. -/
structure Stores (table : Table) (key : Key) (cells : List Value) : Prop where
  typed : table.WellTyped
  live : table.primary.grid.isLive key = true
  cells_eq : table.primary.grid.cells key = cells

variable {key : Key} {cells : List Value}

theorem Stores.insert (stores : table.Stores key cells) (session : Session)
    (values : List Value) :
    (table.insert session values).2.Stores key cells := by
  have typed := stores.typed
  rcases typed.insert_cases session values with
    ⟨_, refused⟩ | ⟨converted, fits, stored⟩
  · rw [refused]
    exact stores
  · have inStep := typed.coherent.inStep
    have fitting : converted.length = table.primary.grid.columns.length :=
      fits.length_eq.trans typed.width.symm
    have differs : key ≠ table.primary.grid.nextKey :=
      Nat.ne_of_lt (Grid.lt_nextKey_of_isLive stores.live)
    rw [stored]
    refine ⟨typed.withRow fits session, ?_, ?_⟩
    · change (table.primary.grid.appended converted).isLive key = true
      rw [inStep.isLive_appended, stores.live, Bool.true_or]
    · change (table.primary.grid.appended converted).cells key = cells
      rw [inStep.cells_appended fitting, if_neg differs]
      exact stores.cells_eq

/-- A removal that fails or has another key leaves the cells of a key alone. -/
theorem Stores.remove (stores : table.Stores key cells) {session : Session}
    {other : Key}
    (spares : other = key → (table.remove session other).1.isOk = false) :
    (table.remove session other).2.Stores key cells := by
  have typed := stores.typed
  rcases typed.remove_cases session other with
    ⟨_, refused⟩ | ⟨row, found, removed⟩
  · rw [refused]
    exact stores
  · have kept := typed.remove session other
    rw [removed] at spares kept ⊢
    have same := (liveRow?_eq_some found).2.1
    subst same
    have differs : key ≠ row.key := by
      rintro rfl
      cases spares rfl
    refine ⟨kept, ?_, ?_⟩
    · change (table.primary.grid.without row.key).isLive key = true
      rw [Grid.isLive_without, stores.live, bne_iff_ne.2 differs]
      rfl
    · change (table.primary.grid.without row.key).cells key = cells
      rw [Grid.cells_without_of_ne _ differs]
      exact stores.cells_eq

/-- A call that leaves the grid alone leaves the cells of a key alone. -/
theorem Stores.of_grid (stores : table.Stores key cells) {action : Action}
    (same : (table.after action).primary.grid = table.primary.grid) :
    (table.after action).Stores key cells := by
  refine ⟨stores.typed.after action, ?_, ?_⟩
  · rw [same]
    exact stores.live
  · rw [same]
    exact stores.cells_eq

/-- A call that spares a key leaves its cells as they are. -/
theorem Stores.after (stores : table.Stores key cells) {action : Action}
    (spares : SparesKey key table action) :
    (table.after action).Stores key cells := by
  cases action with
  | insert session values => exact stores.insert session values
  | remove session other => exact stores.remove spares
  | rollback session =>
      -- it may fail halfway, but removes no key other than those of its inserts
      exact
        undoEach_preserve_of (motive := fun table => table.Stores key cells)
          (fun other => other ≠ key)
          (fun session values stores => stores.insert session values)
          (fun _ _ differs stores =>
            stores.remove fun same => absurd same differs)
          (fun kind row stores =>
            ⟨stores.typed.commitRow kind row, stores.live, stores.cells_eq⟩)
          session (table.pendingOf session) spares stores
  | commit session =>
      apply stores.of_grid
      change (table.commit session).2.primary.grid = table.primary.grid
      rw [commit_snd]
      rfl
  | addIndex name column =>
      have same := table.addIndex_primary name column
      exact stores.of_grid (congrArg PrimaryIndex.grid same)
  | dropIndex name =>
      have same := table.dropIndex_primary name
      exact stores.of_grid (congrArg PrimaryIndex.grid same)
  | renameIndex name newName =>
      have same := table.renameIndex_primary name newName
      exact stores.of_grid (congrArg PrimaryIndex.grid same)
  | close => exact stores.of_grid rfl
  | truncate | discard => cases spares

theorem Stores.run (stores : table.Stores key cells) {actions : List Action}
    (spares : Obeys (SparesKey key) table actions) :
    (table.run actions).Stores key cells :=
  spares.preserve (motive := fun table => table.Stores key cells)
    (fun stores spares => stores.after spares) stores

/-- A live key is read as the row of its cells. -/
theorem row_of_isLive (live : table.primary.grid.isLive key = true) :
    ∃ row, table.row key = .ok row ∧ row.key = key ∧
      row.values = table.primary.grid.cells key := by
  refine ⟨table.primary.withOwner key
    (Row.stored key (table.primary.grid.cells key)), ?_, ?_, ?_⟩
  · rw [row, PrimaryIndex.row?, Grid.row?_of_isLive live]
    rfl
  · exact PrimaryIndex.withOwner_key _ _ _
  · exact PrimaryIndex.withOwner_values _ _ _

/-- A row is live under its key as soon as it has been inserted. -/
theorem WellTyped.stores_of_insert (typed : table.WellTyped) {session : Session}
    {values : List Value}
    (inserted : (table.insert session values).1 = .ok key) :
    ∃ cells, ConvertsTo table.columns values cells ∧
      (table.insert session values).2.Stores key cells := by
  rcases typed.insert_converts session values with
    ⟨_, refused⟩ | ⟨fitting, cells, converts, stored⟩
  · rw [refused] at inserted
    cases inserted
  · have fits := fits_of_convert fitting converts
    have inStep := typed.coherent.inStep
    have width : cells.length = table.primary.grid.columns.length :=
      fits.length_eq.trans typed.width.symm
    rw [stored] at inserted ⊢
    cases inserted
    refine
      ⟨cells, convertsTo_of_convert fitting converts,
        typed.withRow fits session, ?_, ?_⟩
    · change (table.primary.grid.appended cells).isLive
        table.primary.grid.nextKey = true
      rw [inStep.isLive_appended, beq_self_eq_true, Bool.or_true]
    · change (table.primary.grid.appended cells).cells
        table.primary.grid.nextKey = cells
      rw [inStep.cells_appended width, if_pos rfl]

/-! ## Typed storage of every run -/

/-- Everything that a table keeps fits the given columns. -/
structure KeepsTypes (table : Table) (columns : List Column) : Prop where
  /-- Every cell of a live row has the type of its column or is null. -/
  cells_fit : ∀ key, table.primary.grid.isLive key = true →
    Fits columns (table.primary.grid.cells key)
  /-- What is read under a key is the tombstone or a row that fits. -/
  read_fits : ∀ key row, table.row key = .ok row →
    row = Row.tombstone ∨ Fits columns row.values
  /-- Every uncommitted change has one value for every column, which fits. -/
  changes_fit : ∀ change ∈ table.primary.pending.rows,
    Fits columns change.values
  /-- Every value that an index groups fits the column of the index. -/
  groups_fit : ∀ index ∈ table.secondary,
    ∃ column, columns[index.column]? = some column ∧
      ∀ group ∈ index.groups, group.1.fits column.type = true
  /-- To convert what is stored once more changes nothing. -/
  convert_cells : ∀ key, table.primary.grid.isLive key = true →
    convert columns (table.primary.grid.cells key) =
      .ok (table.primary.grid.cells key)
  /-- To convert what waits for a commit once more changes nothing. -/
  convert_change : ∀ change ∈ table.primary.pending.rows,
    convert columns change.values = .ok change.values

/-- A row that is read is the tombstone or has the cells of a live key. -/
theorem eq_tombstone_or_isLive_of_row {row : Row}
    (read : table.row key = .ok row) :
    row = Row.tombstone ∨
      table.primary.grid.isLive key = true ∧
        row.values = table.primary.grid.cells key := by
  cases live : table.primary.grid.isLive key with
  | true =>
      rcases row_of_isLive live with ⟨other, otherRead, -, values⟩
      rw [otherRead] at read
      cases read
      exact Or.inr ⟨rfl, values⟩
  | false =>
      left
      by_cases inside : key < table.primary.grid.nextKey
      · rw [Table.row, PrimaryIndex.row?,
          Grid.row?_eq_of_isLive_false inside live, Option.map_some,
          PrimaryIndex.withOwner_tombstone] at read
        cases read
        rfl
      · rw [row_of_le (Nat.le_of_not_lt inside)] at read
        cases read

theorem WellTyped.keepsTypes (typed : table.WellTyped) :
    table.KeepsTypes table.columns where
  cells_fit := fun _ live => typed.cells_fit live
  read_fits := by
    intro key row read
    rcases eq_tombstone_or_isLive_of_row read with gone | ⟨live, values⟩
    · exact Or.inl gone
    · right
      rw [values]
      exact typed.cells_fit live
  changes_fit := typed.changes_fit
  groups_fit := by
    intro index member
    have kept := typed.indexes_typed index member
    rcases Option.map_eq_some_iff.1 kept.type_eq with ⟨column, inside, type⟩
    refine ⟨column, inside, ?_⟩
    intro group groupMember
    rw [type]
    exact kept.groups_fit _ (List.mem_map_of_mem groupMember)
  convert_cells := fun _ live => convert_of_fits (typed.cells_fit live)
  convert_change := fun change member =>
    convert_of_fits (typed.changes_fit change member)

/--
In every table that a run from a new one reaches, all values fit their columns,
and a row that was inserted is read with its converted values as long as no
call removes it.
-/
theorem keepsTypes_of_run (id : TableId) (schema : Schema) (config : Config)
    (actions : List Action) :
    ((create id schema config).run actions).KeepsTypes schema.columns ∧
      ∀ earlier session values rest key,
        actions = earlier ++ .insert session values :: rest →
        (((create id schema config).run earlier).perform
          (.insert session values)).1 = .ok (.key key) →
        Obeys (SparesKey key)
          (((create id schema config).run earlier).after
            (.insert session values)) rest →
        ∃ row, ((create id schema config).run actions).row key = .ok row ∧
          row.key = key ∧ ConvertsTo schema.columns values row.values := by
  have start := WellTyped.create id schema config
  have columns (actions : List Action) :
      ((create id schema config).run actions).columns = schema.columns :=
    run_columns _ actions
  constructor
  · have kept := (start.run actions).keepsTypes
    rw [columns] at kept
    exact kept
  · rintro earlier session values rest key rfl answered spares
    have inserted :
        (((create id schema config).run earlier).insert session values).1 =
          .ok key := by
      change Except.map Reply.key
        (((create id schema config).run earlier).insert session values).1 =
          .ok (.key key) at answered
      cases outcome :
          (((create id schema config).run earlier).insert session values).1 with
      | error error =>
          rw [outcome] at answered
          cases answered
      | ok other =>
          rw [outcome] at answered
          cases answered
          rfl
    rcases (start.run earlier).stores_of_insert inserted with
      ⟨cells, converts, stores⟩
    have later := stores.run spares
    rcases row_of_isLive later.live with ⟨row, read, same, held⟩
    rw [columns] at converts
    rw [later.cells_eq] at held
    refine ⟨row, ?_, same, held ▸ converts⟩
    rw [run_append, run_cons]
    exact read

/-- A text that reads as a number is stored as that number. -/
theorem keepsTypes_of_sample_run :
    ((create 1 sampleSchema sampleConfig).run
        (sampleActions.take 5)).KeepsTypes sampleSchema.columns ∧
      ∃ row, ((create 1 sampleSchema sampleConfig).run
          (sampleActions.take 5)).row 1 = .ok row ∧ row.key = 1 ∧
        ConvertsTo sampleSchema.columns [.varchar "8"] row.values := by
  have kept :=
    keepsTypes_of_run 1 sampleSchema sampleConfig (sampleActions.take 5)
  refine ⟨kept.1, ?_⟩
  exact
    kept.2 (sampleActions.take 1) 2 [.varchar "8"]
      ((sampleActions.take 5).drop 2) 1 rfl (by decide +kernel)
      (by decide +kernel)

end Table

end VersionedColumns
