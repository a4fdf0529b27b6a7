import VersionedColumns.Proofs.Table.Refusals
import VersionedColumns.Proofs.Table.TypedStorage

/-!
# The directory of indexes

The indexes of a table are listed under their names: first the primary index,
whose name follows from that of the table, and behind it the equality indexes
in the order in which they were added.  No two of them share a name, so a name
finds the one index that has it.

Three calls edit this list, each of them in one place, and to discard a table
leaves the primary index alone.  No other call alters anything about an index
but its rows.  All of this holds however many keys have been handed out.
-/

namespace VersionedColumns

namespace PrimaryIndex

theorem insert_name (index : PrimaryIndex) (session : Session) (row : Row) :
    (index.insert session row).2.name = index.name := by
  rw [insert]
  split <;> rfl

theorem remove_name (index : PrimaryIndex) (session : Session) (row : Row) :
    (index.remove session row).2.name = index.name := by
  rw [remove]
  split <;> rfl

end PrimaryIndex

namespace Table

variable {table later : Table} {name newName : String}

/-! ## Calls that reach rows only -/

/-- The name of the primary index, and the equality indexes without rows. -/
def headings (table : Table) : String × List EqualityIndex :=
  (table.primary.name, table.secondary.map EqualityIndex.clear)

theorem insert_headings (table : Table) (session : Session)
    (values : List Value) :
    (table.insert session values).2.headings = table.headings := by
  rw [insert]
  split
  · split
    · rfl
    · rename_i converted _
      have named :=
        table.primary.insert_name session (Row.ofValues converted)
      split
      · rename_i refused
        rw [refused] at named
        exact congrArg (Prod.mk · _) named
      · rename_i stored
        rw [stored] at named
        exact
          Prod.ext named
            (EqualityIndex.map_clear_changeEach
              (fun index => index.clear_insert _) table.secondary)
  · rfl

theorem remove_headings (table : Table) (session : Session) (key : Key) :
    (table.remove session key).2.headings = table.headings := by
  rw [remove]
  split
  · rfl
  · rename_i row _
    have kept :=
      EqualityIndex.map_clear_changeEach
        (fun index => index.clear_remove row) table.secondary
    split
    · rename_i refused
      rw [refused] at kept
      exact congrArg (Prod.mk _) kept
    · rename_i accepted
      rw [accepted] at kept
      exact Prod.ext (table.primary.remove_name session row) kept

theorem rollback_headings (table : Table) (session : Session) :
    (table.rollback session).2.headings = table.headings :=
  undoEach_preserve (motive := fun later => later.headings = table.headings)
    (fun session values same => (insert_headings _ session values).trans same)
    (fun session key same => (remove_headings _ session key).trans same)
    (fun _ _ same => same) session (table.pendingOf session) rfl

theorem commit_headings (table : Table) (session : Session) :
    (table.commit session).2.headings = table.headings := by
  rw [commit_snd]
  rfl

/-! ## Calls that edit the list -/

/-- The names of all indexes, in their order. -/
def indexNames (table : Table) : List String :=
  table.indexes.map Index.name

theorem indexNames_eq (table : Table) :
    table.indexNames =
      table.primary.name :: table.secondary.map EqualityIndex.name := by
  rw [indexNames, indexes, List.map_cons, List.map_map]
  rfl

theorem namesIndex_iff_mem : table.NamesIndex name ↔ name ∈ table.indexNames :=
  List.mem_map.symm

theorem not_mem_indexNames_of_free (free : table.hasIndex name = false) :
    name ∉ table.indexNames := by
  rw [← namesIndex_iff_mem, ← hasIndex_iff, free]
  exact Bool.false_ne_true

/-- The names are part of the headings. -/
theorem indexNames_of_headings (same : later.headings = table.headings) :
    later.indexNames = table.indexNames := by
  have names (table : Table) : table.indexNames =
      table.headings.1 :: table.headings.2.map EqualityIndex.name := by
    rw [indexNames_eq, headings, List.map_map]
    rfl
  rw [names, names, same]

/--
How a call edits the list of indexes, told by its answer.  A discarded table
can take every name again that one of its equality indexes had.
-/
def Edits (table later : Table) : Action → Except Error Reply → Prop
  | .addIndex name column, .ok _ =>
    name ∉ table.indexNames ∧
      ∃ index, index.name = name ∧
        table.columnNamed column = .ok index.column ∧
        later.indexes = table.indexes ++ [.equality index]
  | .dropIndex name, .ok _ =>
    ∃ before index after, index.name = name ∧
      table.indexes = before ++ .equality index :: after ∧
      later.indexes = before ++ after
  | .renameIndex name newName, .ok _ =>
    newName ∉ table.indexNames ∧
      ∃ before index after, index.name = name ∧
        table.indexes = before ++ .equality index :: after ∧
        later.indexes =
          before ++ .equality { index with name := newName } :: after
  | .addIndex .., .error _ | .dropIndex .., .error _
  | .renameIndex .., .error _ => later = table
  | .discard, _ =>
    later.indexes = [.primary later.primary] ∧
      later.primary.name = table.primary.name ∧
      ∀ index ∈ table.secondary, ∀ column position,
        later.columnNamed column = .ok position →
        (later.addIndex index.name column).1 = .ok ()
  | .insert .., _ | .remove .., _ | .commit _, _ | .rollback _, _
  | .truncate, _ | .close, _ => later.headings = table.headings

/-- An index that is added has a free name and stands on the named column. -/
theorem addIndex_refused_or_added (table : Table) (name column : String) :
    (∃ error, table.addIndex name column = (.error error, table)) ∨
      table.hasIndex name = false ∧
        ∃ index, index.name = name ∧
          table.columnNamed column = .ok index.column ∧
          table.addIndex name column =
            (.ok (), { table with secondary := table.secondary ++ [index] }) := by
  rw [addIndex]
  split
  · exact Or.inl ⟨_, rfl⟩
  · rename_i free
    split
    · exact Or.inl ⟨_, rfl⟩
    · rename_i position named
      split
      · exact Or.inl ⟨_, rfl⟩
      · rename_i definition _
        dsimp only
        have kept := clear_fill table.primary none table.primary.nextKey
          (EqualityIndex.empty table.id name position definition.type)
        split
        · exact Or.inl ⟨_, rfl⟩
        · rename_i index filled
          rw [filled] at kept
          refine Or.inr ⟨by simpa using free, index, ?_, ?_, rfl⟩
          · exact congrArg EqualityIndex.name kept
          · have column := congrArg EqualityIndex.column kept
            change index.column = position at column
            rw [column, named]

/-- To rename the first index with a name renames that one only. -/
theorem exists_of_renameFirst {indexes : List EqualityIndex}
    {index : EqualityIndex} (member : index ∈ indexes)
    (named : index.name = name) :
    ∃ before renamed after, renamed.name = name ∧
      indexes = before ++ renamed :: after ∧
      renameFirst name newName indexes =
        before ++ { renamed with name := newName } :: after := by
  induction indexes with
  | nil => cases member
  | cons first rest induction =>
      rw [renameFirst]
      by_cases here : first.name = name
      · rw [if_pos here]
        exact ⟨[], first, rest, here, rfl, rfl⟩
      · rw [if_neg here]
        rcases List.mem_cons.1 member with rfl | later
        · exact absurd named here
        · rcases induction later with
            ⟨before, renamed, after, same, split, result⟩
          refine ⟨first :: before, renamed, after, same, ?_, ?_⟩
          · rw [split, List.cons_append]
          · rw [result, List.cons_append]

/-- An index that is renamed takes a free name. -/
theorem renameIndex_refused_or_renamed (table : Table) (name newName : String) :
    (∃ error, table.renameIndex name newName = (.error error, table)) ∨
      table.hasIndex newName = false ∧
        (table.equalityIndex? name).isSome = true ∧
        table.renameIndex name newName =
          (.ok (),
            { table with
              secondary := renameFirst name newName table.secondary }) := by
  rw [renameIndex]
  split
  · exact Or.inl ⟨_, rfl⟩
  · split
    · exact Or.inl ⟨_, rfl⟩
    · rename_i free
      split
      · exact Or.inl ⟨_, rfl⟩
      · rename_i found
        exact Or.inr ⟨by simpa using free, by rw [found]; rfl, rfl⟩

/-- The list of all indexes is split where that of the equality indexes is. -/
theorem indexes_eq_of_secondary {before after : List EqualityIndex}
    {index : EqualityIndex}
    (split : table.secondary = before ++ index :: after) :
    table.indexes =
      (.primary table.primary :: before.map .equality) ++
        .equality index :: after.map .equality := by
  rw [indexes, split, List.map_append, List.map_cons, List.cons_append]

theorem after_addIndex_edits (table : Table) (name column : String) :
    table.Edits (table.after (.addIndex name column)) (.addIndex name column)
      (table.perform (.addIndex name column)).1 := by
  rw [after, perform]
  rcases table.addIndex_refused_or_added name column with
    ⟨_, refused⟩ | ⟨free, index, same, placed, added⟩
  · rw [refused]
    rfl
  · rw [added]
    refine ⟨not_mem_indexNames_of_free free, index, same, placed, ?_⟩
    simp [indexes]

theorem after_dropIndex_edits (table : Table) (name : String) :
    table.Edits (table.after (.dropIndex name)) (.dropIndex name)
      (table.perform (.dropIndex name)).1 := by
  rw [after, perform]
  rcases table.dropIndex_cases name with ⟨_, refused⟩ | ⟨found, dropped⟩
  · rw [refused]
    rfl
  · rcases equalityIndex?_isSome_iff.1 found with ⟨listed, member, named⟩
    have chosen : (listed.name == name) = true := beq_iff_eq.2 named
    rcases List.exists_of_eraseP (p := fun index => index.name == name)
        member chosen with
      ⟨index, before, after, -, same, split, erased⟩
    rw [dropped]
    refine
      ⟨_, index, _, by simpa using same, indexes_eq_of_secondary split, ?_⟩
    simp [indexes, erased]

theorem after_renameIndex_edits (table : Table) (name newName : String) :
    table.Edits (table.after (.renameIndex name newName))
      (.renameIndex name newName)
      (table.perform (.renameIndex name newName)).1 := by
  rw [after, perform]
  rcases table.renameIndex_refused_or_renamed name newName with
    ⟨_, refused⟩ | ⟨free, found, renamed⟩
  · rw [refused]
    rfl
  · rcases equalityIndex?_isSome_iff.1 found with ⟨listed, member, named⟩
    rcases exists_of_renameFirst member named with
      ⟨before, index, after, same, split, result⟩
    rw [renamed, result]
    exact
      ⟨not_mem_indexNames_of_free free, _, index, _, same,
        indexes_eq_of_secondary split, indexes_eq_of_secondary rfl⟩

/-- A table that was discarded can take the names of its former indexes. -/
theorem WellTyped.discard_edits (typed : table.WellTyped)
    (distinct : table.indexNames.Nodup) :
    table.Edits table.discard .discard (.ok .done) := by
  refine ⟨rfl, rfl, ?_⟩
  intro index member column position named
  have other : index.name ≠ table.primary.name := by
    rw [indexNames_eq, List.nodup_cons] at distinct
    rintro same
    exact distinct.1 (same ▸ List.mem_map_of_mem member)
  have free : ¬table.discard.NamesIndex index.name := by
    rw [namesIndex_iff]
    rintro (same | ⟨kept, keptMember, -⟩)
    · exact other same
    · cases keptMember
  rcases unnamed_or_isFirstNamed table.discard.columns column with
    unnamed | ⟨found, definition, first⟩
  · rw [columnNamed_of_unnamed unnamed] at named
    cases named
  · have sound : table.discard.Sound := (typed.after .discard).toSound
    rw [sound.addIndex_eq (Nat.two_pow_pos 64) free first]

/-- How every call edits the list of indexes. -/
theorem WellTyped.after_edits (typed : table.WellTyped)
    (distinct : table.indexNames.Nodup) (action : Action) :
    table.Edits (table.after action) action (table.perform action).1 := by
  cases action with
  | insert session values => exact table.insert_headings session values
  | remove session key => exact table.remove_headings session key
  | commit session => exact table.commit_headings session
  | rollback session => exact table.rollback_headings session
  | addIndex name column => exact table.after_addIndex_edits name column
  | dropIndex name => exact table.after_dropIndex_edits name
  | renameIndex name newName => exact table.after_renameIndex_edits name newName
  | truncate | close =>
      change (_, List.map _ (List.map _ _)) = _
      rw [List.map_map]
      rfl
  | discard => exact typed.discard_edits distinct

/-! ## Names stay apart -/

/-- To replace a name by a new one keeps names apart. -/
theorem nodup_replace {before after : List String}
    (distinct : (before ++ name :: after).Nodup)
    (free : newName ∉ before ++ name :: after) :
    (before ++ newName :: after).Nodup := by
  rw [List.nodup_middle, List.nodup_cons] at distinct ⊢
  refine ⟨?_, distinct.2⟩
  intro member
  apply free
  rcases List.mem_append.1 member with front | back
  · exact List.mem_append_left _ front
  · exact List.mem_append_right _ (List.mem_cons_of_mem _ back)

/-- No call makes two indexes share a name. -/
theorem Edits.names_nodup {action : Action} {answer : Except Error Reply}
    (edits : table.Edits later action answer)
    (distinct : table.indexNames.Nodup) :
    later.indexNames.Nodup := by
  cases action with
  | insert | remove | commit | rollback | truncate | close =>
      rw [indexNames_of_headings edits]
      exact distinct
  | addIndex name column =>
      cases answer with
      | error error => exact edits ▸ distinct
      | ok reply =>
          rcases edits with ⟨free, index, named, -, added⟩
          rw [indexNames, added, List.map_append]
          refine List.nodup_append.2 ⟨distinct, List.nodup_singleton _, ?_⟩
          rintro other member _ (_ | ⟨_, ⟨⟩⟩) same
          subst named same
          exact free member
  | dropIndex name =>
      cases answer with
      | error error => exact edits ▸ distinct
      | ok reply =>
          rcases edits with ⟨before, index, after, -, split, dropped⟩
          rw [indexNames, dropped]
          rw [indexNames, split] at distinct
          exact
            distinct.sublist
              (((List.sublist_cons_self _ _).append_left before).map _)
  | renameIndex name newName =>
      cases answer with
      | error error => exact edits ▸ distinct
      | ok reply =>
          rcases edits with ⟨free, before, index, after, -, split, renamed⟩
          rw [indexNames, split, List.map_append, List.map_cons] at free distinct
          rw [indexNames, renamed, List.map_append, List.map_cons]
          exact nodup_replace distinct free
  | discard =>
      rw [indexNames, edits.1]
      exact List.nodup_singleton _

/-- The primary index keeps its name. -/
theorem after_primary_name (table : Table) (action : Action) :
    (table.after action).primary.name = table.primary.name := by
  cases action with
  | insert session values =>
      exact congrArg Prod.fst (table.insert_headings session values)
  | remove session key =>
      exact congrArg Prod.fst (table.remove_headings session key)
  | commit session => exact congrArg Prod.fst (table.commit_headings session)
  | rollback session => exact congrArg Prod.fst (table.rollback_headings session)
  | addIndex name column =>
      exact congrArg PrimaryIndex.name (table.addIndex_primary name column)
  | dropIndex name =>
      exact congrArg PrimaryIndex.name (table.dropIndex_primary name)
  | renameIndex name newName =>
      exact congrArg PrimaryIndex.name (table.renameIndex_primary name newName)
  | truncate | close | discard => rfl

/-- Everything that the list of indexes can be relied on for. -/
structure Directory (table : Table) (schema : Schema) : Prop where
  names_eq : table.indexNames =
    (schema.name ++ "_DATA") :: table.secondary.map EqualityIndex.name
  names_nodup : table.indexNames.Nodup
  /-- An equality index is on a column of the table and has its type. -/
  placed : ∀ index ∈ table.secondary, ∃ column,
    schema.columns[index.column]? = some column ∧
      column.type = index.columnType
  /-- A name finds the index that has it. -/
  index_eq_ok_iff : ∀ name index, table.index name = .ok index ↔
    index ∈ table.indexes ∧ index.name = name
  index_eq_error_iff : ∀ name error, table.index name = .error error ↔
    name ∉ table.indexNames ∧ error = .indexNotFound name

/-- With names apart, an index is found under its name. -/
theorem find?_indexes (distinct : table.indexNames.Nodup) {index : Index}
    (member : index ∈ table.indexes) :
    table.indexes.find? (fun other => other.name == index.name) = some index := by
  have listed :
      (table.indexes.find? fun other => other.name == index.name).isSome = true :=
    List.find?_isSome.2 ⟨index, member, beq_self_eq_true _⟩
  rcases Option.isSome_iff_exists.1 listed with ⟨found, same⟩
  have named : found.name = index.name := by
    simpa using List.find?_some same
  rw [same]
  exact
    congrArg some
      (List.inj_on_of_nodup_map distinct (List.mem_of_find?_eq_some same) member
        named)

theorem index_eq_ok_iff (distinct : table.indexNames.Nodup) {index : Index} :
    table.index name = .ok index ↔
      index ∈ table.indexes ∧ index.name = name := by
  rw [Table.index]
  constructor
  · intro answer
    split at answer
    · rename_i found same
      cases answer
      exact
        ⟨List.mem_of_find?_eq_some same, by simpa using List.find?_some same⟩
    · cases answer
  · rintro ⟨member, rfl⟩
    rw [find?_indexes distinct member]

theorem index_eq_error_iff {error : Error} :
    table.index name = .error error ↔
      name ∉ table.indexNames ∧ error = .indexNotFound name := by
  rw [Table.index, indexNames, List.mem_map]
  cases found : table.indexes.find? fun index => index.name == name with
  | none =>
      have unnamed := List.find?_eq_none.1 found
      constructor
      · rintro ⟨⟩
        refine ⟨?_, rfl⟩
        rintro ⟨index, member, named⟩
        exact unnamed index member (beq_iff_eq.2 named)
      · rintro ⟨-, rfl⟩
        rfl
  | some index =>
      constructor
      · rintro ⟨⟩
      · rintro ⟨unnamed, -⟩
        have named : index.name = name := by
          simpa using List.find?_some found
        exact
          absurd ⟨index, List.mem_of_find?_eq_some found, named⟩ unnamed

theorem WellTyped.directory (typed : table.WellTyped) {schema : Schema}
    (columns : table.columns = schema.columns)
    (named : table.primary.name = schema.name ++ "_DATA")
    (distinct : table.indexNames.Nodup) :
    table.Directory schema where
  names_eq := by rw [indexNames_eq, named]
  names_nodup := distinct
  placed := by
    intro index member
    rw [← columns]
    exact Option.map_eq_some_iff.1 (typed.indexes_typed index member).type_eq
  index_eq_ok_iff := fun _ _ => Table.index_eq_ok_iff distinct
  index_eq_error_iff := fun _ _ => Table.index_eq_error_iff

/-! ## Every table that a run reaches -/

/-- What every run carries over from call to call. -/
theorem WellTyped.run_names (typed : table.WellTyped)
    (distinct : table.indexNames.Nodup) (actions : List Action) :
    (table.run actions).primary.name = table.primary.name ∧
      (table.run actions).indexNames.Nodup := by
  induction actions generalizing table with
  | nil => exact ⟨rfl, distinct⟩
  | cons action rest induction =>
      have edited := (typed.after_edits distinct action).names_nodup distinct
      rcases induction (typed.after action) edited with ⟨named, apart⟩
      exact ⟨named.trans (table.after_primary_name action), apart⟩

/--
In every table that a run from a new one reaches, the names of the indexes are
apart and find them, the primary index comes first under the name of the table,
and every equality index is on a column of the table and has its type.  The
next call edits the list of indexes in one place if it is to add, to drop or to
rename an index and succeeds, and empties it to the primary index if it
discards the table; otherwise the indexes change in nothing but their rows.
-/
theorem directory_of_run (id : TableId) (schema : Schema) (config : Config)
    (actions : List Action) :
    ((create id schema config).run actions).Directory schema ∧
      ∀ action,
        ((create id schema config).run actions).Edits
          (((create id schema config).run actions).after action) action
          (((create id schema config).run actions).perform action).1 := by
  have typed := WellTyped.create id schema config
  have start : (create id schema config).indexNames.Nodup :=
    List.nodup_singleton _
  rcases typed.run_names start actions with ⟨named, distinct⟩
  constructor
  · exact
      (typed.run actions).directory (run_columns _ actions) named distinct
  · exact (typed.run actions).after_edits distinct

end Table

end VersionedColumns
