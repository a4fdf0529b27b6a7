import VersionedColumns.Proofs.Index.Mirror
import VersionedColumns.Proofs.Index.View
import VersionedColumns.Proofs.Table.Runs

/-!
# Equality indexes mirror the rows

Every equality index of a table mirrors the cells: the group of a value is the
list of the live keys with that value, from the first key that the index
covers.  An index covers all keys when it is added or the table is truncated,
and only those to come when the table is closed.

This holds whoever makes the calls, and whether or not changes wait for a
commit, since both kinds of rows are in the cells.
-/

namespace VersionedColumns

/-! ## Filling an index -/

namespace Table

/-- An index is filled with all rows behind a given one, in their order. -/
theorem fill_eq {rows : PrimaryIndex} {keys : Nat} {behind : Option Row}
    {index : EqualityIndex}
    (reaches : ∀ row ∈ rows.rowsFrom (PrimaryIndex.keyAfter behind),
      index.column < row.values.length)
    (enough : rows.nextKey ≤ PrimaryIndex.keyAfter behind + keys) :
    fill rows behind keys index =
      (.ok (), (rows.rowsFrom (PrimaryIndex.keyAfter behind)).foldl
        (fun index row => (index.insert row).2) index) := by
  induction keys generalizing behind index with
  | zero =>
      rw [Nat.add_zero] at enough
      rw [PrimaryIndex.rowsFrom_of_le enough]
      rfl
  | succ keys induction =>
      rw [fill]
      cases next : rows.nextRow? behind with
      | none =>
          rw [PrimaryIndex.rowsFrom_of_nextRow?_none next]
          rfl
      | some row =>
          rcases PrimaryIndex.rowsFrom_of_nextRow? next with ⟨later, -, split⟩
          rw [split] at reaches ⊢
          have accepted :=
            EqualityIndex.insert_ok (reaches row List.mem_cons_self)
          have kept := index.insert_column row
          rw [List.foldl_cons]
          dsimp only
          cases inserted : index.insert row with
          | mk outcome filled =>
              rw [inserted] at accepted kept
              cases accepted
              refine @induction (some row) filled ?_ ?_
              · intro other member
                rw [kept]
                exact reaches other (List.mem_cons_of_mem row member)
              · change rows.nextKey ≤ row.key + 1 + keys
                grind

theorem foldl_insert_column (rows : List Row) (index : EqualityIndex) :
    (rows.foldl (fun index row => (index.insert row).2) index).column =
      index.column := by
  induction rows generalizing index with
  | nil => rfl
  | cons row rest induction =>
      exact (induction _).trans (index.insert_column row)

/-- Filled with the rows below a bound, an index holds the live keys there. -/
theorem Sound.holds_foldl_insert {table : Table} (sound : table.Sound)
    (limit : table.primary.nextKey < 2 ^ 64) {index : EqualityIndex}
    (reaches : index.column < table.primary.grid.columns.length)
    (unfilled : index.Holds fun _ => []) {bound : Key}
    (within : bound ≤ table.primary.nextKey) :
    (((List.range bound).filterMap table.primary.filledRow?).foldl
        (fun index row => (index.insert row).2) index).Holds (fun value =>
      (List.range bound).filter fun key =>
        table.primary.grid.isLive key &&
          (table.primary.grid.cells key)[index.column]? == some value) := by
  have columns : table.primary.grid.columns ≠ [] :=
    List.ne_nil_of_length_pos (Nat.lt_of_le_of_lt (Nat.zero_le _) reaches)
  induction bound with
  | zero => exact unfilled
  | succ bound induction =>
      have inside : bound < table.primary.nextKey := within
      have notLast := PrimaryIndex.ne_tombstoneKey_of_lt inside limit
      have before := induction (Nat.le_of_lt inside)
      rw [List.range_succ, List.filterMap_append, List.foldl_append]
      rcases sound.coherent.filledRow?_cases columns inside notLast with
        ⟨dead, none⟩ | ⟨live, row, found, rfl, cells⟩
      · rw [List.filterMap_cons, none]
        apply before.congr
        intro value
        simp [dead]
      · have long : index.column < row.values.length := by
          rw [cells, Grid.cells_length]
          exact reaches
        have held : row.value? index.column = some row.values[index.column] :=
          List.getElem?_eq_getElem long
        have filled := before.insert (by rw [foldl_insert_column]; exact held)
        rw [List.filterMap_cons, found]
        apply filled.congr
        intro value
        rw [List.filter_append, List.filter_cons, List.filter_nil, live, ← cells,
          List.getElem?_eq_getElem long]
        by_cases same : value = row.values[index.column]
        · simp [same]
        · simp [same, Ne.symm same]

/-- No row of a sound table is refused by an index on one of its columns. -/
theorem Sound.fill_all {table : Table} (sound : table.Sound)
    (limit : table.primary.nextKey < 2 ^ 64) {index : EqualityIndex}
    (reaches : index.column < table.primary.grid.columns.length) :
    fill table.primary none table.primary.nextKey index =
      (.ok (), table.primary.liveRows.foldl
        (fun index row => (index.insert row).2) index) := by
  have columns : table.primary.grid.columns ≠ [] :=
    List.ne_nil_of_length_pos (Nat.lt_of_le_of_lt (Nat.zero_le _) reaches)
  have wide : ∀ row ∈ table.primary.rowsFrom (PrimaryIndex.keyAfter none),
      index.column < row.values.length := by
    intro row member
    rw [PrimaryIndex.keyAfter, PrimaryIndex.rowsFrom_zero] at member
    rcases List.mem_filterMap.1 member with ⟨key, within, found⟩
    have keyInside := List.mem_range.1 within
    have notLast := PrimaryIndex.ne_tombstoneKey_of_lt keyInside limit
    rcases sound.coherent.filledRow?_cases columns keyInside notLast with
      ⟨-, none⟩ | ⟨-, other, same, -, cells⟩
    · rw [none] at found
      cases found
    · rw [same] at found
      cases found
      rw [cells, Grid.cells_length]
      exact reaches
  have all := fill_eq wide (Nat.le_add_left table.primary.nextKey _)
  rw [PrimaryIndex.keyAfter, PrimaryIndex.rowsFrom_zero] at all
  exact all

/-- An index that is added mirrors all rows. -/
theorem Sound.mirrors_filled {table : Table} (sound : table.Sound)
    (limit : table.primary.nextKey < 2 ^ 64) {name : String} {position : Nat}
    {definition : Column} {filled : EqualityIndex}
    (inside : table.columns[position]? = some definition)
    (accepted : fill table.primary none table.primary.nextKey
        (EqualityIndex.empty table.id name position definition.type) =
      (.ok (), filled)) :
    filled.Mirrors table.primary.grid 0 := by
  let index := EqualityIndex.empty table.id name position definition.type
  have reaches : index.column < table.primary.grid.columns.length := by
    rw [sound.width]
    exact (List.getElem?_eq_some_iff.1 inside).1
  have all := sound.fill_all limit reaches
  have holds :=
    sound.holds_foldl_insert limit reaches
      (EqualityIndex.Holds.empty _ _ _ _) (Nat.le_refl _)
  rw [accepted] at all
  cases all
  refine ⟨?_, Nat.zero_le _, ?_⟩
  · rw [foldl_insert_column]
    exact reaches
  · rw [foldl_insert_column]
    apply holds.congr
    intro value
    simp [Grid.keysWith]
    rfl

/-! ## Along a run -/

/-- Every equality index mirrors the cells from a key of its own on. -/
def Mirrored (table : Table) (firsts : List Key) : Prop :=
  List.Forall₂ (fun index first => index.Mirrors table.primary.grid first)
    table.secondary firsts

/--
The keys that the equality indexes cover after a call, given those before: all
keys for an index that is added and after a truncation, and only the keys to
come after the table is closed.
-/
def firstsAfter (table : Table) (firsts : List Key) :
    Action → Except Error Reply → List Key
  | .addIndex .., .ok _ => firsts ++ [0]
  | .dropIndex name, .ok _ =>
    firsts.eraseIdx (table.secondary.findIdx fun index => index.name == name)
  | .truncate, .ok _ => firsts.map fun _ => 0
  | .close, .ok _ => firsts.map fun _ => table.primary.nextKey
  | .discard, .ok _ => []
  | _, _ => firsts

theorem Sound.mirrored_withRow {table : Table} (sound : table.Sound)
    {firsts : List Key} (mirrored : table.Mirrored firsts)
    {values : List Value} (fits : Fits table.columns values)
    (session : Session) :
    (table.withRow session values).Mirrored firsts := by
  let row := table.primary.nextRow session values
  have fitting : row.values.length = table.primary.grid.columns.length :=
    fits.length_eq.trans sound.width.symm
  apply List.forall₂_map_left_iff.2
  apply mirrored.imp
  intro index first mirrors
  exact mirrors.insert sound.coherent.inStep fitting rfl

theorem mirrored_withoutRow {table : Table} {firsts : List Key}
    (mirrored : table.Mirrored firsts) {row : Row}
    (found : table.liveRow? row.key = some row) (session : Session) :
    (table.withoutRow session row).Mirrored firsts := by
  have cells := (liveRow?_eq_some found).2.2.1
  apply List.forall₂_map_left_iff.2
  apply mirrored.imp
  intro index first mirrors
  exact mirrors.remove cells

theorem Sound.mirrored_steps {session : Session} {table later : Table}
    (sound : table.Sound) {firsts : List Key}
    (mirrored : table.Mirrored firsts) (steps : Steps session table later) :
    later.Mirrored firsts := by
  refine
    steps.preserve (motive := fun table => table.Mirrored firsts) ?_ sound
      mirrored
  intro table later sound mirrored step
  cases step with
  | stored fits => exact sound.mirrored_withRow mirrored fits session
  | takenBack found member own => exact mirrored_withoutRow mirrored found session
  | settled member => exact mirrored

/-- Lists that are related stay so when the first match of one is erased. -/
theorem forall₂_eraseP {First Second : Type} {relation : First → Second → Prop}
    {items : List First} {others : List Second}
    (related : List.Forall₂ relation items others) (erased : First → Bool) :
    List.Forall₂ relation (items.eraseP erased)
      (others.eraseIdx (items.findIdx erased)) := by
  induction related with
  | nil => exact List.Forall₂.nil
  | cons first rest induction =>
      rename_i item other items others
      rw [List.eraseP_cons, List.findIdx_cons]
      cases erased item with
      | true => exact rest
      | false => exact List.Forall₂.cons first induction

theorem mirrored_renameFirst {grid : Grid} {name newName : String}
    {indexes : List EqualityIndex} {firsts : List Key}
    (mirrored : List.Forall₂ (fun index first => index.Mirrors grid first)
      indexes firsts) :
    List.Forall₂ (fun index first => index.Mirrors grid first)
      (renameFirst name newName indexes) firsts := by
  induction mirrored with
  | nil => exact List.Forall₂.nil
  | cons mirrors rest induction =>
      rw [renameFirst]
      split
      · refine List.Forall₂.cons ?_ rest
        exact ⟨mirrors.reaches, mirrors.inside, mirrors.holds.tidy,
          mirrors.holds.keysOf_eq, mirrors.holds.rowCount_eq⟩
      · exact List.Forall₂.cons mirrors induction

/-- Every call keeps the equality indexes mirrored. -/
theorem Sound.mirrored_after {table : Table} (sound : table.Sound)
    {firsts : List Key} (mirrored : table.Mirrored firsts) {action : Action}
    (start : table.primary.nextKey < 2 ^ 64) (limit : KeysFit table action) :
    (table.after action).Mirrored
      (table.firstsAfter firsts action (table.perform action).1) := by
  have effect := sound.perform_effect action limit
  generalize (table.perform action).1 = answer at effect ⊢
  generalize table.after action = later at effect ⊢
  cases effect with
  | refused error => cases action <;> exact mirrored
  | inserted fits => exact sound.mirrored_withRow mirrored fits _
  | removed found =>
      have same := (liveRow?_eq_some found).2.1
      subst same
      exact mirrored_withoutRow mirrored found _
  | committed steps | rolledBack steps => exact sound.mirrored_steps mirrored steps
  | indexAdded inside accepted =>
      have added := sound.mirrors_filled start inside accepted
      exact List.rel_append mirrored (List.Forall₂.cons added List.Forall₂.nil)
  | indexDropped found => exact forall₂_eraseP mirrored _
  | indexRenamed => exact mirrored_renameFirst mirrored
  | truncated =>
      apply List.forall₂_map_left_iff.2
      apply List.forall₂_map_right_iff.2
      apply mirrored.imp
      intro index first mirrors
      exact
        EqualityIndex.Mirrors.clear
          ((Grid.clear_columns_length _).symm ▸ mirrors.reaches)
  | closed =>
      apply List.forall₂_map_left_iff.2
      apply List.forall₂_map_right_iff.2
      apply mirrored.imp
      intro index first mirrors
      exact EqualityIndex.Mirrors.clear mirrors.reaches
  | discarded => exact List.Forall₂.nil

/-- The keys from which the equality indexes mirror the cells after a run. -/
def firstsOfRun : Table → List Key → List Action → List Key
  | _, firsts, [] => firsts
  | table, firsts, action :: rest =>
    firstsOfRun (table.after action)
      (table.firstsAfter firsts action (table.perform action).1) rest

theorem Sound.mirrored_run {table : Table} (sound : table.Sound)
    {firsts : List Key} (mirrored : table.Mirrored firsts)
    {actions : List Action} (start : table.primary.nextKey < 2 ^ 64)
    (limits : Obeys KeysFit table actions) :
    (table.run actions).Mirrored (table.firstsOfRun firsts actions) := by
  induction actions generalizing table firsts with
  | nil => exact mirrored
  | cons action rest induction =>
      exact
        induction (sound.after action limits.1)
          (sound.mirrored_after mirrored start limits.1) limits.1 limits.2

/--
In every table that a run from a new one reaches, the group of a value in an
equality index is the increasing list of the live keys with that value, from
the first key that the index covers, and there is no group where that list is
empty.  No key is in the groups of two values, and the index counts the keys of
all groups.
-/
theorem secondary_mirror_of_run (id : TableId) (schema : Schema)
    (config : Config) (actions : List Action)
    (limits : Obeys KeysFit (create id schema config) actions)
    (table : Table) (reached : (create id schema config).run actions = table) :
    ((create id schema config).firstsOfRun [] actions).length =
        table.secondary.length ∧
      ∀ (position : Nat) (index : EqualityIndex) (first : Key),
        table.secondary[position]? = some index →
        ((create id schema config).firstsOfRun [] actions)[position]? =
            some first →
          (∀ value,
            index.keys? value =
              if table.primary.grid.keysWith index.column first value = [] then
                none
              else some (table.primary.grid.keysWith index.column first value)) ∧
          (∀ value,
            (table.primary.grid.keysWith index.column first value).Pairwise
              (· < ·)) ∧
          (index.groups.map Prod.fst).Nodup ∧
          (∀ group ∈ index.groups, index.keys? group.1 = some group.2) ∧
          (∀ one ∈ index.groups, ∀ other ∈ index.groups, ∀ key,
            key ∈ one.2 → key ∈ other.2 → one = other) ∧
          index.rowCount =
            (index.groups.map fun group => group.2.length).sum := by
  have new := Sound.create id schema config
  have mirrored :=
    new.mirrored_run List.Forall₂.nil (Nat.two_pow_pos 64) limits
  rw [reached] at mirrored
  refine ⟨mirrored.length_eq.symm, ?_⟩
  intro position index first indexed covered
  rcases List.getElem?_eq_some_iff.1 indexed with ⟨inside, rfl⟩
  rcases List.getElem?_eq_some_iff.1 covered with ⟨within, rfl⟩
  have mirrors := (List.forall₂_iff_get.1 mirrored).2 position inside within
  have holds := mirrors.holds
  refine ⟨holds.keys?_eq, fun _ => Grid.keysWith_pairwise, holds.tidy.distinct,
    fun group member => holds.tidy.keys?_of_mem member, ?_, holds.rowCount_eq⟩
  intro one oneMember other otherMember key inOne inOther
  have ofOne := holds.of_mem oneMember
  have ofOther := holds.of_mem otherMember
  rw [← ofOne] at inOne
  rw [← ofOther] at inOther
  have same : one.1 = other.1 :=
    Option.some.inj
      ((Grid.mem_keysWith.1 inOne).2.2.symm.trans (Grid.mem_keysWith.1 inOther).2.2)
  refine Prod.ext same ?_
  rw [← ofOne, ← ofOther, same]

/-- An index that is added late mirrors the row that a rollback restores. -/
theorem secondary_mirror_of_sample_run :
    ∃ index,
      ((create 1 sampleSchema sampleConfig).run sampleActions).secondary[0]? =
          some index ∧
        index.keys? (.int 7) = some [2] ∧
        index.rowCount = 2 := by
  have mirrored :=
    secondary_mirror_of_run 1 sampleSchema sampleConfig sampleActions
      (by decide +kernel) _ rfl
  have indexed : (((create 1 sampleSchema sampleConfig).run
      sampleActions).secondary[0]?).isSome := by
    decide +kernel
  rcases Option.isSome_iff_exists.1 indexed with ⟨index, found⟩
  have column : index.column = 0 := by
    have columns : (((create 1 sampleSchema sampleConfig).run
        sampleActions).secondary[0]?).map EqualityIndex.column = some 0 := by
      decide +kernel
    rw [found] at columns
    exact Option.some.inj columns
  have keys : ((create 1 sampleSchema sampleConfig).run
      sampleActions).primary.grid.keysWith 0 0 (.int 7) = [2] := by
    decide +kernel
  have mirrors := mirrored.2 0 index 0 found (by decide +kernel)
  refine ⟨index, found, ?_, ?_⟩
  · rw [mirrors.1, column, keys]
    rfl
  · have counts : (((create 1 sampleSchema sampleConfig).run
        sampleActions).secondary[0]?).map EqualityIndex.rowCount = some 2 := by
      decide +kernel
    rw [found] at counts
    exact Option.some.inj counts

end Table

end VersionedColumns
