import VersionedColumns.Proofs.Index.Lookup
import VersionedColumns.Proofs.Table.Searchable
import VersionedColumns.Proofs.Table.Shared

/-!
# Looking up a value

A search through an equality index answers what a plain search of the table
would: it takes the first live row with the value, in the order of the keys,
and answers nothing if another session has inserted that row without committing.
A row behind it is not tried, so a search can miss a row that its session sees.
The last section says when.
-/

namespace VersionedColumns

/-- The first column with a name, letter case aside, and where it stands. -/
structure IsFirstNamed (columns : List Column) (name : String) (position : Nat)
    (column : Column) : Prop where
  placed : columns[position]? = some column
  named : Text.sameLetters column.name name = true
  first : ∀ other ∈ columns.take position,
    Text.sameLetters other.name name = false

theorem IsFirstNamed.columns_ne_nil {columns : List Column} {name : String}
    {position : Nat} {column : Column}
    (first : IsFirstNamed columns name position column) :
    columns ≠ [] :=
  List.ne_nil_of_mem (List.mem_of_getElem? first.placed)

/-- To search for the position of a name is to find the first column with it. -/
theorem findIdx?_eq_some_iff {columns : List Column} {name : String}
    {position : Nat} :
    columns.findIdx? (fun column => Text.sameLetters column.name name) =
        some position ↔
      ∃ column, IsFirstNamed columns name position column := by
  rw [List.findIdx?_eq_some_iff_getElem]
  constructor
  · rintro ⟨inside, named, before⟩
    refine ⟨columns[position], List.getElem?_eq_getElem inside, named, ?_⟩
    intro other member
    rcases List.mem_take_iff_getElem.1 member with ⟨earlier, below, rfl⟩
    simpa using before earlier (Nat.lt_min.1 below).1
  · rintro ⟨column, placed, named, first⟩
    rcases List.getElem?_eq_some_iff.1 placed with ⟨inside, rfl⟩
    refine ⟨inside, named, ?_⟩
    intro earlier before
    have member : columns[earlier] ∈ columns.take position :=
      List.mem_take_iff_getElem.2
        ⟨earlier, Nat.lt_min.2 ⟨before, Nat.lt_trans before inside⟩, rfl⟩
    simpa using first _ member

namespace Table

variable {table : Table} {session : Session} {name : String} {value : Value}
  {position : Nat} {column : Column}

/-! ## Columns by name -/

theorem columnNamed_of_unnamed
    (unnamed : ∀ column ∈ table.columns,
      Text.sameLetters column.name name = false) :
    table.columnNamed name = .error (.columnNotFound name) := by
  have none : table.columns.findIdx? (fun column =>
      Text.sameLetters column.name name) = none :=
    List.findIdx?_eq_none_iff.2 unnamed
  simp only [columnNamed, none]

theorem columnNamed_of_isFirstNamed
    (first : IsFirstNamed table.columns name position column) :
    table.columnNamed name = .ok position := by
  have found := findIdx?_eq_some_iff.2 ⟨column, first⟩
  simp only [columnNamed, found]

/-- Either no column has a name, or there is a first one that has it. -/
theorem unnamed_or_isFirstNamed (columns : List Column) (name : String) :
    (∀ column ∈ columns, Text.sameLetters column.name name = false) ∨
      ∃ position column, IsFirstNamed columns name position column := by
  cases found : columns.findIdx? fun column =>
      Text.sameLetters column.name name with
  | none => exact Or.inl (List.findIdx?_eq_none_iff.1 found)
  | some position => exact Or.inr ⟨position, findIdx?_eq_some_iff.1 found⟩

/-! ## What a search answers -/

theorem findEqual_of_unnamed
    (unnamed : ∀ column ∈ table.columns,
      Text.sameLetters column.name name = false) :
    table.findEqual session name value = .error (.columnNotFound name) := by
  rw [findEqual, columnNamed_of_unnamed unnamed]
  rfl

theorem findEqual_of_unindexed
    (first : IsFirstNamed table.columns name position column)
    (unindexed : ∀ index ∈ table.secondary, index.column ≠ position) :
    table.findEqual session name value = .error (.columnNotIndexed name) := by
  have none : table.indexOn? position = none := by
    rw [indexOn?, List.find?_eq_none]
    intro index member
    simpa using unindexed index member
  rw [findEqual, columnNamed_of_isFirstNamed first]
  simp only [bind, Except.bind, none]

/-- An index that covers all rows has the first live row with a value. -/
theorem Searchable.visibleRow?_eq (searchable : table.Searchable)
    {index : EqualityIndex} (member : index ∈ table.secondary)
    (session : Session) (searched : Value) :
    index.visibleRow? table.primary session searched =
      (table.primary.liveRows.find?
        (PrimaryIndex.holdsAt index.column searched)).filter fun row =>
          row.visibleTo session := by
  have mirrors := searchable.covered index member
  have columns : table.primary.grid.columns ≠ [] :=
    List.ne_nil_of_length_pos (Nat.zero_lt_of_lt mirrors.reaches)
  have firstKey : index.firstKey? searched =
      (table.primary.grid.keysWith index.column 0 searched).head? := by
    rw [EqualityIndex.firstKey?, mirrors.holds.keys?_eq]
    split
    · rename_i none
      rw [none]
      rfl
    · rfl
  rw [EqualityIndex.visibleRow?, firstKey,
    ← searchable.sound.coherent.find?_liveRows columns searchable.keysFit]
  cases found : table.primary.liveRows.find?
      (PrimaryIndex.holdsAt index.column searched) with
  | none => rfl
  | some row =>
      have live := PrimaryIndex.isTombstone_of_mem_liveRows
        (List.mem_of_find?_eq_some found)
      simp [Option.filter, live]

/-- A search is a plain search for the value as its column has it. -/
theorem Searchable.findEqual_eq (searchable : table.Searchable)
    (first : IsFirstNamed table.columns name position column)
    {index : EqualityIndex} (member : index ∈ table.secondary)
    (indexed : index.column = position) :
    table.findEqual session name value =
      (value.convertTo column.type).map fun searched =>
        (table.primary.liveRows.find?
          (PrimaryIndex.holdsAt position searched)).filter fun row =>
            row.visibleTo session := by
  have inside := (List.getElem?_eq_some_iff.1 first.placed).1
  -- the first index on the column answers, whichever one is given
  have found : (table.indexOn? position).isSome = true :=
    List.find?_isSome.2 ⟨index, member, beq_iff_eq.2 indexed⟩
  rcases Option.isSome_iff_exists.1 found with ⟨used, usedFound⟩
  have usedMember := List.mem_of_find?_eq_some usedFound
  have usedColumn : used.column = position := by
    simpa using List.find?_some usedFound
  have type : used.columnType = column.type := by
    have typed := searchable.typed used usedMember
    rw [usedColumn, first.placed] at typed
    exact (Option.some.inj typed).symm
  have probed : used.valueOf (Row.probe table.columns.length position value) =
      .ok value := by
    rw [EqualityIndex.valueOf, usedColumn, Row.probe_value? value inside]
  rw [findEqual, columnNamed_of_isFirstNamed first]
  simp only [bind, Except.bind, usedFound, EqualityIndex.find, probed, type]
  cases converts : value.convertTo column.type with
  | error error => rfl
  | ok searched =>
      have answer := searchable.visibleRow?_eq usedMember session searched
      rw [usedColumn] at answer
      rw [Except.map, ← answer]
      rfl

/-- Through an index a search fails by its conversion only. -/
theorem Searchable.findEqual_cases (searchable : table.Searchable)
    (first : IsFirstNamed table.columns name position column)
    {index : EqualityIndex} (member : index ∈ table.secondary)
    (indexed : index.column = position) (session : Session) (value : Value) :
    value.convertTo column.type = .error (.conversion value column.type) ∧
        table.findEqual session name value =
          .error (.conversion value column.type) ∨
      ∃ searched, value.convertTo column.type = .ok searched ∧
        table.findEqual session name value =
          .ok ((table.primary.liveRows.find?
            (PrimaryIndex.holdsAt position searched)).filter fun row =>
              row.visibleTo session) := by
  rw [searchable.findEqual_eq first member indexed]
  cases converts : value.convertTo column.type with
  | error error =>
      cases Value.eq_conversion_of_convertTo converts
      exact Or.inl ⟨rfl, rfl⟩
  | ok searched => exact Or.inr ⟨searched, rfl, rfl⟩

/-- Only a column without an equality index is not indexed. -/
theorem Searchable.findEqual_eq_columnNotIndexed_iff
    (searchable : table.Searchable)
    (first : IsFirstNamed table.columns name position column) :
    table.findEqual session name value = .error (.columnNotIndexed name) ↔
      ∀ index ∈ table.secondary, index.column ≠ position := by
  refine ⟨?_, findEqual_of_unindexed first⟩
  intro failed index member indexed
  rcases searchable.findEqual_cases first member indexed session value with
    ⟨-, answer⟩ | ⟨searched, -, answer⟩ <;>
    (rw [answer] at failed; cases failed)

/-- Only a name that no column has is unknown. -/
theorem Searchable.findEqual_eq_columnNotFound_iff
    (searchable : table.Searchable) :
    table.findEqual session name value = .error (.columnNotFound name) ↔
      ∀ column ∈ table.columns, Text.sameLetters column.name name = false := by
  refine ⟨?_, findEqual_of_unnamed⟩
  intro failed
  rcases unnamed_or_isFirstNamed table.columns name with
    unnamed | ⟨position, column, first⟩
  · exact unnamed
  · exfalso
    by_cases unindexed : ∀ index ∈ table.secondary, index.column ≠ position
    · rw [findEqual_of_unindexed first unindexed] at failed
      cases failed
    · push Not at unindexed
      rcases unindexed with ⟨index, member, indexed⟩
      rcases searchable.findEqual_cases first member indexed session value with
        ⟨-, answer⟩ | ⟨searched, -, answer⟩ <;>
        (rw [answer] at failed; cases failed)

/-- The first live row with a value is the one that is read at the first key. -/
theorem Searchable.find?_of_isFirstWith (searchable : table.Searchable)
    {searched : Value} {key : Key}
    (first : table.primary.grid.IsFirstWith position searched key) :
    ∃ row, table.row key = .ok row ∧
      table.primary.liveRows.find?
        (PrimaryIndex.holdsAt position searched) = some row := by
  have coherent := searchable.sound.coherent
  have columns : table.primary.grid.columns ≠ [] := by
    have inside := (List.getElem?_eq_some_iff.1 first.held).1
    rw [Grid.cells_length] at inside
    exact List.ne_nil_of_length_pos (Nat.zero_lt_of_lt inside)
  have inside := Grid.lt_nextKey_of_isLive first.live
  have notLast := PrimaryIndex.ne_tombstoneKey_of_lt inside searchable.keysFit
  rcases coherent.filledRow?_cases columns inside notLast with
    ⟨dead, -⟩ | ⟨-, row, found, -, -⟩
  · rw [first.live] at dead
    cases dead
  · have read := (Option.filter_eq_some_iff.1 found).1
    refine ⟨row, ?_, ?_⟩
    · rw [Table.row, read]
    · rw [coherent.find?_liveRows columns searchable.keysFit,
        Grid.head?_keysWith_eq_some_iff.2 first]
      exact read

/-- Without a live key with a value there is no live row with it. -/
theorem Searchable.find?_of_not_isFirstWith (searchable : table.Searchable)
    (columns : table.columns ≠ []) {searched : Value}
    (without : ∀ key, ¬table.primary.grid.IsFirstWith position searched key) :
    table.primary.liveRows.find?
      (PrimaryIndex.holdsAt position searched) = none := by
  have gridColumns := searchable.sound.grid_columns_ne_nil columns
  rw [searchable.sound.coherent.find?_liveRows gridColumns searchable.keysFit,
    Grid.head?_keysWith_eq_none_iff.2 without]
  rfl

/-- Where changes take effect at once a search goes through the scan. -/
theorem Searchable.find?_scanned (searchable : table.Searchable)
    (immediate : table.versioned = false) (session : Session)
    (searched : Value) :
    (table.primary.liveRows.find?
        (PrimaryIndex.holdsAt position searched)).filter
          (fun row => row.visibleTo session) =
      (table.scanned session).find? (PrimaryIndex.holdsAt position searched) := by
  have visible : ∀ row ∈ table.primary.liveRows,
      row.visibleTo session = true := fun row member =>
    searchable.sound.coherent.visibleTo_of_immediate immediate member session
  have all : table.scanned session = table.primary.liveRows :=
    Scan.remaining_start_of_immediate immediate session
  rw [all]
  cases found : table.primary.liveRows.find?
      (PrimaryIndex.holdsAt position searched) with
  | none => rfl
  | some row =>
      exact
        Option.filter_some_pos (visible row (List.mem_of_find?_eq_some found))

/--
In every table that a run from a new one reaches without closing it, a search
fails with an unknown column exactly if no column has the name, and then, for
the first column with it, with a column that is not indexed exactly if no index
is on it, and then with a failed conversion exactly if the value has none to
the type of the column.  Otherwise it answers the row that is read at the least
live key with the converted value, if the session sees that row, and no row at
all without such a key.  Where changes take effect at once this is the first
row with the value that a scan yields.
-/
theorem findEqual_eq_search_of_run (id : TableId) (schema : Schema)
    (config : Config) (actions : List Action)
    (limits : Obeys KeysFit (create id schema config) actions)
    (stays : Obeys StaysOpen (create id schema config) actions)
    (table : Table) (reached : (create id schema config).run actions = table)
    (session : Session) (name : String) (value : Value) :
    (table.findEqual session name value = .error (.columnNotFound name) ↔
        ∀ column ∈ table.columns, Text.sameLetters column.name name = false) ∧
      ∀ position column, IsFirstNamed table.columns name position column →
        (table.findEqual session name value = .error (.columnNotIndexed name) ↔
            ∀ index ∈ table.secondary, index.column ≠ position) ∧
          ∀ index ∈ table.secondary, index.column = position →
            (table.findEqual session name value =
                  .error (.conversion value column.type) ↔
                ∀ searched, value.convertTo column.type ≠ .ok searched) ∧
              ∀ searched, value.convertTo column.type = .ok searched →
                ∃ answer, table.findEqual session name value = .ok answer ∧
                  (∀ key,
                    table.primary.grid.IsFirstWith position searched key →
                      ∃ row, table.row key = .ok row ∧
                        answer =
                          if row.owner = noSession ∨ row.owner = session then
                            some row
                          else none) ∧
                  ((∀ key,
                      ¬table.primary.grid.IsFirstWith position searched key) →
                    answer = none) ∧
                  (table.versioned = false →
                    answer =
                      (table.scanned session).find?
                        (PrimaryIndex.holdsAt position searched)) := by
  have searchable := (Searchable.create id schema config).run limits stays
  rw [reached] at searchable
  refine ⟨searchable.findEqual_eq_columnNotFound_iff, ?_⟩
  intro position column first
  refine ⟨searchable.findEqual_eq_columnNotIndexed_iff first, ?_⟩
  intro index member indexed
  have columns := first.columns_ne_nil
  rcases searchable.findEqual_cases first member indexed session value with
    ⟨fails, answer⟩ | ⟨found, converts, answer⟩
  · rw [fails, answer]
    exact ⟨⟨fun _ _ => nofun, fun _ => rfl⟩, nofun⟩
  · rw [converts, answer]
    refine ⟨⟨nofun, fun without => absurd rfl (without found)⟩, ?_⟩
    intro searched same
    cases same
    refine ⟨_, rfl, ?_, ?_, ?_⟩
    · intro key firstKey
      rcases searchable.find?_of_isFirstWith firstKey with ⟨row, read, same⟩
      refine ⟨row, read, ?_⟩
      rw [same, Option.filter]
      exact if_congr Row.visibleTo_iff rfl rfl
    · intro without
      rw [searchable.find?_of_not_isFirstWith columns without]
      rfl
    · intro immediate
      exact searchable.find?_scanned immediate session found

/-- A search finds the row that a rollback has restored, by another spelling. -/
theorem findEqual_run_sample :
    ((create 1 sampleSchema sampleConfig).run sampleActions).findEqual 1
        "LEVEL" (.varchar "7") =
      .ok (some (Row.stored 2 [.int 7])) := by
  have searched :=
    findEqual_eq_search_of_run 1 sampleSchema sampleConfig sampleActions
      (by decide +kernel) (by decide +kernel) _ rfl 1 "LEVEL" (.varchar "7")
  have first : IsFirstNamed
      ((create 1 sampleSchema sampleConfig).run sampleActions).columns "LEVEL" 0
      ⟨"Level", .int⟩ :=
    ⟨by decide +kernel, by decide +kernel, by decide +kernel⟩
  have firstKey : ((create 1 sampleSchema sampleConfig).run
      sampleActions).primary.grid.IsFirstWith 0 (.int 7) 2 :=
    Grid.head?_keysWith_eq_some_iff.1 (by decide +kernel)
  have indexed : ∃ index ∈ ((create 1 sampleSchema sampleConfig).run
      sampleActions).secondary, index.column = 0 := by
    decide +kernel
  have stored : ((create 1 sampleSchema sampleConfig).run sampleActions).row 2 =
      .ok (Row.stored 2 [.int 7]) := by
    decide +kernel
  rcases indexed with ⟨index, member, column⟩
  rcases ((searched.2 0 _ first).2 index member column).2 (.int 7)
      (by decide +kernel) with ⟨answer, found, atFirst, -, -⟩
  rcases atFirst 2 firstKey with ⟨row, read, rfl⟩
  rw [stored] at read
  cases read
  exact found

/-! ## What a search misses -/

/-- The first row with a value is what another session has only inserted. -/
def FirstMatchHidden (table : Table) (session : Session) (position : Nat)
    (searched : Value) : Prop :=
  ∃ key, table.primary.grid.IsFirstWith position searched key ∧
    ∃ change ∈ table.primary.pending.row? key,
      change.deleted = false ∧ change.owner ≠ session

/-- Among the rows of a scan the live ones are those that are stored. -/
theorem Shared.mem_scanned_iff (shared : table.Shared) {row : Row} :
    row ∈ table.scanned session ∧ row.deleted = false ↔
      row ∈ table.primary.liveRows ∧ row.visibleTo session = true := by
  have all : table.scanned session = _ :=
    Scan.remaining_start_of_versioned shared.versioned session
  rw [all, List.mem_append, List.mem_filter, List.mem_filter]
  constructor
  · rintro ⟨⟨-, elsewhere⟩ | stored, mark⟩
    · simp [Scan.deletedElsewhere, mark] at elsewhere
    · exact stored
  · rintro ⟨member, visible⟩
    exact ⟨Or.inr ⟨member, visible⟩, PrimaryIndex.deleted_of_mem_liveRows member⟩

/-- A live row is hidden exactly from all but the session that inserts it. -/
theorem Shared.visibleTo_eq_false_iff (shared : table.Shared)
    (limit : table.primary.nextKey < 2 ^ 64) {key : Key} {row : Row}
    (live : table.primary.grid.isLive key = true)
    (read : table.row key = .ok row) :
    row.visibleTo session = false ↔
      ∃ change ∈ table.primary.pending.row? key,
        change.deleted = false ∧ change.owner ≠ session := by
  rw [shared.sound.row_eq limit (Grid.lt_nextKey_of_isLive live)] at read
  cases read
  cases found : table.primary.pending.row? key with
  | none =>
      rw [PrimaryIndex.standing_of_row?_none found, live]
      simp [Standing.row]
  | some change =>
      have insert :=
        (shared.sound.coherent.agrees found).insert_of_isLive live
      have opened := shared.owned key
      rw [PrimaryIndex.standing_of_row?_some found, insert] at opened ⊢
      have opened : change.owner ≠ noSession := fun same =>
        opened (congrArg some same)
      simp [Standing.row, Row.visibleTo, opened, insert]

/-- A search that finds nothing has nothing to find or stops too early. -/
theorem Searchable.first_not_visible_iff (searchable : table.Searchable)
    (shared : table.Shared) (columns : table.columns ≠ []) {searched : Value} :
    (table.primary.liveRows.find?
        (PrimaryIndex.holdsAt position searched)).filter
          (fun row => row.visibleTo session) = none ↔
      (∀ row ∈ table.scanned session, row.deleted = false →
          row.value? position ≠ some searched) ∨
        table.FirstMatchHidden session position searched := by
  by_cases occurs : ∃ key, table.primary.grid.IsFirstWith position searched key
  · rcases occurs with ⟨key, first⟩
    rcases searchable.find?_of_isFirstWith first with ⟨row, read, found⟩
    have hidden : row.visibleTo session = false ↔ _ :=
      shared.visibleTo_eq_false_iff searchable.keysFit first.live read
    rw [found]
    cases visible : row.visibleTo session with
    | false =>
        rw [Option.filter_some_neg (by simpa using visible)]
        exact iff_of_true rfl (Or.inr ⟨key, first, hidden.1 visible⟩)
    | true =>
        have kept : (some row).filter (fun row => row.visibleTo session) =
            some row := Option.filter_some_pos visible
        rw [kept]
        refine iff_of_false nofun ?_
        rintro (without | ⟨other, otherFirst, change⟩)
        · have member := List.mem_of_find?_eq_some found
          rcases shared.mem_scanned_iff.2 ⟨member, visible⟩ with
            ⟨scanned, mark⟩
          exact
            without row scanned mark
              (PrimaryIndex.holdsAt_iff.1 (List.find?_some found))
        · rw [otherFirst.unique first] at change
          rw [hidden.2 change] at visible
          cases visible
  · have none :=
      searchable.find?_of_not_isFirstWith columns (not_exists.1 occurs)
    rw [none]
    refine iff_of_true rfl (Or.inl ?_)
    intro row scanned mark held
    have member := (shared.mem_scanned_iff.1 ⟨scanned, mark⟩).1
    exact
      List.find?_eq_none.1 none row member (PrimaryIndex.holdsAt_iff.2 held)

/--
In every table with changes that wait for a commit which a run from a new one
reaches without closing it, a search for a value that converts succeeds.  A row
that it finds is a live one with the value among those that its session scans.
It finds none exactly if its session scans no such row, or if the first row
with the value is one that another session has inserted without committing.
-/
theorem findEqual_eq_none_iff_of_run (id : TableId) (schema : Schema)
    (config : Config) (versioned : config.versioned = true)
    (actions : List Action)
    (sessions : Obeys BySession (create id schema config) actions)
    (limits : Obeys KeysFit (create id schema config) actions)
    (stays : Obeys StaysOpen (create id schema config) actions)
    (table : Table) (reached : (create id schema config).run actions = table)
    (session : Session) (name : String) (position : Nat) (column : Column)
    (first : IsFirstNamed table.columns name position column)
    (indexed : ∃ index ∈ table.secondary, index.column = position)
    (value searched : Value)
    (converts : value.convertTo column.type = .ok searched) :
    ∃ answer, table.findEqual session name value = .ok answer ∧
      (∀ row, answer = some row →
        row ∈ table.scanned session ∧ row.deleted = false ∧
          row.value? position = some searched) ∧
      (answer = none ↔
        (∀ row ∈ table.scanned session, row.deleted = false →
            row.value? position ≠ some searched) ∨
          table.FirstMatchHidden session position searched) := by
  have searchable := (Searchable.create id schema config).run limits stays
  have shared := (Shared.create id schema versioned).run sessions limits
  rw [reached] at searchable shared
  have columns := first.columns_ne_nil
  rcases indexed with ⟨index, member, indexed⟩
  refine ⟨_, ?_, ?_, searchable.first_not_visible_iff shared columns⟩
  · rw [searchable.findEqual_eq first member indexed, converts]
    rfl
  · intro row found
    rcases Option.filter_eq_some_iff.1 found with ⟨located, visible⟩
    have stored := List.mem_of_find?_eq_some located
    rcases shared.mem_scanned_iff.2 ⟨stored, visible⟩ with ⟨scanned, mark⟩
    exact
      ⟨scanned, mark, PrimaryIndex.holdsAt_iff.1 (List.find?_some located)⟩

/-- Two sessions insert the same value, and neither commits it. -/
def rivalActions : List Action :=
  [.insert 1 [.int 7], .insert 2 [.int 7], .addIndex "ByLevel" "Level"]

/-- The first of them finds its own row, and the second one nothing. -/
theorem findEqual_rivals :
    (∃ row, ((create 1 sampleSchema sampleConfig).run rivalActions).findEqual 1
        "Level" (.int 7) = .ok (some row)) ∧
      ((create 1 sampleSchema sampleConfig).run rivalActions).findEqual 2
        "Level" (.int 7) = .ok none := by
  have found := fun session =>
    findEqual_eq_none_iff_of_run 1 sampleSchema sampleConfig rfl rivalActions
      (by decide +kernel) (by decide +kernel) (by decide +kernel) _ rfl session
      "Level" 0 ⟨"Level", .int⟩
      ⟨by decide +kernel, by decide +kernel, by decide +kernel⟩
      (by decide +kernel) (.int 7) (.int 7) (by decide +kernel)
  have firstKey : ((create 1 sampleSchema sampleConfig).run
      rivalActions).primary.grid.IsFirstWith 0 (.int 7) 0 :=
    Grid.head?_keysWith_eq_some_iff.1 (by decide +kernel)
  have inserted : ∃ change ∈ ((create 1 sampleSchema sampleConfig).run
      rivalActions).primary.pending.row? 0,
        change.deleted = false ∧ change.owner ≠ 2 := by
    decide +kernel
  have own : ∀ change ∈ ((create 1 sampleSchema sampleConfig).run
      rivalActions).primary.pending.row? 0, change.owner = 1 := by
    decide +kernel
  constructor
  · rcases found 1 with ⟨answer, answered, -, missed⟩
    rw [answered]
    cases answer with
    | some row => exact ⟨row, rfl⟩
    | none =>
        rcases missed.1 rfl with without | ⟨key, first, change, pending, -, other⟩
        · exact
            absurd rfl
              (without ⟨0, [.int 7], false, 1⟩ (by decide +kernel) rfl)
        · rw [first.unique firstKey] at pending
          exact absurd (own change pending) other
  · rcases found 2 with ⟨answer, answered, -, missed⟩
    rw [answered, missed.2 (Or.inr ⟨0, firstKey, inserted⟩)]

/-- Without the exception the statement is wrong. -/
theorem not_every_visible_row_found :
    ¬∀ (id : TableId) (schema : Schema) (config : Config)
        (actions : List Action) (session : Session) (name : String)
        (position : Nat) (column : Column) (value searched : Value),
        config.versioned = true →
        Obeys BySession (create id schema config) actions →
        Obeys KeysFit (create id schema config) actions →
        Obeys StaysOpen (create id schema config) actions →
        IsFirstNamed ((create id schema config).run actions).columns name
          position column →
        (∃ index ∈ ((create id schema config).run actions).secondary,
          index.column = position) →
        value.convertTo column.type = .ok searched →
        (∃ row ∈ ((create id schema config).run actions).scanned session,
          row.deleted = false ∧ row.value? position = some searched) →
        ∃ row, ((create id schema config).run actions).findEqual session name
          value = .ok (some row) := by
  intro complete
  rcases complete 1 sampleSchema sampleConfig rivalActions 2 "Level" 0
      ⟨"Level", .int⟩ (.int 7) (.int 7) rfl (by decide +kernel)
      (by decide +kernel) (by decide +kernel)
      ⟨by decide +kernel, by decide +kernel, by decide +kernel⟩
      (by decide +kernel) (by decide +kernel) (by decide +kernel) with
    ⟨row, found⟩
  have missed : ((create 1 sampleSchema sampleConfig).run
      rivalActions).findEqual 2 "Level" (.int 7) = .ok none := by
    decide +kernel
  rw [missed] at found
  cases found

end Table

end VersionedColumns
