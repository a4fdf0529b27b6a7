import VersionedColumns.Proofs.Catalog.History
import VersionedColumns.Proofs.Table.Shared
import VersionedColumns.Proofs.Table.Transaction

/-!
# What a catalog answers

Given the calls of the past and their answers, the answer of a catalog to the
next call can be told without it: whether a name is free, which numbers come
next, which table is found, and what a drop leaves behind.  The two maps of a
catalog list the same tables, each table once.
-/

namespace VersionedColumns

/-! ## Tables that are dropped -/

namespace Table

/-- A table has neither rows nor equality indexes, and the next key is zero. -/
structure Emptied (table : Table) : Prop where
  secondary_eq : table.secondary = []
  nextKey_eq : table.primary.nextKey = 0
  storedRowCount_eq : table.storedRowCount = 0
  memoryUse_eq : table.memoryUse = 0
  scanned_eq : ∀ session, table.scanned session = []
  rowCount_eq : ∀ session, table.rowCount session = 0
  /-- The table can still be used. -/
  stores : ∀ session values converted,
    values.length = table.columns.length →
      convert table.columns values = .ok converted →
        (table.insert session values).1 = .ok 0

theorem Sound.emptied_discard {table : Table} (sound : table.discard.Sound) :
    table.discard.Emptied where
  secondary_eq := rfl
  nextKey_eq := rfl
  storedRowCount_eq := rfl
  memoryUse_eq := rfl
  scanned_eq := by
    intro session
    cases versioned : table.discard.primary.versioned with
    | false => exact Scan.remaining_start_of_immediate versioned session
    | true => exact Scan.remaining_start_of_versioned versioned session
  rowCount_eq := by
    intro session
    have nothing : PendingChanges.signedCount 0 = 0 := Int.zero_bmod
    rw [rowCount, PrimaryIndex.visibleRowCount, PendingChanges.rowCount]
    split
    · change (PendingChanges.signedCount 0 + 0 - 0).toNat = 0
      rw [nothing]
      rfl
    · rfl
  stores := by
    intro session values converted fitting converts
    rw [sound.insert_eq fitting converts session]
    rfl

end Table

namespace Catalog

variable {config : Config} {past : List Event} {catalog : Catalog}

/-! ## What a catalog answers -/

/-- The two maps of a catalog list the same tables, and each under one name. -/
structure Paired (catalog : Catalog) : Prop where
  listed : ∀ name id, catalog.names.get? name = some id →
    ∃ handle, catalog.handles.get? id = some handle
  named : ∀ id handle, catalog.handles.get? id = some handle →
    ∃! name, catalog.names.get? name = some id

/-- What a drop of a listed table makes of a catalog. -/
structure Drops (catalog : Catalog) (creation : Creation) (table : Table)
    (later : Catalog) : Prop where
  unlisted : later.handle creation.id = .error (.tableNotFound creation.id) ∧
    later.table creation.id = .error (.tableNotFound creation.id)
  unnamed : ∀ name, later.handleNamed? name =
    (catalog.handleNamed? name).filter fun found => found.id != creation.id
  tableUnnamed : ∀ name, later.tableNamed? name =
    (catalog.tableNamed? name).filter fun found => found.1 != creation.id
  others : ∀ id, id ≠ creation.id →
    later.handle id = catalog.handle id ∧ later.table id = catalog.table id
  othersHeld : ∀ handle, handle ≠ creation.handle →
    later.held? handle = catalog.held? handle
  held_eq : later.held? creation.handle = some table.discard
  emptied : table.discard.Emptied
  frees : ∀ schema : Schema,
    Text.sameLetters creation.schema.name schema.name = true →
      (later.createTable schema).1 =
        .ok ⟨catalog.tables.length + 1, catalog.tables.length + 1⟩

/-- What a catalog answers to the next call, in terms of its past alone. -/
structure Answers (config : Config) (past : List Event) (catalog : Catalog) :
    Prop where
  /-- Numbers are given in the order of creation, and none twice. -/
  numbered : (created past).map Creation.id =
    List.range' 1 (created past).length
  /-- So are handles. -/
  placed : (created past).map Creation.handle =
    List.range' 1 (created past).length
  create_taken : ∀ schema : Schema, ∀ creation ∈ live past,
    Text.sameLetters creation.schema.name schema.name = true →
      catalog.createTable schema =
        (.error (.duplicateTable schema.name), catalog)
  create_free : ∀ schema : Schema,
    (∀ creation ∈ live past,
      Text.sameLetters creation.schema.name schema.name = false) →
      (catalog.createTable schema).1 =
        .ok ⟨(created past).length + 1, (created past).length + 1⟩
  /-- The handle of a creation reaches the table, whether it is listed or not. -/
  held_eq : ∀ creation ∈ created past,
    catalog.held? creation.handle = some (creation.table config past)
  /-- A listed table is found by its number, and is what its handle reaches. -/
  table_live : ∀ creation ∈ live past,
    catalog.handle creation.id = .ok creation.handle ∧
      catalog.table creation.id = .ok (creation.table config past)
  table_gone : ∀ id, (∀ creation ∈ live past, creation.id ≠ id) →
    catalog.handle id = .error (.tableNotFound id) ∧
      catalog.table id = .error (.tableNotFound id)
  /-- So it is by its name. -/
  named_live : ∀ name, ∀ creation ∈ live past,
    Text.sameLetters creation.schema.name name = true →
      catalog.handleNamed? name = some ⟨creation.id, creation.handle⟩ ∧
        catalog.tableNamed? name =
          some (creation.id, creation.table config past)
  named_none : ∀ name,
    (∀ creation ∈ live past,
      Text.sameLetters creation.schema.name name = false) →
      catalog.handleNamed? name = none ∧ catalog.tableNamed? name = none
  /-- A name belongs to one listed table at most. -/
  unique : ∀ first ∈ live past, ∀ second ∈ live past,
    Text.sameLetters first.schema.name second.schema.name = true →
      first = second
  /-- No entry of either map is left behind, and none is lost. -/
  handles_iff : ∀ id handle, catalog.handles.get? id = some handle ↔
    ∃ creation ∈ live past, creation.id = id ∧ creation.handle = handle
  names_iff : ∀ name id, catalog.names.get? name = some id ↔
    ∃ creation ∈ live past,
      Text.capitals creation.schema.name = name ∧ creation.id = id
  paired : catalog.Paired
  drop_live : ∀ creation ∈ live past,
    (catalog.drop creation.id).1 = .ok () ∧
      Drops catalog creation (creation.table config past)
        (catalog.drop creation.id).2
  drop_gone : ∀ id, (∀ creation ∈ live past, creation.id ≠ id) →
    catalog.drop id = (.error (.tableNotFound id), catalog)
  /-- A call reaches its table, and the answer is that of the table. -/
  onListed_eq : ∀ creation ∈ live past, ∀ call,
    (catalog.perform (.onListed creation.id call)).1 =
      .ok (.answered ((creation.table config past).perform call).1)
  onHeld_eq : ∀ creation ∈ created past, ∀ call,
    (catalog.perform (.onHeld creation.handle call)).1 =
      .ok (.answered ((creation.table config past).perform call).1)
  tableCount_eq : catalog.tableCount = (live past).length
  /-- Sessions are numbered from one, by a counter of 32 bits. -/
  opened_eq : opened past =
    (List.range' 1 (opened past).length).map (· % 2 ^ 32)
  openSession_eq : catalog.openSession.1 =
    ((opened past).length + 1) % 2 ^ 32
  /-- Until the bits are used up, a session gets a number of its own. -/
  openSession_fresh : (opened past).length + 1 < 2 ^ 32 →
    catalog.openSession.1 = (opened past).length + 1 ∧
      catalog.openSession.1 ≠ noSession ∧
        catalog.openSession.1 ∉ opened past

/-! ## The two maps -/

theorem Recorded.paired (recorded : Recorded config past catalog) :
    catalog.Paired where
  listed := by
    intro name id found
    rcases recorded.names_iff.1 found with ⟨creation, member, -, rfl⟩
    exact ⟨creation.handle, recorded.handles_of_live member⟩
  named := by
    intro id handle found
    rcases recorded.handles_iff.1 found with ⟨creation, member, rfl, rfl⟩
    refine
      ⟨Text.capitals creation.schema.name,
        recorded.names_iff.2 ⟨creation, member, rfl, rfl⟩, ?_⟩
    intro name named
    rcases recorded.names_iff.1 named with ⟨other, otherMember, rfl, same⟩
    rw [recorded.eq_of_id (mem_created_of_live otherMember)
      (mem_created_of_live member) same]

/-! ## Dropping a table -/

theorem Recorded.drop_of_live (recorded : Recorded config past catalog)
    {creation : Creation} (member : creation ∈ live past) :
    catalog.drop creation.id =
      (.ok (), (catalog.unlist creation.id).update creation.handle
        (creation.table config past).discard) := by
  have held : (catalog.unlist creation.id).held? creation.handle =
      some (creation.table config past) :=
    recorded.held_eq creation (mem_created_of_live member)
  rw [Catalog.drop, recorded.handle_of_live member]
  dsimp only
  rw [held]

theorem mem_live_drop {creation other : Creation} (reply : Reply) :
    other ∈ live (past ++ [(.drop creation.id, .ok reply)]) ↔
      other ∈ live past ∧ other.id ≠ creation.id := by
  rw [live_concat_of_drop, List.mem_filter, bne_iff_ne]

/-- A drop of one table leaves no trace in another. -/
theorem table_drop_of_ne {creation other : Creation}
    (differs : other.id ≠ creation.id) (reply : Reply) :
    other.table config (past ++ [(.drop creation.id, .ok reply)]) =
      other.table config past := by
  have misses : other.reached? (.drop creation.id, .ok reply) = none :=
    if_neg differs.symm
  rw [other.table_concat, misses, Option.toList_none, Table.run_nil]

/-- Without a dropped table a name is that of another listed table. -/
theorem Recorded.named_drop (recorded : Recorded config past catalog)
    {creation : Creation} {reply : Reply} {result : Catalog}
    (later : Recorded config (past ++ [(.drop creation.id, .ok reply)]) result)
    (name : String) :
    result.handleNamed? name =
        (catalog.handleNamed? name).filter (fun found =>
          found.id != creation.id) ∧
      result.tableNamed? name =
        (catalog.tableNamed? name).filter fun found =>
          found.1 != creation.id := by
  rcases named_or_unnamed (live past) name with
    ⟨other, otherMember, named⟩ | unnamed
  · have known := mem_created_of_live otherMember
    have found := recorded.handleNamed?_of_named otherMember named
    rw [recorded.tableNamed?_eq known found, found]
    by_cases same : other.id = creation.id
    · rw [Option.filter_some_neg (by simpa using same),
        Option.filter_some_neg (by simpa using same)]
      have gone : result.handleNamed? name = none := by
        apply later.handleNamed?_of_unnamed
        intro third thirdMember
        rcases (mem_live_drop _).1 thirdMember with ⟨listed, differs⟩
        rw [← Bool.not_eq_true]
        intro thirdNamed
        have equal :=
          recorded.eq_of_sameLetters listed otherMember
            (Text.sameLetters_trans thirdNamed named)
        exact differs (equal ▸ same)
      exact ⟨gone, tableNamed?_of_none gone⟩
    · have kept := (mem_live_drop reply).2 ⟨otherMember, same⟩
      have still := later.handleNamed?_of_named kept named
      rw [Option.filter_some_pos (by simpa using same),
        Option.filter_some_pos (by simpa using same), still,
        later.tableNamed?_eq (mem_created_of_live kept) still,
        table_drop_of_ne same]
      exact ⟨rfl, rfl⟩
  · have before := recorded.handleNamed?_of_unnamed unnamed
    have after : result.handleNamed? name = none :=
      later.handleNamed?_of_unnamed fun other otherMember =>
        unnamed other ((mem_live_drop _).1 otherMember).1
    rw [before, after, tableNamed?_of_none before, tableNamed?_of_none after]
    exact ⟨rfl, rfl⟩

/-- The other tables are found as before. -/
theorem Recorded.table_drop (recorded : Recorded config past catalog)
    {creation : Creation} {reply : Reply} {result : Catalog}
    (later : Recorded config (past ++ [(.drop creation.id, .ok reply)]) result)
    {id : TableId} (differs : id ≠ creation.id) :
    result.handle id = catalog.handle id ∧
      result.table id = catalog.table id := by
  rcases listed_or_gone (live past) id with ⟨other, member, rfl⟩ | gone
  · have kept := (mem_live_drop reply).2 ⟨member, differs⟩
    rw [recorded.handle_of_live member, recorded.table_of_live member,
      later.handle_of_live kept, later.table_of_live kept,
      table_drop_of_ne differs]
    exact ⟨rfl, rfl⟩
  · have still : ∀ other ∈ live (past ++ [(.drop creation.id, .ok reply)]),
        other.id ≠ id :=
      fun other member => gone other ((mem_live_drop _).1 member).1
    rw [recorded.handle_of_gone gone, recorded.table_of_gone gone,
      later.handle_of_gone still, later.table_of_gone still]
    exact ⟨rfl, rfl⟩

/-- A drop takes exactly its table out of both look-ups, and empties it. -/
theorem Recorded.drops (recorded : Recorded config past catalog)
    (fits : catalog.tables.length + 1 < 2 ^ 64) {creation : Creation}
    (member : creation ∈ live past) :
    Drops catalog creation (creation.table config past)
      ((catalog.unlist creation.id).update creation.handle
        (creation.table config past).discard) := by
  have known := mem_created_of_live member
  have found := recorded.held_eq creation known
  have later := recorded.drop known .done
  have held := @held?_update (catalog.unlist creation.id) creation.handle _
    found (creation.table config past).discard
  have size := (catalog.unlist creation.id).update_tables_length
    creation.handle (creation.table config past).discard
  generalize (catalog.unlist creation.id).update creation.handle
    (creation.table config past).discard = result at later held size ⊢
  have gone : ∀ other ∈ live (past ++ [(.drop creation.id, .ok .done)]),
      other.id ≠ creation.id :=
    fun other otherMember => ((mem_live_drop _).1 otherMember).2
  constructor
  · exact ⟨later.handle_of_gone gone, later.table_of_gone gone⟩
  · exact fun name => (recorded.named_drop later name).1
  · exact fun name => (recorded.named_drop later name).2
  · exact fun id differs => recorded.table_drop later differs
  · exact fun handle differs => (held handle).trans (if_neg differs)
  · exact (held creation.handle).trans (if_pos rfl)
  · exact (Table.sound_discard_run _ _ _ _).emptied_discard
  · intro schema named
    have unnamed : ∀ other ∈ live (past ++ [(.drop creation.id, .ok .done)]),
        Text.sameLetters other.schema.name schema.name = false := by
      intro other otherMember
      rcases (mem_live_drop _).1 otherMember with ⟨listed, differs⟩
      rw [← Bool.not_eq_true]
      intro otherNamed
      have equal :=
        recorded.eq_of_sameLetters listed member
          (Text.sameLetters_trans otherNamed named)
      exact differs (congrArg Creation.id equal)
    have same : result.tables.length = catalog.tables.length := size
    rw [← same] at fits ⊢
    rw [later.createTable_of_unnamed fits unnamed]

/-! ## Opening a session -/

theorem Recorded.openSession_eq (recorded : Recorded config past catalog) :
    catalog.openSession.1 = ((opened past).length + 1) % 2 ^ 32 := by
  rw [openSession, recorded.nextSession_eq, UInt32.toNat_ofNat']

/-- A counter that has not come round gives a number that was not given. -/
theorem Recorded.openSession_fresh (recorded : Recorded config past catalog)
    (fits : (opened past).length + 1 < 2 ^ 32) :
    catalog.openSession.1 = (opened past).length + 1 ∧
      catalog.openSession.1 ≠ noSession ∧
        catalog.openSession.1 ∉ opened past := by
  have next := recorded.openSession_eq
  rw [Nat.mod_eq_of_lt fits] at next
  rw [next]
  refine ⟨rfl, Nat.succ_ne_zero _, ?_⟩
  rw [recorded.opened_eq, List.mem_map]
  rintro ⟨session, member, same⟩
  have below := (List.mem_range'_1.1 member).2
  rw [Nat.mod_eq_of_lt (by grind)] at same
  grind

/-! ## After every run -/

/--
Whatever calls a catalog has taken, among them calls that failed and calls on
its tables, it answers the next one by what its past tells.  Names of listed
tables are taken, letter case aside, and any other name gets the next number.
A listed table is found by its number and by its name, and is the one that the
handle of its creation reaches; it is what the calls that have reached it make
of a new table.  A drop fails unless the table is listed, and takes it, and
nothing else, out of both look-ups.  Neither map has an entry that the other
has not.  Sessions are numbered from one.  The number of tables is one that the
counter of 64 bits can count; that of sessions may be any.
-/
theorem answers_of_run (config : Config) (actions : List Action)
    (fits : (created (history (empty config) actions)).length + 1 < 2 ^ 64) :
    Answers config (history (empty config) actions)
      ((empty config).run actions) := by
  have recorded := (Recorded.empty config).run actions fits
  rw [List.nil_append] at recorded
  generalize history (empty config) actions = past at recorded fits ⊢
  generalize (empty config).run actions = catalog at recorded ⊢
  have size := recorded.created_length
  have room : catalog.tables.length + 1 < 2 ^ 64 := by rwa [← size]
  constructor
  · rw [recorded.ids_eq, size]
  · rw [recorded.handles_eq, size]
  · intro schema creation member named
    exact createTable_of_named (recorded.names_of_named member named)
  · intro schema unnamed
    rw [size, recorded.createTable_of_unnamed room unnamed]
  · exact recorded.held_eq
  · intro creation member
    exact ⟨recorded.handle_of_live member, recorded.table_of_live member⟩
  · intro id gone
    exact ⟨recorded.handle_of_gone gone, recorded.table_of_gone gone⟩
  · intro name creation member named
    have found := recorded.handleNamed?_of_named member named
    exact
      ⟨found, recorded.tableNamed?_eq (mem_created_of_live member) found⟩
  · intro name unnamed
    have none := recorded.handleNamed?_of_unnamed unnamed
    exact ⟨none, tableNamed?_of_none none⟩
  · intro first firstMember second secondMember same
    exact recorded.eq_of_sameLetters firstMember secondMember same
  · exact fun id handle => recorded.handles_iff
  · exact fun name id => recorded.names_iff
  · exact recorded.paired
  · intro creation member
    rw [recorded.drop_of_live member]
    exact ⟨rfl, recorded.drops room member⟩
  · intro id gone
    rw [drop, recorded.handle_of_gone gone]
  · intro creation member call
    rw [perform, recorded.handle_of_live member]
    dsimp only
    rw [pass, recorded.held_eq creation (mem_created_of_live member)]
  · intro creation member call
    rw [perform, pass, recorded.held_eq creation member]
  · rw [tableCount, KeyMap.size, recorded.listings_eq, List.length_map]
  · exact recorded.opened_eq
  · exact recorded.openSession_eq
  · exact recorded.openSession_fresh

/--
A name is refused in capitals, given up by a drop and given again in small
letters, while the handle of the first table is still called.
-/
def renewedActions : List Action :=
  [.create Table.sampleSchema,
    .create { Table.sampleSchema with name := "READINGS" },
    .openSession, .onListed 1 (.insert 1 [.int 7]), .drop 1,
    .create { Table.sampleSchema with name := "readings" },
    .onHeld 1 (.insert 1 [.int 8]), .onHeld 1 (.insert 1 [.int 9])]

/-- The name leads to the second table, and the first handle to the first. -/
theorem answers_of_renewed_name :
    (created (history (empty Table.sampleConfig) renewedActions)).length + 1 <
        2 ^ 64 ∧
      (((empty Table.sampleConfig).run renewedActions).createTable
        Table.sampleSchema).1 = .error (.duplicateTable "Readings") ∧
      (((empty Table.sampleConfig).run renewedActions).createTable
        { Table.sampleSchema with name := "Others" }).1 = .ok ⟨3, 3⟩ ∧
      ((empty Table.sampleConfig).run renewedActions).handleNamed? "Readings" =
        some ⟨2, 2⟩ ∧
      ((empty Table.sampleConfig).run renewedActions).handle 1 =
        .error (.tableNotFound 1) ∧
      (((empty Table.sampleConfig).run renewedActions).held? 1).map
        Table.storedRowCount = some 2 ∧
      (((empty Table.sampleConfig).run renewedActions).held? 2).map
        Table.storedRowCount = some 0 ∧
      ((empty Table.sampleConfig).run renewedActions).tableCount = 1 ∧
      ((empty Table.sampleConfig).run renewedActions).openSession.1 = 2 := by
  have fits : (created (history (empty Table.sampleConfig)
      renewedActions)).length + 1 < 2 ^ 64 := by
    decide +kernel
  have answers := answers_of_run Table.sampleConfig renewedActions fits
  let first : Creation := ⟨1, 1, Table.sampleSchema⟩
  let second : Creation := ⟨2, 2, { Table.sampleSchema with name := "readings" }⟩
  have created : created (history (empty Table.sampleConfig) renewedActions) =
      [first, second] := by
    decide +kernel
  have live : live (history (empty Table.sampleConfig) renewedActions) =
      [second] := by
    decide +kernel
  have kept : second ∈
      Catalog.live (history (empty Table.sampleConfig) renewedActions) := by
    rw [live]
    exact List.mem_cons_self
  refine ⟨fits, ?_, ?_, ?_, ?_, ?_, ?_, ?_, ?_⟩
  · rw [answers.create_taken Table.sampleSchema second kept (by decide +kernel)]
    rfl
  · rw [answers.create_free _ (by rw [live]; decide +kernel), created]
    rfl
  · exact (answers.named_live "Readings" second kept (by decide +kernel)).1
  · exact (answers.table_gone 1 (by rw [live]; decide +kernel)).1
  · have held := answers.held_eq first (by rw [created]; exact List.mem_cons_self)
    rw [held, Option.map_some]
    decide +kernel
  · have held := answers.held_eq second (by rw [created]; simp)
    rw [held, Option.map_some]
    decide +kernel
  · rw [answers.tableCount_eq, live]
    rfl
  · rw [answers.openSession_eq]
    decide +kernel

end Catalog

end VersionedColumns
