import Mathlib
import VersionedColumns.Catalog.Action

/-!
# The past of a catalog

The calls that a catalog has taken and their answers tell everything about it:
which tables were created and in which order, which of them are listed still,
and which calls have reached each of them.  The main statement says that this
record is true of a catalog after every run, both maps and both counters
included, as long as the number of the next table fits its 64 bits.

A table is its own: calls on other tables, and tables that were created under
the same name before or after it, leave no trace in it.
-/

namespace VersionedColumns

namespace Text

/-- Texts that are the same without case are so when all letters are capital. -/
theorem capitals_eq_iff {left right : String} :
    capitals left = capitals right ↔ sameLetters left right = true := by
  have small (text : List Char) :
      smallLetters (text.map Char.toUpper) = smallLetters text := by
    rw [smallLetters, List.map_map]
    exact List.map_congr_left fun letter _ =>
      Char.toLower_toUpper_eq_toLower letter
  have capital (text : List Char) :
      (smallLetters text).map Char.toUpper = text.map Char.toUpper := by
    rw [smallLetters, List.map_map]
    exact List.map_congr_left fun letter _ =>
      Char.toUpper_toLower_eq_toUpper letter
  rw [sameLetters_iff, capitals, capitals, String.ofList_inj]
  constructor
  · intro same
    rw [← small left.toList, same, small]
  · intro same
    rw [← capital left.toList, same, capital]

theorem sameLetters_trans {first second third : String}
    (one : sameLetters first second = true)
    (other : sameLetters third second = true) :
    sameLetters first third = true := by
  rw [sameLetters_iff] at *
  exact one.trans other.symm

end Text

namespace Catalog

/-! ## The past -/

/-- A call with the answer that it got. -/
abbrev Event := Action × Except Error Reply

/-- The calls of a run with the answers that they get. -/
def history : Catalog → List Action → List Event
  | _, [] => []
  | catalog, action :: rest =>
    (action, (catalog.perform action).1) :: history (catalog.after action) rest

/-- A table that was created: what it was answered, and what it was made from. -/
structure Creation where
  id : TableId
  handle : Handle
  schema : Schema
deriving DecidableEq

/-- The table that a call has created. -/
def creation? : Event → Option Creation
  | (.create schema, .ok (.table found)) =>
    some ⟨found.id, found.handle, schema⟩
  | _ => none

/-- The number of the table that a call has dropped. -/
def dropping? : Event → Option TableId
  | (.drop id, .ok _) => some id
  | _ => none

/-- The session that a call has opened. -/
def opening? : Event → Option Session
  | (.openSession, .ok (.session session)) => some session
  | _ => none

/-- The call on a created table that an event has made of it. -/
def Creation.reached? (creation : Creation) : Event → Option Table.Action
  | (.drop id, .ok _) => if id = creation.id then some .discard else none
  | (.onListed id call, .ok _) => if id = creation.id then some call else none
  | (.onHeld handle call, .ok _) =>
    if handle = creation.handle then some call else none
  | _ => none

/-- The tables that were created, the first one first. -/
def created (past : List Event) : List Creation :=
  past.filterMap creation?

/-- The numbers of the tables that were dropped. -/
def dropped (past : List Event) : List TableId :=
  past.filterMap dropping?

/-- The tables that were created and not dropped. -/
def live (past : List Event) : List Creation :=
  (created past).filter fun creation => creation.id ∉ dropped past

/-- The sessions that were opened. -/
def opened (past : List Event) : List Session :=
  past.filterMap opening?

/-- The calls that have reached a created table. -/
def Creation.calls (creation : Creation) (past : List Event) :
    List Table.Action :=
  past.filterMap creation.reached?

/-- What a table has become under the calls that have reached it. -/
def Creation.table (creation : Creation) (config : Config)
    (past : List Event) : Table :=
  (Table.create creation.id creation.schema config).run (creation.calls past)

/-- The entry of a table in the map of handles. -/
def Creation.listing (creation : Creation) : TableId × Handle :=
  (creation.id, creation.handle)

/-- The entry of a table in the map of names. -/
def Creation.naming (creation : Creation) : String × TableId :=
  (Text.capitals creation.schema.name, creation.id)

/-! ## One more event -/

theorem filterMap_concat {Item : Type} (told? : Event → Option Item)
    (past : List Event) (event : Event) :
    (past ++ [event]).filterMap told? =
      past.filterMap told? ++ (told? event).toList := by
  rw [List.filterMap_append]
  cases told : told? event <;> simp [told]

theorem created_concat (past : List Event) (event : Event) :
    created (past ++ [event]) = created past ++ (creation? event).toList :=
  filterMap_concat creation? past event

theorem dropped_concat (past : List Event) (event : Event) :
    dropped (past ++ [event]) = dropped past ++ (dropping? event).toList :=
  filterMap_concat dropping? past event

theorem opened_concat (past : List Event) (event : Event) :
    opened (past ++ [event]) = opened past ++ (opening? event).toList :=
  filterMap_concat opening? past event

theorem Creation.calls_concat (creation : Creation) (past : List Event)
    (event : Event) :
    creation.calls (past ++ [event]) =
      creation.calls past ++ (creation.reached? event).toList :=
  filterMap_concat creation.reached? past event

/-- A table takes the call by which an event reaches it, and no other. -/
theorem Creation.table_concat (creation : Creation) (config : Config)
    (past : List Event) (event : Event) :
    creation.table config (past ++ [event]) =
      (creation.table config past).run (creation.reached? event).toList := by
  rw [Creation.table, Creation.calls_concat, Table.run_append, Creation.table]

/-- A table that no event has dropped stays listed. -/
theorem live_concat_of_none {event : Event} (creates : creation? event = none)
    (drops : dropping? event = none) (past : List Event) :
    live (past ++ [event]) = live past := by
  rw [live, created_concat, dropped_concat, creates, drops, Option.toList_none,
    Option.toList_none, List.append_nil, List.append_nil, live]

/-- A table that is created is listed behind the others. -/
theorem live_concat_of_creation {event : Event} {creation : Creation}
    (creates : creation? event = some creation)
    (drops : dropping? event = none) {past : List Event}
    (kept : creation.id ∉ dropped past) :
    live (past ++ [event]) = live past ++ [creation] := by
  rw [live, created_concat, dropped_concat, creates, drops, Option.toList_none,
    Option.toList_some, List.append_nil, List.filter_append,
    List.filter_cons_of_pos (by simpa using kept), List.filter_nil, live]

theorem live_concat_of_drop (id : TableId) (reply : Reply)
    (past : List Event) :
    live (past ++ [(.drop id, .ok reply)]) =
      (live past).filter fun creation => creation.id != id := by
  rw [live, created_concat, dropped_concat, live, List.filter_filter]
  have created : creation? (.drop id, .ok reply) = none := rfl
  have dropped : dropping? (.drop id, .ok reply) = some id := rfl
  rw [created, dropped, Option.toList_none, List.append_nil]
  apply List.filter_congr
  intro creation _
  rw [Bool.eq_iff_iff]
  simp [and_comm]

theorem mem_created_of_live {past : List Event} {creation : Creation}
    (member : creation ∈ live past) :
    creation ∈ created past :=
  (List.mem_filter.1 member).1

/-! ## Tables by handle -/

theorem le_of_held? {catalog : Catalog} {handle : Handle} {table : Table}
    (held : catalog.held? handle = some table) :
    handle ≠ 0 ∧ handle ≤ catalog.tables.length := by
  rw [held?] at held
  split at held
  · cases held
  · rename_i positive
    have inside := (List.getElem?_eq_some_iff.1 held).1
    exact ⟨positive, by grind⟩

/-- A table that is updated is held as it is then, and all others as before. -/
theorem held?_update {catalog : Catalog} {handle : Handle} {old : Table}
    (held : catalog.held? handle = some old) (table : Table)
    (other : Handle) :
    (catalog.update handle table).held? other =
      if other = handle then some table else catalog.held? other := by
  rcases le_of_held? held with ⟨positive, within⟩
  rw [update, held?, held?, if_neg positive]
  by_cases none : other = 0
  · rw [if_pos none, if_pos none, if_neg (none.trans_ne positive.symm)]
  · rw [if_neg none, if_neg none, List.getElem?_set]
    by_cases same : other = handle
    · rw [if_pos same, same, if_pos rfl, if_pos (by grind)]
    · rw [if_neg same, if_neg (by grind)]

@[simp]
theorem update_tables_length (catalog : Catalog) (handle : Handle)
    (table : Table) :
    (catalog.update handle table).tables.length = catalog.tables.length := by
  rw [update]
  split
  · rfl
  · exact List.length_set

/-- A table that comes behind the others is held by a handle of its own. -/
theorem held?_of_append {catalog later : Catalog} {table : Table}
    (tables : later.tables = catalog.tables ++ [table]) (handle : Handle) :
    later.held? handle =
      if handle = catalog.tables.length + 1 then some table
      else catalog.held? handle := by
  rw [held?, held?, tables]
  by_cases none : handle = 0
  · rw [if_pos none, if_pos none, if_neg (by grind)]
  · rw [if_neg none, if_neg none]
    by_cases last : handle = catalog.tables.length + 1
    · rw [if_pos last, last]
      exact List.getElem?_concat_length
    · rw [if_neg last, List.getElem?_append]
      split
      · rfl
      · rw [List.getElem?_eq_none (by grind), List.getElem?_eq_none (by grind)]

/-! ## A catalog and its past -/

/-- The past of a catalog tells its tables, its maps and its counters. -/
structure Recorded (config : Config) (past : List Event) (catalog : Catalog) :
    Prop where
  config_eq : catalog.config = config
  ids_eq : (created past).map Creation.id =
    List.range' 1 catalog.tables.length
  handles_eq : (created past).map Creation.handle =
    List.range' 1 catalog.tables.length
  held_eq : ∀ creation ∈ created past,
    catalog.held? creation.handle = some (creation.table config past)
  dropped_le : ∀ id ∈ dropped past, id ≤ catalog.tables.length
  /-- No call has reached a table that is yet to be created. -/
  calls_eq : ∀ creation : Creation, catalog.tables.length < creation.id →
    catalog.tables.length < creation.handle → creation.calls past = []
  listings_eq : catalog.handles.entries = (live past).map Creation.listing
  namings_eq : catalog.names.entries = (live past).map Creation.naming
  nextTable_eq : catalog.nextTable = .ofNat (catalog.tables.length + 1)
  nextSession_eq : catalog.nextSession = .ofNat ((opened past).length + 1)
  opened_eq : opened past =
    (List.range' 1 (opened past).length).map (· % 2 ^ 32)

theorem Recorded.empty (config : Config) : Recorded config [] (empty config) where
  config_eq := rfl
  ids_eq := rfl
  handles_eq := rfl
  held_eq := nofun
  dropped_le := nofun
  calls_eq := fun _ _ _ => rfl
  listings_eq := rfl
  namings_eq := rfl
  nextTable_eq := rfl
  nextSession_eq := rfl
  opened_eq := rfl

variable {config : Config} {past : List Event} {catalog : Catalog}

/-! ## Numbers of tables -/

theorem Recorded.created_length (recorded : Recorded config past catalog) :
    (created past).length = catalog.tables.length := by
  have counted := congrArg List.length recorded.ids_eq
  rw [List.length_map, List.length_range'] at counted
  exact counted

/-- A table is numbered as it is placed. -/
theorem Recorded.handle_eq (recorded : Recorded config past catalog)
    {creation : Creation} (member : creation ∈ created past) :
    creation.handle = creation.id :=
  List.map_inj_left.1 (recorded.handles_eq.trans recorded.ids_eq.symm)
    creation member

theorem Recorded.id_le (recorded : Recorded config past catalog)
    {creation : Creation} (member : creation ∈ created past) :
    1 ≤ creation.id ∧ creation.id ≤ catalog.tables.length := by
  have numbered : creation.id ∈ (created past).map Creation.id :=
    List.mem_map_of_mem member
  rw [recorded.ids_eq, List.mem_range'_1] at numbered
  grind

/-- No two tables have one number. -/
theorem Recorded.eq_of_id (recorded : Recorded config past catalog)
    {first second : Creation} (firstMember : first ∈ created past)
    (secondMember : second ∈ created past) (same : first.id = second.id) :
    first = second := by
  have apart : ((created past).map Creation.id).Nodup := by
    rw [recorded.ids_eq]
    exact List.nodup_range'
  exact List.inj_on_of_nodup_map apart firstMember secondMember same

/-! ## The two maps -/

/-- The first map leads from the numbers of the listed tables to the handles. -/
theorem Recorded.handles_iff (recorded : Recorded config past catalog)
    {id : TableId} {handle : Handle} :
    catalog.handles.get? id = some handle ↔
      ∃ creation ∈ live past, creation.id = id ∧ creation.handle = handle := by
  rw [KeyMap.get?_eq_some_iff, recorded.listings_eq, List.mem_map]
  simp only [Creation.listing, Prod.mk.injEq]

/-- The second map leads from their names to the numbers. -/
theorem Recorded.names_iff (recorded : Recorded config past catalog)
    {name : String} {id : TableId} :
    catalog.names.get? name = some id ↔
      ∃ creation ∈ live past,
        Text.capitals creation.schema.name = name ∧ creation.id = id := by
  rw [KeyMap.get?_eq_some_iff, recorded.namings_eq, List.mem_map]
  simp only [Creation.naming, Prod.mk.injEq]

theorem Recorded.handles_of_live (recorded : Recorded config past catalog)
    {creation : Creation} (member : creation ∈ live past) :
    catalog.handles.get? creation.id = some creation.handle :=
  recorded.handles_iff.2 ⟨creation, member, rfl, rfl⟩

theorem Recorded.handles_of_gone (recorded : Recorded config past catalog)
    {id : TableId} (gone : ∀ creation ∈ live past, creation.id ≠ id) :
    catalog.handles.get? id = none := by
  cases found : catalog.handles.get? id with
  | none => rfl
  | some handle =>
      rcases recorded.handles_iff.1 found with ⟨creation, member, same, -⟩
      exact absurd same (gone creation member)

theorem Recorded.names_of_named (recorded : Recorded config past catalog)
    {creation : Creation} (member : creation ∈ live past) {name : String}
    (named : Text.sameLetters creation.schema.name name = true) :
    catalog.names.get? (Text.capitals name) = some creation.id :=
  recorded.names_iff.2 ⟨creation, member, Text.capitals_eq_iff.2 named, rfl⟩

theorem Recorded.names_of_unnamed (recorded : Recorded config past catalog)
    {name : String}
    (unnamed : ∀ creation ∈ live past,
      Text.sameLetters creation.schema.name name = false) :
    catalog.names.get? (Text.capitals name) = none := by
  cases found : catalog.names.get? (Text.capitals name) with
  | none => rfl
  | some id =>
      rcases recorded.names_iff.1 found with ⟨creation, member, same, -⟩
      have named := Text.capitals_eq_iff.1 same
      rw [unnamed creation member] at named
      cases named

/-- No two listed tables have one name, as no label of a map occurs twice. -/
theorem Recorded.eq_of_sameLetters (recorded : Recorded config past catalog)
    {first second : Creation} (firstMember : first ∈ live past)
    (secondMember : second ∈ live past)
    (same : Text.sameLetters first.schema.name second.schema.name = true) :
    first = second := by
  have apart := catalog.names.labels_nodup
  rw [recorded.namings_eq, List.map_map] at apart
  exact
    List.inj_on_of_nodup_map apart firstMember secondMember
      (Text.capitals_eq_iff.2 same)

/-- Some listed table has a number, or none has. -/
theorem listed_or_gone (creations : List Creation) (id : TableId) :
    (∃ creation ∈ creations, creation.id = id) ∨
      ∀ creation ∈ creations, creation.id ≠ id := by
  by_cases listed : ∃ creation ∈ creations, creation.id = id
  · exact Or.inl listed
  · exact Or.inr fun creation member same => listed ⟨creation, member, same⟩

/-- Some listed table has a name, or none has. -/
theorem named_or_unnamed (creations : List Creation) (name : String) :
    (∃ creation ∈ creations,
        Text.sameLetters creation.schema.name name = true) ∨
      ∀ creation ∈ creations,
        Text.sameLetters creation.schema.name name = false := by
  by_cases named : ∃ creation ∈ creations,
      Text.sameLetters creation.schema.name name = true
  · exact Or.inl named
  · refine Or.inr fun creation member => ?_
    rw [← Bool.not_eq_true]
    exact fun same => named ⟨creation, member, same⟩

/-! ## Finding tables -/

theorem Recorded.handle_of_live (recorded : Recorded config past catalog)
    {creation : Creation} (member : creation ∈ live past) :
    catalog.handle creation.id = .ok creation.handle := by
  rw [handle, recorded.handles_of_live member]

theorem Recorded.handle_of_gone (recorded : Recorded config past catalog)
    {id : TableId} (gone : ∀ creation ∈ live past, creation.id ≠ id) :
    catalog.handle id = .error (.tableNotFound id) := by
  rw [handle, recorded.handles_of_gone gone]

theorem Recorded.table_of_live (recorded : Recorded config past catalog)
    {creation : Creation} (member : creation ∈ live past) :
    catalog.table creation.id = .ok (creation.table config past) := by
  rw [table, recorded.handles_of_live member, Option.bind_some,
    recorded.held_eq creation (mem_created_of_live member)]

theorem Recorded.table_of_gone (recorded : Recorded config past catalog)
    {id : TableId} (gone : ∀ creation ∈ live past, creation.id ≠ id) :
    catalog.table id = .error (.tableNotFound id) := by
  rw [table, recorded.handles_of_gone gone]
  rfl

theorem Recorded.handleNamed?_of_named
    (recorded : Recorded config past catalog) {creation : Creation}
    (member : creation ∈ live past) {name : String}
    (named : Text.sameLetters creation.schema.name name = true) :
    catalog.handleNamed? name = some ⟨creation.id, creation.handle⟩ := by
  simp only [handleNamed?, recorded.names_of_named member named,
    recorded.handles_of_live member, Option.bind_eq_bind, Option.bind_some,
    Option.pure_def]

theorem Recorded.handleNamed?_of_unnamed
    (recorded : Recorded config past catalog) {name : String}
    (unnamed : ∀ creation ∈ live past,
      Text.sameLetters creation.schema.name name = false) :
    catalog.handleNamed? name = none := by
  rw [handleNamed?, recorded.names_of_unnamed unnamed]
  rfl

/-- The table with a name is the one that its handle reaches. -/
theorem Recorded.tableNamed?_eq (recorded : Recorded config past catalog)
    {creation : Creation} (member : creation ∈ created past) {name : String}
    (found : catalog.handleNamed? name =
      some ⟨creation.id, creation.handle⟩) :
    catalog.tableNamed? name =
      some (creation.id, creation.table config past) := by
  simp only [tableNamed?, found, recorded.held_eq creation member,
    Option.bind_eq_bind, Option.bind_some, Option.pure_def]

theorem tableNamed?_of_none {name : String}
    (found : catalog.handleNamed? name = none) :
    catalog.tableNamed? name = none := by
  rw [tableNamed?, found]
  rfl

/-! ## What a call adds to the past -/

/-- An event that reaches no table leaves the tables and both maps. -/
theorem Recorded.unreached (recorded : Recorded config past catalog)
    {event : Event} (creates : creation? event = none)
    (drops : dropping? event = none)
    (reaches : ∀ creation : Creation, creation.reached? event = none)
    {session : UInt32}
    (nextSession : session = .ofNat ((opened (past ++ [event])).length + 1))
    (numbered : opened (past ++ [event]) =
      (List.range' 1 (opened (past ++ [event])).length).map (· % 2 ^ 32)) :
    Recorded config (past ++ [event])
      { catalog with nextSession := session } := by
  have created := created_concat past event
  have dropped := dropped_concat past event
  have live := live_concat_of_none creates drops past
  have calls (creation : Creation) :
      creation.calls (past ++ [event]) = creation.calls past := by
    rw [creation.calls_concat, reaches, Option.toList_none, List.append_nil]
  rw [creates, Option.toList_none, List.append_nil] at created
  rw [drops, Option.toList_none, List.append_nil] at dropped
  constructor
  · exact recorded.config_eq
  · rw [created]
    exact recorded.ids_eq
  · rw [created]
    exact recorded.handles_eq
  · intro creation member
    rw [created] at member
    rw [Creation.table, calls]
    exact recorded.held_eq creation member
  · rw [dropped]
    exact recorded.dropped_le
  · intro creation
    rw [calls]
    exact recorded.calls_eq creation
  · rw [live]
    exact recorded.listings_eq
  · rw [live]
    exact recorded.namings_eq
  · exact recorded.nextTable_eq
  · exact nextSession
  · exact numbered

/-- A call that fails adds nothing. -/
theorem Recorded.refused (recorded : Recorded config past catalog)
    (action : Action) (error : Error) :
    Recorded config (past ++ [(action, .error error)]) catalog := by
  have opened : opened (past ++ [(action, .error error)]) = opened past := by
    rw [opened_concat]
    cases action <;> exact List.append_nil _
  apply recorded.unreached
  · cases action <;> rfl
  · cases action <;> rfl
  · intro creation
    cases action <;> rfl
  · rw [opened]
    exact recorded.nextSession_eq
  · rw [opened]
    exact recorded.opened_eq

/-- A session that is opened gets the number of the counter, and raises it. -/
theorem Recorded.opens (recorded : Recorded config past catalog) :
    Recorded config
      (past ++ [(.openSession, .ok (.session catalog.openSession.1))])
      catalog.openSession.2 := by
  have grown : opened
      (past ++ [(.openSession, .ok (.session catalog.openSession.1))]) =
        opened past ++ [catalog.nextSession.toNat] :=
    opened_concat past _
  have length : (opened past ++ [catalog.nextSession.toNat]).length =
      (opened past).length + 1 :=
    List.length_append
  apply recorded.unreached rfl rfl (fun _ => rfl)
  · rw [grown, length, recorded.nextSession_eq,
      UInt32.ofNat_add ((opened past).length + 1)]
    rfl
  · rw [grown, length, List.range'_1_concat, List.map_append,
      ← recorded.opened_eq, recorded.nextSession_eq, UInt32.toNat_ofNat',
      List.map_singleton, Nat.add_comm 1]

/-- An event that reaches a table changes that table alone. -/
theorem Recorded.reached (recorded : Recorded config past catalog)
    {target : Creation} (known : target ∈ created past)
    {call : Table.Action} {event : Event} (creates : creation? event = none)
    (opens : opening? event = none)
    (drops : ∀ other ∈ dropping? event, other = target.id)
    (reaches : target.reached? event = some call)
    (misses : ∀ creation : Creation, creation.id ≠ target.id →
      creation.handle ≠ target.handle → creation.reached? event = none)
    {handles : KeyMap TableId Handle} {names : KeyMap String TableId}
    (listings : handles.entries =
      (live (past ++ [event])).map Creation.listing)
    (namings : names.entries =
      (live (past ++ [event])).map Creation.naming) :
    Recorded config (past ++ [event])
      { catalog.update target.handle
          ((target.table config past).after call) with
        handles := handles
        names := names } := by
  have held := recorded.held_eq target known
  have updated := held?_update held ((target.table config past).after call)
  have size := catalog.update_tables_length target.handle
    ((target.table config past).after call)
  have within := (recorded.id_le known).2
  have placed := recorded.handle_eq known
  have created := created_concat past event
  have opened := opened_concat past event
  rw [creates, Option.toList_none, List.append_nil] at created
  rw [opens, Option.toList_none, List.append_nil] at opened
  constructor
  · exact recorded.config_eq
  · rw [created, size]
    exact recorded.ids_eq
  · rw [created, size]
    exact recorded.handles_eq
  · intro creation member
    rw [created] at member
    rw [creation.table_concat]
    refine (updated creation.handle).trans ?_
    by_cases same : creation.id = target.id
    · have equal := recorded.eq_of_id member known same
      rw [equal, if_pos rfl, reaches]
      rfl
    · have differs : creation.handle ≠ target.handle := by
        rw [recorded.handle_eq member, placed]
        exact same
      rw [if_neg differs, misses creation same differs]
      exact recorded.held_eq creation member
  · rw [dropped_concat, size]
    intro other member
    rcases List.mem_append.1 member with old | new
    · exact recorded.dropped_le other old
    · rw [drops other (Option.mem_toList.1 new)]
      exact within
  · rw [size]
    intro creation numbered placedLast
    have differs : creation.id ≠ target.id := by grind
    have apart : creation.handle ≠ target.handle := by grind
    rw [creation.calls_concat, recorded.calls_eq creation numbered placedLast,
      misses creation differs apart]
    rfl
  · exact listings
  · exact namings
  · rw [size]
    exact recorded.nextTable_eq
  · rw [opened]
    exact recorded.nextSession_eq
  · rw [opened]
    exact recorded.opened_eq

/-- A call that is passed on to a table leaves both maps. -/
theorem Recorded.passed (recorded : Recorded config past catalog)
    {target : Creation} (known : target ∈ created past)
    {call : Table.Action} {event : Event} (creates : creation? event = none)
    (drops : dropping? event = none) (opens : opening? event = none)
    (reaches : target.reached? event = some call)
    (misses : ∀ creation : Creation, creation.id ≠ target.id →
      creation.handle ≠ target.handle → creation.reached? event = none) :
    Recorded config (past ++ [event])
      (catalog.update target.handle
        ((target.table config past).after call)) := by
  have live := live_concat_of_none creates drops past
  refine recorded.reached known creates opens ?_ reaches misses ?_ ?_
  · rw [drops]
    exact nofun
  · rw [live]
    exact recorded.listings_eq
  · rw [live]
    exact recorded.namings_eq

/-- A table that is dropped is discarded and leaves both maps. -/
theorem Recorded.drop (recorded : Recorded config past catalog)
    {creation : Creation} (known : creation ∈ created past) (reply : Reply) :
    Recorded config (past ++ [(.drop creation.id, .ok reply)])
      ((catalog.unlist creation.id).update creation.handle
        (creation.table config past).discard) := by
  have live := live_concat_of_drop creation.id reply past
  have reaches : creation.reached? (.drop creation.id, .ok reply) =
      some .discard :=
    if_pos rfl
  have handles : (catalog.unlist creation.id).handles.entries =
      catalog.handles.entries.filter fun entry => entry.1 != creation.id := rfl
  have names : (catalog.unlist creation.id).names.entries =
      catalog.names.entries.filter fun entry => entry.2 != creation.id := rfl
  refine recorded.reached known rfl rfl ?_ reaches ?_ ?_ ?_
  · rintro other ⟨⟩
    rfl
  · intro other differs _
    exact if_neg differs.symm
  · rw [live, handles, recorded.listings_eq, List.filter_map]
    rfl
  · rw [live, names, recorded.namings_eq, List.filter_map]
    rfl

/-- With a name that is free, a creation answers the two next numbers. -/
theorem Recorded.createTable_of_unnamed
    (recorded : Recorded config past catalog)
    (fits : catalog.tables.length + 1 < 2 ^ 64) {schema : Schema}
    (unnamed : ∀ creation ∈ live past,
      Text.sameLetters creation.schema.name schema.name = false) :
    catalog.createTable schema =
      (.ok ⟨catalog.tables.length + 1, catalog.tables.length + 1⟩,
        { catalog with
          tables := catalog.tables ++
            [Table.create (catalog.tables.length + 1) schema config]
          handles := catalog.handles.insert (catalog.tables.length + 1)
            (catalog.tables.length + 1)
          names := catalog.names.insert (Text.capitals schema.name)
            (catalog.tables.length + 1)
          nextTable := catalog.nextTable + 1 }) := by
  have next : catalog.nextTable.toNat = catalog.tables.length + 1 := by
    rw [recorded.nextTable_eq, UInt64.toNat_ofNat', Nat.mod_eq_of_lt fits]
  have free : ¬catalog.names.contains (Text.capitals schema.name) = true := by
    rw [KeyMap.contains, recorded.names_of_unnamed unnamed]
    exact Bool.false_ne_true
  rw [createTable, if_neg free, next, recorded.config_eq]

/-- A table that is created comes last and gets the next number. -/
theorem Recorded.create (recorded : Recorded config past catalog)
    (fits : catalog.tables.length + 1 < 2 ^ 64) {schema : Schema}
    (unnamed : ∀ creation ∈ live past,
      Text.sameLetters creation.schema.name schema.name = false) :
    Recorded config
      (past ++ [(.create schema, .ok (.table
        ⟨catalog.tables.length + 1, catalog.tables.length + 1⟩))])
      (catalog.createTable schema).2 := by
  let next : Nat := catalog.tables.length + 1
  let creation : Creation := ⟨next, next, schema⟩
  let event : Event := (.create schema, .ok (.table ⟨next, next⟩))
  have created : created (past ++ [event]) = created past ++ [creation] :=
    created_concat past event
  have dropped : dropped (past ++ [event]) = dropped past :=
    (dropped_concat past event).trans (List.append_nil _)
  have opened : opened (past ++ [event]) = opened past :=
    (opened_concat past event).trans (List.append_nil _)
  have calls (other : Creation) :
      other.calls (past ++ [event]) = other.calls past :=
    (other.calls_concat past event).trans (List.append_nil _)
  have live : live (past ++ [event]) = live past ++ [creation] :=
    live_concat_of_creation rfl rfl fun member =>
      Nat.not_succ_le_self _ (recorded.dropped_le _ member)
  have numbers : List.range' 1 next =
      List.range' 1 catalog.tables.length ++ [next] := by
    rw [List.range'_1_concat, Nat.add_comm 1]
  have numberFree : catalog.handles.get? next = none := by
    apply recorded.handles_of_gone
    intro other member same
    have within := (recorded.id_le (mem_created_of_live member)).2
    rw [same] at within
    exact Nat.not_succ_le_self _ within
  have nameFree := recorded.names_of_unnamed unnamed
  rw [recorded.createTable_of_unnamed fits unnamed]
  constructor
  · exact recorded.config_eq
  · rw [created, List.map_append, recorded.ids_eq, List.length_append]
    exact numbers.symm
  · rw [created, List.map_append, recorded.handles_eq, List.length_append]
    exact numbers.symm
  · intro other member
    rw [created] at member
    rw [Creation.table, calls, held?_of_append rfl]
    rcases List.mem_append.1 member with old | new
    · have within := (recorded.id_le old).2
      rw [← recorded.handle_eq old] at within
      rw [if_neg (Nat.ne_of_lt (Nat.lt_succ_of_le within))]
      exact recorded.held_eq other old
    -- a call reaches only a table that was created, so this one is untouched
    · cases List.mem_singleton.1 new
      rw [recorded.calls_eq creation (Nat.lt_succ_self _) (Nat.lt_succ_self _),
        Table.run_nil]
      exact if_pos rfl
  · rw [dropped, List.length_append]
    intro id member
    exact Nat.le_succ_of_le (recorded.dropped_le id member)
  · rw [List.length_append]
    intro other numbered placed
    rw [calls]
    exact
      recorded.calls_eq other (Nat.lt_of_succ_lt numbered)
        (Nat.lt_of_succ_lt placed)
  · rw [live, List.map_append, ← recorded.listings_eq]
    exact KeyMap.insert_entries numberFree next
  · rw [live, List.map_append, ← recorded.namings_eq]
    exact KeyMap.insert_entries nameFree next
  · rw [recorded.nextTable_eq, List.length_append, List.length_singleton,
      UInt64.ofNat_add (catalog.tables.length + 1)]
    rfl
  · rw [opened]
    exact recorded.nextSession_eq
  · rw [opened]
    exact recorded.opened_eq

/-! ## Along a run -/

/-- A call that a handle passes on is recorded with its answer. -/
theorem Recorded.pass (recorded : Recorded config past catalog)
    {handle : Handle} (call : Table.Action) {action : Action}
    (creates : ∀ answer, creation? (action, answer) = none)
    (drops : ∀ answer, dropping? (action, answer) = none)
    (opens : ∀ answer, opening? (action, answer) = none)
    (reaches : ∀ target ∈ created past, target.handle = handle → ∀ reply,
      target.reached? (action, .ok reply) = some call ∧
      ∀ creation : Creation, creation.id ≠ target.id →
        creation.handle ≠ target.handle →
          creation.reached? (action, .ok reply) = none) :
    Recorded config (past ++ [(action, (catalog.pass handle call).1)])
      (catalog.pass handle call).2 := by
  rw [Catalog.pass]
  cases held : catalog.held? handle with
  | none => exact recorded.refused action _
  | some table =>
      rcases le_of_held? held with ⟨positive, within⟩
      have placed : handle ∈ (created past).map Creation.handle := by
        rw [recorded.handles_eq, List.mem_range'_1]
        grind
      rcases List.mem_map.1 placed with ⟨target, known, same⟩
      have found := recorded.held_eq target known
      rw [same, held] at found
      cases found
      rcases reaches target known same
        (.answered ((target.table config past).perform call).1) with
        ⟨hits, misses⟩
      subst same
      exact
        recorded.passed known (creates _) (drops _) (opens _) hits misses

/-- Every call is recorded with its answer. -/
theorem Recorded.after (recorded : Recorded config past catalog)
    (action : Action)
    (fits : catalog.tables.length + 1 < 2 ^ 64) :
    Recorded config (past ++ [(action, (catalog.perform action).1)])
      (catalog.after action) := by
  rw [Catalog.after]
  cases action with
  | create schema =>
      rw [perform]
      rcases named_or_unnamed (live past) schema.name with
        ⟨creation, member, named⟩ | unnamed
      · rw [createTable_of_named (recorded.names_of_named member named)]
        exact recorded.refused _ _
      · have grown := recorded.create fits unnamed
        rw [recorded.createTable_of_unnamed fits unnamed] at grown ⊢
        exact grown
  | drop id =>
      rw [perform, Catalog.drop]
      rcases listed_or_gone (live past) id with ⟨creation, member, rfl⟩ | gone
      · have known := mem_created_of_live member
        have held : (catalog.unlist creation.id).held? creation.handle =
            some (creation.table config past) :=
          recorded.held_eq creation known
        rw [recorded.handle_of_live member]
        dsimp only
        rw [held]
        exact recorded.drop known _
      · rw [recorded.handle_of_gone gone]
        exact recorded.refused _ _
  | openSession => exact recorded.opens
  | onListed id call =>
      rw [perform]
      rcases listed_or_gone (live past) id with ⟨creation, member, rfl⟩ | gone
      · rw [recorded.handle_of_live member]
        refine recorded.pass call (fun _ => rfl) (fun _ => rfl) (fun _ => rfl) ?_
        intro target known same reply
        have equal : target.id = creation.id := by
          rw [← recorded.handle_eq known, same,
            recorded.handle_eq (mem_created_of_live member)]
        refine ⟨if_pos equal.symm, fun other differs _ => ?_⟩
        exact if_neg (equal ▸ differs.symm)
      · rw [recorded.handle_of_gone gone]
        exact recorded.refused _ _
  | onHeld handle call =>
      refine recorded.pass call (fun _ => rfl) (fun _ => rfl) (fun _ => rfl) ?_
      rintro target known rfl reply
      exact ⟨if_pos rfl, fun other _ differs => if_neg differs.symm⟩

/-- A run is recorded as its history while the numbers of tables last. -/
theorem Recorded.run (recorded : Recorded config past catalog)
    (actions : List Action)
    (fits : (created (past ++ history catalog actions)).length + 1 < 2 ^ 64) :
    Recorded config (past ++ history catalog actions)
      (catalog.run actions) := by
  induction actions generalizing past catalog with
  | nil =>
      rw [history, List.append_nil]
      exact recorded
  | cons action rest induction =>
      have now : catalog.tables.length + 1 < 2 ^ 64 := by
        rw [created, List.filterMap_append, List.length_append] at fits
        rw [← recorded.created_length, created]
        grind
      rw [history, List.append_cons] at fits ⊢
      exact induction (recorded.after action now) fits

end Catalog

end VersionedColumns
