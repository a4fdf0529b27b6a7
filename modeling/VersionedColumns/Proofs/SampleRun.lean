import VersionedColumns.Proofs.Table.Lookup
import VersionedColumns.Proofs.Table.OneSession
import VersionedColumns.Proofs.Table.Refusals
import VersionedColumns.SampleRun.Basic

/-!
# What a sample run prints

The output of a sample run follows from its options alone: which rows are left
is a matter of division, and their cells follow from their numbers.  The main
statement says that the run prints just that, whether or not changes wait for
a commit.

Along the way the table is described by the keys that are left in it.  Loading
puts the next number behind them, thinning takes one out, and no call fails.
-/

namespace VersionedColumns.SampleRun

/-! ## What is printed, from the options alone -/

/-- The keys that are left: all, or those that are not a multiple. -/
def keptKeys (options : SampleOptions) : List Key :=
  (List.range options.rows).filter fun key =>
    options.removeEvery == 0 || key % options.removeEvery != 0

/-- A row takes 33 bytes, since the text in it has one digit. -/
theorem footprints_rowValues (number : Nat) :
    Value.footprints (rowValues number) = 33 := by
  rcases Nat.mod_two_eq_zero_or_one number with even | odd
  · rw [rowValues, even]
    rfl
  · rw [rowValues, odd]
    rfl

theorem fits_rowValues (number : Nat) :
    Fits schema.columns (rowValues number) :=
  List.Forall₂.cons rfl
    (List.Forall₂.cons rfl (List.Forall₂.cons rfl List.Forall₂.nil))

/-- The name of an equality index and the column that it is on. -/
def label (index : EqualityIndex) : String × Nat :=
  (index.name, index.column)

theorem label_insert (index : EqualityIndex) (row : Row) :
    label (index.insert row).2 = label index := by
  have kept := congrArg label (index.clear_insert row)
  exact kept

theorem label_remove (index : EqualityIndex) (row : Row) :
    label (index.remove row).2 = label index := by
  have kept := congrArg label (index.clear_remove row)
  exact kept

theorem map_label_map {change : EqualityIndex → EqualityIndex}
    (kept : ∀ index, label (change index) = label index)
    (indexes : List EqualityIndex) :
    (indexes.map change).map label = indexes.map label := by
  rw [List.map_map]
  exact List.map_congr_left fun index _ => kept index

/-- The table has the rows with the given numbers, under these as keys. -/
structure Holds (session : Session) (labels : List (String × Nat))
    (keys : List Key) (table : Table) : Prop where
  one : table.OneSession session
  columns_eq : table.columns = schema.columns
  tableName_eq : table.primary.tableName = schema.name
  scanCost_eq : table.primary.scanCost = Binary64.ofInteger 1000
  labels_eq : table.secondary.map label = labels
  liveKeys_eq : table.primary.grid.liveKeys = keys
  cells_eq : ∀ key ∈ keys, table.primary.grid.cells key = rowValues key

theorem Holds.columns_ne_nil {session : Session}
    {labels : List (String × Nat)} {keys : List Key} {table : Table}
    (holds : Holds session labels keys table) :
    table.columns ≠ [] := by
  rw [holds.columns_eq]
  exact List.cons_ne_nil _ _

theorem Holds.create (id : TableId) (versioned : Bool) (session : Session) :
    Holds session [] []
      (Table.create id schema { Config.standard with versioned := versioned })
    where
  one := Table.OneSession.create _ _ _ _
  columns_eq := rfl
  tableName_eq := rfl
  scanCost_eq := rfl
  labels_eq := rfl
  liveKeys_eq := rfl
  cells_eq := nofun

variable {session : Session} {labels : List (String × Nat)} {keys : List Key}
  {table : Table}

/-- The row with the next number is stored under it. -/
theorem Holds.insert (holds : Holds session labels keys table)
    (limit : table.primary.nextKey + 1 < 2 ^ 64) :
    ∃ later,
      advance (table.insert session (rowValues table.primary.nextKey)) =
          .ok later ∧
        later.primary.nextKey = table.primary.nextKey + 1 ∧
        Holds session labels (keys ++ [table.primary.nextKey]) later := by
  let number := table.primary.nextKey
  have sound := holds.one.searchable.sound
  have fits : Fits table.columns (rowValues number) :=
    holds.columns_eq ▸ fits_rowValues number
  have stored :=
    sound.insert_eq fits.length_eq (convert_of_fits fits) session
  have after : table.after (.insert session (rowValues number)) =
      table.withRow session (rowValues number) := by
    rw [Table.after, Table.perform, stored]
  have fitting : (rowValues number).length =
      table.primary.grid.columns.length :=
    fits.length_eq.trans sound.width.symm
  have inStep := sound.coherent.inStep
  refine ⟨table.withRow session (rowValues number), ?_, rfl, ?_⟩
  · rw [advance, stored]
    rfl
  · constructor
    · apply holds.one.of_after after
      · rintro caller ⟨⟩
        rfl
      · exact limit
      · intro closing
        cases closing
    · exact holds.columns_eq
    · exact holds.tableName_eq
    · exact holds.scanCost_eq
    · rw [← holds.labels_eq]
      exact map_label_map (fun index => label_insert index _) _
    · rw [← holds.liveKeys_eq]
      exact inStep.liveKeys_appended _
    · intro key member
      refine (inStep.cells_appended fitting key).trans ?_
      split
      · rename_i last
        rw [last]
        rfl
      · rename_i differs
        rcases List.mem_append.1 member with old | new
        · exact holds.cells_eq key old
        · exact absurd (List.mem_singleton.1 new) differs

/-- Rows are loaded under their numbers, one behind the other. -/
theorem Holds.load (holds : Holds session labels keys table) {count : Nat}
    (limit : table.primary.nextKey + count < 2 ^ 64) :
    ∃ later,
      load session table (List.range' table.primary.nextKey count) =
          .ok later ∧
        Holds session labels
          (keys ++ List.range' table.primary.nextKey count) later := by
  induction count generalizing table keys with
  | zero =>
      refine ⟨table, rfl, ?_⟩
      rw [List.range'_zero, List.append_nil]
      exact holds
  | succ count induction =>
      rcases holds.insert (by grind) with ⟨next, stored, nextKey, held⟩
      rcases induction held (by grind) with ⟨later, loaded, all⟩
      rw [nextKey] at loaded all
      refine ⟨later, ?_, ?_⟩
      · rw [List.range'_succ, SampleRun.load, stored]
        exact loaded
      · rw [List.range'_succ, List.append_cons]
        exact all

/-- A row that is there is taken out. -/
theorem Holds.remove (holds : Holds session labels keys table) {key : Key}
    (member : key ∈ keys) :
    ∃ later, advance (table.remove session key) = .ok later ∧
      Holds session labels (keys.filter (· != key)) later := by
  have sound := holds.one.searchable.sound
  have limit := holds.one.searchable.keysFit
  have live : table.primary.grid.isLive key = true := by
    rw [← Grid.mem_liveKeys, holds.liveKeys_eq]
    exact member
  rcases sound.remove_cases session key with ⟨none, -⟩ | ⟨row, found, removed⟩
  · rcases Grid.isLive_iff.1 live with ⟨inside, present⟩
    rcases (sound.liveRow?_eq_none_iff limit).1 none with outside | gone
    · exact absurd inside (Nat.not_lt.2 outside)
    · exact absurd gone present
  · have same := (Table.liveRow?_eq_some found).2.1
    subst same
    have after : table.after (.remove session row.key) =
        table.withoutRow session row := by
      rw [Table.after, Table.perform, removed]
    refine ⟨table.withoutRow session row, ?_, ?_⟩
    · rw [advance, removed]
      rfl
    · constructor
      · apply holds.one.of_after after
        · rintro caller ⟨⟩
          rfl
        · exact limit
        · intro closing
          cases closing
      · exact holds.columns_eq
      · exact holds.tableName_eq
      · exact holds.scanCost_eq
      · rw [← holds.labels_eq]
        exact map_label_map (fun index => label_remove index _) _
      · rw [← holds.liveKeys_eq]
        exact Grid.liveKeys_without _ _
      · intro other otherMember
        rcases List.mem_filter.1 otherMember with ⟨old, differs⟩
        refine (Grid.cells_without_of_ne _ (bne_iff_ne.1 differs)).trans ?_
        exact holds.cells_eq other old

/-- Rows that are there are taken out one after the other. -/
theorem Holds.thin (holds : Holds session labels keys table)
    {removals : List Key} (nodup : removals.Nodup)
    (present : ∀ key ∈ removals, key ∈ keys) :
    ∃ later, thin session table removals = .ok later ∧
      Holds session labels (keys.filter (· ∉ removals)) later := by
  induction removals generalizing table keys with
  | nil =>
      refine ⟨table, rfl, ?_⟩
      simpa using holds
  | cons key rest induction =>
      rcases List.nodup_cons.1 nodup with ⟨fresh, distinct⟩
      rcases holds.remove (present key List.mem_cons_self) with
        ⟨next, removed, held⟩
      -- no key comes twice, so each row is still there when its turn comes
      have left : ∀ other ∈ rest, other ∈ keys.filter (· != key) := by
        intro other member
        refine List.mem_filter.2 ⟨present other (List.mem_cons_of_mem _ member), ?_⟩
        rw [bne_iff_ne]
        rintro rfl
        exact fresh member
      rcases induction held distinct left with ⟨later, thinned, all⟩
      refine ⟨later, ?_, ?_⟩
      · rw [SampleRun.thin, removed]
        exact thinned
      · have same : (keys.filter (· != key)).filter (· ∉ rest) =
            keys.filter (· ∉ key :: rest) := by
          rw [List.filter_filter]
          apply List.filter_congr
          intro other _
          rw [Bool.eq_iff_iff]
          simp [and_comm]
        rw [← same]
        exact all

/-- The name of the primary index begins otherwise than those of the others. -/
theorem indexName_ne (column : String) :
    indexName column ≠ schema.name ++ "_DATA" := by
  intro same
  have texts := congrArg String.toList same
  rw [indexName, String.toList_append, String.toList_append] at texts
  cases texts

theorem label_foldl_insert (rows : List Row) (index : EqualityIndex) :
    label (rows.foldl (fun index row => (index.insert row).2) index) =
      label index := by
  induction rows generalizing index with
  | nil => rfl
  | cons row rest induction =>
      exact (induction _).trans (label_insert index row)

/-- An index is added on a column that is there. -/
theorem Holds.addIndex (holds : Holds session [] keys table) {name : String}
    {position : Nat} {column : Column}
    (first : IsFirstNamed schema.columns name position column) :
    ∃ later, advance (table.addIndex (indexName name) name) = .ok later ∧
      Holds session [(indexName name, position)] keys later := by
  have sound := holds.one.searchable.sound
  have limit := holds.one.searchable.keysFit
  have none : table.secondary = [] := List.map_eq_nil_iff.1 holds.labels_eq
  have free : ¬table.NamesIndex (indexName name) := by
    rw [Table.namesIndex_iff, none]
    rintro (primary | ⟨index, ⟨⟩, -⟩)
    rw [PrimaryIndex.name, holds.tableName_eq] at primary
    exact indexName_ne name primary
  rw [← holds.columns_eq] at first
  have added := sound.addIndex_eq limit free first
  have after : table.after (.addIndex (indexName name) name) =
      (table.addIndex (indexName name) name).2 := rfl
  rw [added] at after ⊢
  refine ⟨_, rfl, ?_, holds.columns_eq, holds.tableName_eq, holds.scanCost_eq,
    ?_, holds.liveKeys_eq, holds.cells_eq⟩
  · apply holds.one.of_after after
    · intro caller called
      cases called
    · exact limit
    · intro closing
      cases closing
  · rw [none, List.nil_append, List.map_singleton, label_foldl_insert]
    rfl

/-- A commit leaves the rows, and nothing that waits for another one. -/
theorem Holds.commit (holds : Holds session labels keys table) :
    Holds session labels keys (table.commit session).2 ∧
      (table.commit session).2.primary.pending.rows = [] := by
  refine ⟨?_, holds.one.settled_commit⟩
  have one : (table.commit session).2.OneSession session := by
    have after : table.after (.commit session) = (table.commit session).2 := rfl
    apply holds.one.of_after after
    · rintro caller ⟨⟩
      rfl
    · have same := table.commit_nextKey session
      exact same.trans_lt holds.one.searchable.keysFit
    · intro closing
      cases closing
  rw [Table.commit_snd] at one ⊢
  exact
    ⟨one, holds.columns_eq, holds.tableName_eq, holds.scanCost_eq,
      holds.labels_eq, holds.liveKeys_eq, holds.cells_eq⟩

/-! ## The report -/

theorem Holds.memoryUse_eq (holds : Holds session labels keys table) :
    table.memoryUse = 33 * keys.length := by
  have weights : keys.map (fun key =>
      Value.footprints (table.primary.grid.cells key)) =
        keys.map fun _ => 33 := by
    apply List.map_congr_left
    intro key member
    rw [holds.cells_eq key member, footprints_rowValues]
  rw [Table.memoryUse, holds.one.weighed, Grid.weight, holds.liveKeys_eq,
    weights, List.map_const', List.sum_replicate_nat, Nat.mul_comm]

theorem Holds.scanned_eq (holds : Holds session labels keys table)
    (settled : table.primary.pending.rows = []) :
    table.scanned session =
      keys.map fun key => Row.stored key (rowValues key) := by
  rw [holds.one.searchable.sound.scanned_of_settled settled holds.columns_ne_nil
    holds.one.searchable.keysFit, holds.liveKeys_eq]
  apply List.map_congr_left
  intro key member
  rw [holds.cells_eq key member]

/-- A search through the index finds the least key with the value. -/
theorem Holds.findEqual_eq {name : String} {position : Nat}
    (holds : Holds session [(indexName name, position)] keys table)
    (settled : table.primary.pending.rows = []) {column : Column}
    (first : IsFirstNamed schema.columns name position column)
    (value : Value) :
    table.findEqual session name value =
      (value.convertTo column.type).map fun searched =>
        (keys.find? fun key => (rowValues key)[position]? == some searched).map
          fun key => Row.stored key (rowValues key) := by
  have searchable := holds.one.searchable
  rcases List.map_eq_singleton_iff.1 holds.labels_eq with ⟨index, only, same⟩
  have member : index ∈ table.secondary := only ▸ List.mem_singleton_self index
  have indexed : index.column = position := congrArg Prod.snd same
  have rows : table.primary.liveRows =
      keys.map fun key => Row.stored key (rowValues key) := by
    rw [searchable.sound.coherent.liveRows_of_settled settled
      (searchable.sound.grid_columns_ne_nil holds.columns_ne_nil)
      searchable.keysFit, holds.liveKeys_eq]
    apply List.map_congr_left
    intro key keyMember
    rw [holds.cells_eq key keyMember]
  rw [← holds.columns_eq] at first
  rw [searchable.findEqual_eq first member indexed, rows]
  refine congrArg (fun answer => (value.convertTo column.type).map answer) ?_
  funext searched
  rw [List.find?_map]
  change ((keys.find? fun key => (rowValues key)[position]? == some searched).map
    _).filter _ = _
  cases keys.find? fun key => (rowValues key)[position]? == some searched <;>
    rfl

/-- Steps from a key meet those behind it at whole steps, up to the bound. -/
theorem mem_keysInSteps {step : Nat} (forward : 0 < step) {bound key other : Key} :
    other ∈ keysInSteps step forward bound key ↔
      other < bound ∧ ∃ steps, other = key + steps * step := by
  induction key using keysInSteps.induct step forward bound with
  | case1 key inside induction =>
      rw [keysInSteps, if_pos inside, List.mem_cons, induction]
      constructor
      · rintro (rfl | ⟨below, steps, rfl⟩)
        · exact ⟨inside, 0, by rw [Nat.zero_mul, Nat.add_zero]⟩
        · refine ⟨below, steps + 1, ?_⟩
          rw [Nat.succ_mul, Nat.add_assoc, Nat.add_comm step]
      · rintro ⟨below, steps, rfl⟩
        cases steps with
        | zero => exact Or.inl (by rw [Nat.zero_mul, Nat.add_zero])
        | succ steps =>
            refine Or.inr ⟨below, steps, ?_⟩
            rw [Nat.succ_mul, Nat.add_assoc, Nat.add_comm step]
  | case2 key outside =>
      rw [keysInSteps, if_neg outside]
      constructor
      · intro member
        cases member
      · rintro ⟨below, steps, rfl⟩
        exact absurd (Nat.lt_of_le_of_lt (Nat.le_add_right _ _) below) outside

/-- No step goes back, so no key is met twice. -/
theorem keysInSteps_pairwise {step : Nat} (forward : 0 < step)
    (bound key : Key) :
    (keysInSteps step forward bound key).Pairwise fun first second =>
      first < second := by
  induction key using keysInSteps.induct step forward bound with
  | case1 key inside induction =>
      rw [keysInSteps, if_pos inside, List.pairwise_cons]
      refine ⟨?_, induction⟩
      intro other member
      obtain ⟨-, steps, rfl⟩ := (mem_keysInSteps forward).1 member
      exact
        Nat.lt_of_lt_of_le (Nat.lt_add_of_pos_right forward)
          (Nat.le_add_right _ _)
  | case2 key outside =>
      rw [keysInSteps, if_neg outside]
      exact List.Pairwise.nil

/-- What is removed are the multiples among the keys. -/
theorem mem_keysToRemove {options : SampleOptions} {key : Key} :
    key ∈ keysToRemove options ↔
      0 < options.removeEvery ∧ key < options.rows ∧
        key % options.removeEvery = 0 := by
  rw [keysToRemove]
  split
  · rename_i forward
    rw [mem_keysInSteps, ← Nat.dvd_iff_mod_eq_zero]
    constructor
    · rintro ⟨below, steps, rfl⟩
      rw [Nat.zero_add]
      exact ⟨forward, by rwa [Nat.zero_add] at below, Nat.dvd_mul_left _ _⟩
    · rintro ⟨-, below, steps, rfl⟩
      exact ⟨below, steps, by rw [Nat.zero_add, Nat.mul_comm]⟩
  · rename_i never
    constructor
    · intro member
      cases member
    · rintro ⟨forward, -⟩
      exact absurd forward never

theorem keysToRemove_nodup (options : SampleOptions) :
    (keysToRemove options).Nodup := by
  rw [keysToRemove]
  split
  · exact (keysInSteps_pairwise _ _ _).imp Nat.ne_of_lt
  · exact List.nodup_nil

/-- The keys that are left are those that are not removed. -/
theorem filter_notMem_keysToRemove (options : SampleOptions) :
    (List.range options.rows).filter (· ∉ keysToRemove options) =
      keptKeys options := by
  apply List.filter_congr
  intro key member
  have below := List.mem_range.1 member
  rw [Bool.eq_iff_iff, decide_eq_true_iff, mem_keysToRemove, Bool.or_eq_true,
    beq_iff_eq, bne_iff_ne]
  grind

/-- What is left of an indexed table once it is thinned out and committed. -/
theorem Holds.finish {options : SampleOptions}
    (holds : Holds session labels (List.range options.rows) table) :
    ∃ thinned,
      SampleRun.thin session table (keysToRemove options) = .ok thinned ∧
        Holds session labels (keptKeys options) (thinned.commit session).2 ∧
        (thinned.commit session).2.primary.pending.rows = [] := by
  rcases holds.thin (keysToRemove_nodup options)
    fun _ member => List.mem_range.2 (mem_keysToRemove.1 member).2.1 with
    ⟨thinned, removed, left⟩
  rw [filter_notMem_keysToRemove] at left
  exact ⟨thinned, removed, left.commit⟩

end VersionedColumns.SampleRun
