import Mathlib.Order.Bounds.Basic
import VersionedColumns.Proofs.Index.Places

/-!
# The next live key

The row behind a given one is the live row with the least key above the given
key, whatever was removed in between and whether or not the given row is one of
the index.  So a walk from one row to the next meets every live key once, in
increasing order.

Nothing bounds the search by itself: it reads one key after the other until it
finds a live row or comes behind the last key.  `Finds` tells what such a
search comes to, and has an outcome for every key to start from.
-/

namespace VersionedColumns.PrimaryIndex

variable {index : PrimaryIndex}

/-! ## The search without a bound -/

/-- What a search from a key on comes to if nothing bounds it. -/
inductive Finds (index : PrimaryIndex) : Key → Option Row → Prop
  /-- Behind the last key there is nothing to find. -/
  | behindLast {key : Key} (ended : index.row? key = none) :
      Finds index key none
  | here {key : Key} {row : Row} (read : index.row? key = some row)
      (holds : holdsValues row = true) : Finds index key (some row)
  /-- A removed key, and one without values, is skipped. -/
  | skipped {key : Key} {row : Row} {found : Option Row}
      (read : index.row? key = some row) (dead : holdsValues row = false)
      (later : Finds index (key + 1) found) : Finds index key found

theorem lt_nextKey_of_row? {key : Key} {row : Row}
    (read : index.row? key = some row) :
    key < index.nextKey := by
  rw [← Nat.not_le, ← row?_eq_none_iff, read]
  exact Option.some_ne_none row

/-- The rows that are ahead when a key is left behind. -/
theorem rowsFrom_of_read {key : Key} {row : Row}
    (read : index.row? key = some row) :
    index.rowsFrom key =
      if holdsValues row then row :: index.rowsFrom (key + 1)
      else index.rowsFrom (key + 1) := by
  rw [rowsFrom_of_lt (lt_nextKey_of_row? read), filledRow?, read]
  cases holds : holdsValues row with
  | true => simp [Option.filter, holds]
  | false => simp [Option.filter, holds]

/-- A search finds the first of the live rows that are ahead. -/
theorem Finds.eq_head? {key : Key} {found : Option Row}
    (finds : index.Finds key found) :
    found = (index.rowsFrom key).head? := by
  induction finds with
  | behindLast ended =>
      rw [rowsFrom_of_le (row?_eq_none_iff.1 ended)]
      rfl
  | here read holds =>
      rw [rowsFrom_of_read read, if_pos holds]
      rfl
  | skipped read dead later induction =>
      rw [rowsFrom_of_read read, dead, if_neg Bool.false_ne_true]
      exact induction

/-- Every search comes to an end: each step leaves one key less ahead. -/
theorem finds_head? (index : PrimaryIndex) (key : Key) :
    index.Finds key (index.rowsFrom key).head? := by
  induction remaining : index.nextKey - key generalizing key with
  | zero =>
      have outside := Nat.le_of_sub_eq_zero remaining
      rw [rowsFrom_of_le outside]
      exact .behindLast (row?_eq_none_iff.2 outside)
  | succ keys induction =>
      have fewer : index.nextKey - (key + 1) = keys := by grind
      cases read : index.row? key with
      | none =>
          have outside := row?_eq_none_iff.1 read
          rw [Nat.sub_eq_zero_of_le outside] at remaining
          contradiction
      | some row =>
          rw [rowsFrom_of_read read]
          cases holds : holdsValues row with
          | true => exact .here read holds
          | false => exact .skipped read holds (induction (key + 1) fewer)

/-- The next row is what an unbounded search for it comes to. -/
theorem finds_iff {behind found : Option Row} :
    index.Finds (keyAfter behind) found ↔ found = index.nextRow? behind := by
  rw [nextRow?_eq_head?]
  constructor
  · exact Finds.eq_head?
  · rintro rfl
    exact index.finds_head? _

/-! ## The least live key behind a row -/

/-- The live keys behind a row, and all of them where there is no row. -/
def keysBehind (index : PrimaryIndex) (behind : Option Row) : Set Key :=
  {key | index.grid.isLive key = true ∧ ∀ row ∈ behind, row.key < key}

theorem mem_keysBehind {behind : Option Row} {key : Key} :
    key ∈ index.keysBehind behind ↔
      index.grid.isLive key = true ∧ keyAfter behind ≤ key := by
  cases behind with
  | none => simp [keysBehind, keyAfter]
  | some row =>
      simp only [keysBehind, keyAfter, Set.mem_ofPred_eq, Option.mem_def,
        Option.some.injEq, forall_eq', Nat.succ_le_iff]

/-- With columns to look at, the rows ahead are those of the live keys. -/
theorem Coherent.mem_rowsFrom_iff (coherent : index.Coherent)
    (columns : index.grid.columns ≠ []) (fits : index.nextKey < 2 ^ 64)
    {key : Key} {row : Row} :
    row ∈ index.rowsFrom key ↔
      index.grid.isLive row.key = true ∧ key ≤ row.key ∧
        index.row? row.key = some row := by
  rw [rowsFrom, List.mem_filterMap]
  constructor
  · rintro ⟨other, member, found⟩
    have same := key_of_filledRow? found
    subst same
    rcases List.mem_range'_1.1 member with ⟨least, below⟩
    have inside : row.key < index.nextKey := by grind
    rcases coherent.filledRow?_cases columns inside
        (ne_tombstoneKey_of_lt inside fits) with ⟨-, none⟩ | ⟨live, -⟩
    · rw [none] at found
      cases found
    · exact ⟨live, least, (Option.filter_eq_some_iff.1 found).1⟩
  · rintro ⟨live, least, read⟩
    have inside : row.key < index.nextKey := Grid.lt_nextKey_of_isLive live
    refine ⟨row.key, List.mem_range'_1.2 ⟨least, by grind⟩, ?_⟩
    rcases coherent.filledRow?_cases columns inside
        (ne_tombstoneKey_of_lt inside fits) with
      ⟨dead, -⟩ | ⟨-, other, found, -, -⟩
    · rw [live] at dead
      cases dead
    · have same := (Option.filter_eq_some_iff.1 found).1
      rw [read] at same
      cases same
      exact found

theorem rowsFrom_pairwise (index : PrimaryIndex) (key : Key) :
    (index.rowsFrom key).Pairwise fun first second =>
      first.key < second.key := by
  refine List.Pairwise.filterMap _ ?_ List.pairwise_lt_range'
  intro first second before row found other otherFound
  rw [key_of_filledRow? found, key_of_filledRow? otherFound]
  exact before

theorem exists_row?_of_isLive {key : Key}
    (live : index.grid.isLive key = true) :
    ∃ row, index.row? key = some row ∧ row.key = key :=
  ⟨index.withOwner key (Row.stored key (index.grid.cells key)),
    by rw [row?, Grid.row?_of_isLive live, Option.map_some],
    index.withOwner_key key _⟩

/-- The rows ahead of a row are those of the live keys behind it. -/
theorem Coherent.mem_rowsFrom_keyAfter (coherent : index.Coherent)
    (columns : index.grid.columns ≠ []) (fits : index.nextKey < 2 ^ 64)
    {behind : Option Row} {row : Row} :
    row ∈ index.rowsFrom (keyAfter behind) ↔
      row.key ∈ index.keysBehind behind ∧ index.row? row.key = some row := by
  rw [coherent.mem_rowsFrom_iff columns fits, mem_keysBehind, and_assoc]

/-- The next row is the one of the least live key behind. -/
theorem Coherent.nextRow?_eq_some_iff (coherent : index.Coherent)
    (columns : index.grid.columns ≠ []) (fits : index.nextKey < 2 ^ 64)
    {behind : Option Row} {row : Row} :
    index.nextRow? behind = some row ↔
      IsLeast (index.keysBehind behind) row.key ∧
        index.row? row.key = some row := by
  have ahead {row : Row} : row ∈ index.rowsFrom (keyAfter behind) ↔
      row.key ∈ index.keysBehind behind ∧ index.row? row.key = some row :=
    coherent.mem_rowsFrom_keyAfter columns fits
  have ordered := index.rowsFrom_pairwise (keyAfter behind)
  rw [nextRow?_eq_head?]
  cases split : index.rowsFrom (keyAfter behind) with
  | nil =>
      rw [split] at ahead
      constructor
      · intro none
        cases none
      · rintro ⟨least, read⟩
        cases ahead.2 ⟨least.1, read⟩
  | cons first rest =>
      rw [split] at ahead ordered
      have later := (List.pairwise_cons.1 ordered).1
      rw [List.head?_cons, Option.some.injEq]
      constructor
      · rintro rfl
        rcases ahead.1 List.mem_cons_self with ⟨member, read⟩
        refine ⟨⟨member, ?_⟩, read⟩
        intro key keyMember
        rcases exists_row?_of_isLive keyMember.1 with ⟨other, otherRead, rfl⟩
        rcases List.mem_cons.1 (ahead.2 ⟨keyMember, otherRead⟩) with
          rfl | behindFirst
        · exact Nat.le_refl _
        · exact Nat.le_of_lt (later other behindFirst)
      · rintro ⟨least, read⟩
        rcases List.mem_cons.1 (ahead.2 ⟨least.1, read⟩) with
          same | behindFirst
        · exact same.symm
        · have smaller := least.2 (ahead.1 List.mem_cons_self).1
          exact absurd (later row behindFirst) (Nat.not_lt.2 smaller)

/-- There is no next row exactly if no key behind is live. -/
theorem Coherent.nextRow?_eq_none_iff (coherent : index.Coherent)
    (columns : index.grid.columns ≠ []) (fits : index.nextKey < 2 ^ 64)
    {behind : Option Row} :
    index.nextRow? behind = none ↔ index.keysBehind behind = ∅ := by
  rw [nextRow?_eq_head?, List.head?_eq_none_iff, Set.eq_empty_iff_forall_notMem,
    List.eq_nil_iff_forall_not_mem]
  constructor
  · intro none key member
    rcases exists_row?_of_isLive member.1 with ⟨row, read, rfl⟩
    exact
      none row ((coherent.mem_rowsFrom_keyAfter columns fits).2 ⟨member, read⟩)
  · intro none row member
    exact
      none row.key ((coherent.mem_rowsFrom_keyAfter columns fits).1 member).1

/-! ## A walk from row to row -/

/-- The rows that are met by going from one row to the next up to the last. -/
inductive Walks (index : PrimaryIndex) : Option Row → List Row → Prop
  | ended {behind : Option Row} (none : index.nextRow? behind = none) :
      Walks index behind []
  | step {behind : Option Row} {row : Row} {rest : List Row}
      (next : index.nextRow? behind = some row)
      (walks : Walks index (some row) rest) : Walks index behind (row :: rest)

/-- A walk meets all rows that are ahead, and comes to an end. -/
theorem walks_iff {behind : Option Row} {rows : List Row} :
    index.Walks behind rows ↔ rows = index.rowsFrom (keyAfter behind) := by
  constructor
  · intro walks
    induction walks with
    | ended none =>
        rw [nextRow?_eq_head?, List.head?_eq_none_iff] at none
        exact none.symm
    | step next walks induction =>
        rw [(rowsFrom_of_nextRow? next).2.2, ← induction]
  · intro same
    induction rows generalizing behind with
    | nil =>
        apply Walks.ended
        rw [nextRow?_eq_head?, ← same]
        rfl
    | cons row rest induction =>
        have next : index.nextRow? behind = some row := by
          rw [nextRow?_eq_head?, ← same]
          rfl
        rw [(rowsFrom_of_nextRow? next).2.2] at same
        exact Walks.step next (induction (List.tail_eq_of_cons_eq same))

/-! ## Every index that a run reaches -/

/-- The next rows of an index are those of its live keys. -/
structure WalksLiveKeys (index : PrimaryIndex) : Prop where
  next_iff : ∀ behind row, index.nextRow? behind = some row ↔
    IsLeast (index.keysBehind behind) row.key ∧ index.row? row.key = some row
  none_iff : ∀ behind, index.nextRow? behind = none ↔
    index.keysBehind behind = ∅
  /-- There is one walk from the first row on, and it comes to an end. -/
  walks_iff : ∀ rows, index.Walks none rows ↔ rows = index.storedRows
  /-- The walk meets no key twice. -/
  walk_ordered : index.storedRows.Pairwise fun first second =>
    first.key < second.key
  /-- It meets every live key, and no other one. -/
  walk_covers : ∀ key, key ∈ index.storedRows.map Row.key ↔
    index.grid.isLive key = true

theorem Coherent.walksLiveKeys (coherent : index.Coherent)
    (columns : index.grid.columns ≠ []) (fits : index.nextKey < 2 ^ 64) :
    index.WalksLiveKeys where
  next_iff := fun _ _ => coherent.nextRow?_eq_some_iff columns fits
  none_iff := fun _ => coherent.nextRow?_eq_none_iff columns fits
  walks_iff := by
    intro rows
    rw [PrimaryIndex.walks_iff, keyAfter, rowsFrom_zero,
      coherent.storedRows_eq columns fits]
  walk_ordered := index.storedRows_pairwise
  walk_covers := by
    intro key
    rw [storedRows_keys, Grid.mem_liveKeys]

/-- Without columns no row holds values. -/
theorem rowsFrom_of_columns_nil (columns : index.grid.columns = [])
    (key : Key) :
    index.rowsFrom key = [] := by
  rw [List.eq_nil_iff_forall_not_mem]
  intro row member
  rcases List.mem_filterMap.1 member with ⟨other, -, found⟩
  have values := congrArg Row.values (filledRow?_eq_some found).1
  rw [withOwner_values] at values
  have none : row.values = [] := by
    rw [values, Row.stored, Grid.cells, columns]
    rfl
  have holds := (Option.filter_eq_some_iff.1 found).2
  simp [holdsValues, Row.isEmpty, none] at holds

/--
In every primary index that a run from an empty one reaches, the search for
the next row comes to an end by itself.  With columns it finds the live row of
the least key above the given one, so that a walk meets every live key once, in
increasing order.  Without columns it finds nothing.
-/
theorem walksLiveKeys_of_run (table : TableId) (tableName : String)
    (columnNames : List String) (config : Config) (actions : List Action)
    (index : PrimaryIndex)
    (reached : (empty table tableName columnNames config).run actions = index)
    (fits : index.nextKey < 2 ^ 64) :
    (∀ behind found, index.Finds (keyAfter behind) found ↔
        found = index.nextRow? behind) ∧
      (columnNames ≠ [] → index.WalksLiveKeys) ∧
      (columnNames = [] → ∀ behind, index.nextRow? behind = none) := by
  have coherent :=
    (Coherent.empty table tableName columnNames config).run actions
  have frame :=
    (empty table tableName columnNames config).run_frame actions
  rw [reached] at coherent frame
  have width : index.grid.columns.length = columnNames.length :=
    frame.1.trans (List.length_map _)
  refine ⟨fun _ _ => finds_iff, ?_, ?_⟩
  · intro columns
    refine coherent.walksLiveKeys ?_ fits
    rw [← List.length_pos_iff, width, List.length_pos_iff]
    exact columns
  · rintro rfl behind
    have none := List.length_eq_zero_iff.1 width
    rw [nextRow?_eq_head?, rowsFrom_of_columns_nil none]
    rfl

/-- Two rows are left between removed ones. -/
def gappedActions : List Action :=
  [.insert 1 (Row.ofValues [.int 7]), .insert 1 (Row.ofValues [.int 8]),
    .insert 2 (Row.ofValues [.int 9]), .insert 1 (Row.ofValues [.int 7]),
    .insert 2 (Row.ofValues [.int 5]), .insert 1 (Row.ofValues [.int 4]),
    .remove 1 ⟨0, [], false, 0⟩, .remove 2 ⟨2, [], false, 2⟩,
    .remove 1 ⟨3, [], false, 1⟩, .remove 1 ⟨5, [], false, 1⟩]

/-- A walk skips the gaps, and so does a search behind a row of no index. -/
theorem walksLiveKeys_of_gapped_run :
    let index := (empty 1 "Readings" ["Level"] sampleConfig).run gappedActions
    index.Walks none [⟨1, [.int 8], false, 1⟩, ⟨4, [.int 5], false, 2⟩] ∧
      IsLeast (index.keysBehind (some ⟨3, [.null], true, 9⟩)) 4 ∧
      index.keysBehind (some ⟨4, [], false, 0⟩) = ∅ ∧
      ∀ behind, ((empty 1 "Readings" [] sampleConfig).run
        [.insert 1 (Row.ofValues [])]).nextRow? behind = none := by
  have walks :=
    (walksLiveKeys_of_run 1 "Readings" ["Level"] sampleConfig gappedActions _
      rfl (by decide +kernel)).2.1 (List.cons_ne_nil _ _)
  have unnamed :=
    (walksLiveKeys_of_run 1 "Readings" [] sampleConfig
      [.insert 1 (Row.ofValues [])] _ rfl (by decide +kernel)).2.2 rfl
  refine ⟨?_, ?_, ?_, unnamed⟩
  · rw [walks.walks_iff]
    decide +kernel
  · exact
      ((walks.next_iff (some ⟨3, [.null], true, 9⟩)
        ⟨4, [.int 5], false, 2⟩).1 (by decide +kernel)).1
  · rw [← walks.none_iff]
    decide +kernel

end VersionedColumns.PrimaryIndex
