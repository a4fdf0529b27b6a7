import VersionedColumns.Proofs.Index.Standing

/-!
# What a session sees

A session sees a row under every key that stands for a committed row it has
not deleted itself or for an insert of its own.  The main statement says that
a scan yields exactly these rows, each of them once: the two lists that a scan
goes through never meet under one key.
-/

namespace VersionedColumns

/-- Two partial maps that never meet list together what they list apart. -/
theorem filterMap_append_perm {Item Image : Type} {items : List Item}
    {first second : Item → Option Image}
    (apart : ∀ item ∈ items, first item = none ∨ second item = none) :
    (items.filterMap first ++ items.filterMap second).Perm
      (items.filterMap fun item => (first item).or (second item)) := by
  induction items with
  | nil => exact List.Perm.refl _
  | cons item items induction =>
      have rest :=
        induction fun other member => apart other (List.mem_cons_of_mem _ member)
      rcases apart item List.mem_cons_self with absent | absent
      · cases found : second item with
        | none => simpa [absent, found] using rest
        | some image =>
            simp only [List.filterMap_cons, absent, found, Option.none_or]
            exact List.perm_middle.trans (List.Perm.cons image rest)
      · cases found : first item with
        | none => simpa [absent, found] using rest
        | some image =>
            simp only [List.filterMap_cons, absent, found, Option.some_or,
              List.cons_append]
            exact List.Perm.cons image rest

namespace Standing

/-- The values that a session still sees though another has deleted them. -/
def deletedElsewhere (session : Session) : Standing → Option (List Value)
  | deleted owner values => if owner = session then none else some values
  | _ => none

/-- The stored values that a session sees. -/
def storedFor (session : Session) : Standing → Option (List Value)
  | committed values => some values
  | inserted owner values =>
    if owner = noSession ∨ owner = session then some values else none
  | _ => none

theorem deletedElsewhere_or_storedFor (session : Session)
    (standing : Standing) :
    (standing.deletedElsewhere session).or (standing.storedFor session) =
      standing.seen session := by
  cases standing with
  | absent => rfl
  | committed values => rfl
  | inserted owner values => rfl
  | deleted owner values => exact Option.or_none

/-- A key stands either for a stored row or for a delete. -/
theorem deletedElsewhere_eq_none_or (session : Session) (standing : Standing) :
    standing.deletedElsewhere session = none ∨
      standing.storedFor session = none := by
  cases standing with
  | deleted owner values => exact Or.inr rfl
  | absent | committed values | inserted owner values => exact Or.inl rfl

end Standing

namespace PrimaryIndex

/-- The keys and values that a session sees, in the order of the keys. -/
def seenBy (index : PrimaryIndex) (session : Session) :
    List (Key × List Value) :=
  (List.range index.nextKey).filterMap fun key =>
    ((index.standing key).seen session).map (key, ·)

/-- The key and the values of a row. -/
def content (row : Row) : Key × List Value :=
  (row.key, row.values)

/-- A walk finds a row under the keys that stand for a stored one. -/
theorem Coherent.filledRow?_eq {index : PrimaryIndex}
    (coherent : index.Coherent) (columns : index.grid.columns ≠ []) {key : Key}
    (inside : key < index.nextKey) (notLast : key ≠ Row.tombstoneKey) :
    index.filledRow? key =
      ((index.standing key).stored?).map fun _ =>
        (index.standing key).row key := by
  have stored := coherent.stored?_standing key
  rw [filledRow?, coherent.row?_eq inside notLast]
  cases stands : index.standing key with
  | absent | deleted owner values => simp [Standing.row, Standing.stored?, holdsValues]
  | committed values | inserted owner values =>
      have cells : values = index.grid.cells key := by
        rw [stands] at stored
        simp only [Standing.stored?] at stored
        split at stored
        · exact Option.some.inj stored
        · cases stored
      have filled : values ≠ [] := by
        rw [ne_eq, ← List.length_eq_zero_iff, cells, Grid.cells_length,
          List.length_eq_zero_iff]
        exact columns
      simp [Standing.row, Standing.stored?, holdsValues, Row.stored,
        Row.isEmpty, Row.isTombstone, filled, notLast]

/-- A walk finds the row of its cells under a live key, and no other row. -/
theorem Coherent.filledRow?_cases {index : PrimaryIndex}
    (coherent : index.Coherent) (columns : index.grid.columns ≠ []) {key : Key}
    (inside : key < index.nextKey) (notLast : key ≠ Row.tombstoneKey) :
    (index.grid.isLive key = false ∧ index.filledRow? key = none) ∨
      (index.grid.isLive key = true ∧
        ∃ row, index.filledRow? key = some row ∧ row.key = key ∧
          row.values = index.grid.cells key) := by
  have found := coherent.filledRow?_eq columns inside notLast
  have stored := coherent.stored?_standing key
  cases live : index.grid.isLive key with
  | false =>
      rw [live] at stored
      rw [stored] at found
      exact Or.inl ⟨rfl, found⟩
  | true =>
      rw [live, if_pos rfl] at stored
      rw [stored] at found
      refine Or.inr ⟨rfl, _, found, ?_⟩
      cases stands : index.standing key with
      | absent | deleted owner values =>
          rw [stands] at stored
          cases stored
      | committed values | inserted owner values =>
          rw [stands] at stored
          exact ⟨rfl, Option.some.inj stored⟩

/-- Where no change waits for a commit every session sees every row. -/
theorem visibleTo_of_settled {index : PrimaryIndex}
    (settled : index.pending.rows = []) {row : Row}
    (member : row ∈ index.liveRows) (session : Session) :
    row.visibleTo session = true := by
  rcases List.mem_filterMap.1 member with ⟨key, -, found⟩
  have unchanged : index.pending.row? key = none := by
    rw [PendingChanges.row?, settled]
    rfl
  rw [(filledRow?_eq_some found).1, withOwner, unchanged]
  rfl

/-- Where changes take effect at once every session sees every row. -/
theorem Coherent.visibleTo_of_immediate {index : PrimaryIndex}
    (coherent : index.Coherent) (immediate : index.versioned = false)
    {row : Row} (member : row ∈ index.liveRows) (session : Session) :
    row.visibleTo session = true :=
  visibleTo_of_settled (coherent.unrecorded immediate) member session

/-- Where no change waits for a commit a scan goes through all live rows. -/
theorem remaining_start_of_settled {index : PrimaryIndex}
    (settled : index.pending.rows = []) (session : Session) :
    (Cursor.scan (Scan.start index session)).remaining.1 = index.liveRows := by
  cases versioned : index.versioned with
  | false => exact Scan.remaining_start_of_immediate versioned session
  | true =>
      rw [Scan.remaining_start_of_versioned versioned, settled,
        List.filter_nil, List.nil_append, List.filter_eq_self]
      exact fun row member => visibleTo_of_settled settled member session

/-- Among the live rows a session sees the committed ones and its inserts. -/
theorem Coherent.visible_liveRows {index : PrimaryIndex}
    (coherent : index.Coherent) (columns : index.grid.columns ≠ [])
    (fits : index.nextKey < 2 ^ 64) (session : Session) :
    (index.liveRows.filter fun row => row.visibleTo session).map content =
      (List.range index.nextKey).filterMap fun key =>
        ((index.standing key).storedFor session).map (key, ·) := by
  rw [liveRows, List.filter_filterMap, List.map_filterMap]
  apply List.filterMap_congr
  intro key member
  have inside := List.mem_range.1 member
  have notLast := ne_tombstoneKey_of_lt inside fits
  rw [coherent.filledRow?_eq columns inside notLast]
  cases index.standing key with
  | absent | deleted owner values | committed values => rfl
  | inserted owner values =>
      by_cases visible : owner = noSession ∨ owner = session
      · simp [Standing.storedFor, Standing.stored?, Standing.row, Row.visibleTo,
          visible, content]
      · simp only [Standing.storedFor, if_neg visible]
        simpa [Standing.stored?, Standing.row, Row.visibleTo] using visible

/-- Among the changes a session sees what other sessions have deleted. -/
theorem Coherent.deletedElsewhere_rows {index : PrimaryIndex}
    (coherent : index.Coherent) (session : Session) :
    (index.pending.rows.filter (Scan.deletedElsewhere session)).map content =
      (List.range index.nextKey).filterMap fun key =>
        ((index.standing key).deletedElsewhere session).map (key, ·) := by
  rw [coherent.ordered.rows_eq_filterMap fun _ member => coherent.key_lt member,
    List.filter_filterMap, List.map_filterMap]
  apply List.filterMap_congr
  intro key member
  cases found : index.pending.row? key with
  | none =>
      rw [standing_of_row?_none found]
      cases index.grid.isLive key <;> rfl
  | some change =>
      have same := (PendingChanges.mem_rows_of_row? found).2
      rw [standing_of_row?_some found]
      cases mark : change.deleted with
      | false => simp [Scan.deletedElsewhere, mark, Standing.deletedElsewhere]
      | true =>
          by_cases own : change.owner = session
          · simp [Scan.deletedElsewhere, mark, Standing.deletedElsewhere, own]
          · simp [Scan.deletedElsewhere, mark, Standing.deletedElsewhere, own,
              content, same]

/-- A scan yields exactly the rows that its session sees, each once. -/
theorem Coherent.remaining_perm_seenBy {index : PrimaryIndex}
    (coherent : index.Coherent) (versioned : index.versioned = true)
    (columns : index.grid.columns ≠ []) (fits : index.nextKey < 2 ^ 64)
    (session : Session) :
    ((Cursor.scan (Scan.start index session)).remaining.1.map content).Perm
      (index.seenBy session) := by
  rw [Scan.remaining_start_of_versioned versioned, List.map_append,
    coherent.deletedElsewhere_rows, coherent.visible_liveRows columns fits]
  have apart : ∀ key ∈ List.range index.nextKey,
      ((index.standing key).deletedElsewhere session).map (key, ·) = none ∨
        ((index.standing key).storedFor session).map (key, ·) = none := by
    intro key _
    simpa using (index.standing key).deletedElsewhere_eq_none_or session
  have merged := filterMap_append_perm apart
  simp only [← Option.map_or, Standing.deletedElsewhere_or_storedFor] at merged
  exact merged

end PrimaryIndex

end VersionedColumns
