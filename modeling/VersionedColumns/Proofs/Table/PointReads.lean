import VersionedColumns.Proofs.Table.Shared
import VersionedColumns.Proofs.Table.Transaction

/-!
# Reading a row by its key

A row is read by its key as it is stored, whoever asks for it, while a scan
leaves out what other sessions have inserted and keeps what they have deleted
until they commit.  The two ways of reading agree on a key exactly if no other
session has a change to it that waits for a commit.
-/

namespace VersionedColumns

namespace Standing

/-- The row that is read under a key is a live one where something is stored. -/
theorem row_isTombstone {key : Key} (notLast : key ≠ Row.tombstoneKey)
    (standing : Standing) :
    (standing.row key).isTombstone = false ↔ standing.stored?.isSome = true := by
  cases standing with
  | absent | deleted owner values => simp [row, stored?]
  | committed values | inserted owner values =>
      simp [row, stored?, Row.stored, Row.isTombstone, notLast]

/-- What is stored is what a session sees, but for the changes of others. -/
theorem stored?_isSome_iff_seen_isSome {standing : Standing}
    (owned : standing.owner? ≠ some noSession) (session : Session) :
    (standing.stored?.isSome = true ↔ (standing.seen session).isSome = true) ↔
      ∀ owner ∈ standing.owner?, owner = session := by
  cases standing with
  | absent | committed values => simp [stored?, seen, owner?]
  | inserted owner values =>
      have opened : owner ≠ noSession := fun same => owned (congrArg some same)
      simp [stored?, seen, owner?, opened]
  | deleted owner values => simp [stored?, seen, owner?]

/-- What a session sees under a key is the live row that is read there. -/
theorem seen_eq_of_row {key : Key} {session : Session} {standing : Standing}
    (live : (standing.row key).isTombstone = false) {values : List Value}
    (seen : standing.seen session = some values) :
    values = (standing.row key).values := by
  cases standing with
  | absent | deleted owner values => cases live
  | committed values =>
      cases seen
      rfl
  | inserted owner values =>
      rw [Standing.seen] at seen
      split at seen
      · cases seen
        rfl
      · cases seen

end Standing

namespace PrimaryIndex

theorem mem_seenBy {index : PrimaryIndex} {session : Session} {key : Key}
    {values : List Value} :
    (key, values) ∈ index.seenBy session ↔
      key < index.nextKey ∧
        (index.standing key).seen session = some values := by
  rw [seenBy, List.mem_filterMap]
  constructor
  · rintro ⟨other, inside, seen⟩
    rcases Option.map_eq_some_iff.1 seen with ⟨_, found, ⟨⟩⟩
    exact ⟨List.mem_range.1 inside, found⟩
  · rintro ⟨inside, found⟩
    exact ⟨key, List.mem_range.2 inside, by rw [found]; rfl⟩

end PrimaryIndex

namespace Table

variable {table : Table} {session : Session} {key : Key}

/-- A scan yields under a key what its session sees there. -/
theorem Shared.exists_scanned_iff (shared : table.Shared)
    (columns : table.columns ≠ []) (limit : table.primary.nextKey < 2 ^ 64)
    (inside : key < table.primary.nextKey) {values : List Value} :
    (∃ seen ∈ table.scanned session, seen.key = key ∧ seen.values = values) ↔
      (table.primary.standing key).seen session = some values := by
  have member :
      (key, values) ∈ (table.scanned session).map PrimaryIndex.content ↔ _ :=
    (shared.scanned_perm columns limit session).mem_iff
  rw [PrimaryIndex.mem_seenBy, and_iff_right inside, List.mem_map] at member
  rw [← member]
  refine exists_congr fun seen => and_congr_right fun _ => ?_
  exact Prod.mk_inj.symm

/--
A row that is not the tombstone is read under a key exactly if a scan yields
one, and both have the same values.
-/
def ReadsAsScanned (table : Table) (session : Session) (key : Key) : Prop :=
  ((∃ row, table.row key = .ok row ∧ row.isTombstone = false) ↔
      ∃ seen ∈ table.scanned session, seen.key = key) ∧
    ∀ row, table.row key = .ok row → row.isTombstone = false →
      ∀ seen ∈ table.scanned session, seen.key = key → seen.values = row.values

/-- Both ways of reading a key agree unless it is another session's change. -/
theorem Shared.readsAsScanned_iff (shared : table.Shared)
    (columns : table.columns ≠ []) (limit : table.primary.nextKey < 2 ^ 64)
    (inside : key < table.primary.nextKey) :
    table.ReadsAsScanned session key ↔
      ∀ change ∈ table.primary.pending.row? key, change.owner = session := by
  have notLast := PrimaryIndex.ne_tombstoneKey_of_lt inside limit
  have read := shared.sound.row_eq limit inside
  have stored :
      (∃ row, table.row key = .ok row ∧ row.isTombstone = false) ↔
        (table.primary.standing key).stored?.isSome = true := by
    rw [← Standing.row_isTombstone notLast, read]
    constructor
    · rintro ⟨row, ⟨⟩, live⟩
      exact live
    · intro live
      exact ⟨_, rfl, live⟩
  have scanned : (∃ seen ∈ table.scanned session, seen.key = key) ↔
      ((table.primary.standing key).seen session).isSome = true := by
    rw [Option.isSome_iff_exists]
    constructor
    · rintro ⟨seen, member, same⟩
      exact
        ⟨seen.values,
          (shared.exists_scanned_iff columns limit inside).1
            ⟨seen, member, same, rfl⟩⟩
    · rintro ⟨values, found⟩
      rcases (shared.exists_scanned_iff columns limit inside).2 found with
        ⟨seen, member, same, -⟩
      exact ⟨seen, member, same⟩
  have agree :=
    Standing.stored?_isSome_iff_seen_isSome (shared.owned key) session
  rw [PrimaryIndex.owner?_standing] at agree
  rw [ReadsAsScanned, stored, scanned, agree]
  constructor
  · rintro ⟨own, -⟩ change found
    exact own change.owner (Option.mem_map_of_mem Row.owner found)
  · intro own
    refine ⟨?_, ?_⟩
    · intro owner found
      rcases Option.mem_map.1 found with ⟨change, pending, rfl⟩
      exact own change pending
    · intro row rowRead live seen member same
      rw [read] at rowRead
      cases rowRead
      have found :=
        (shared.exists_scanned_iff columns limit inside).1
          ⟨seen, member, same, rfl⟩
      exact Standing.seen_eq_of_row live found

/--
In every table with changes that wait for a commit which a run from a new one
reaches, to read a key yields what a scan of a session yields there exactly if
no other session has a change to that key that waits for a commit.
-/
theorem readsAsScanned_iff_of_run (id : TableId) (schema : Schema)
    (config : Config) (versioned : config.versioned = true)
    (columns : schema.columns ≠ []) (actions : List Action)
    (sessions : Obeys BySession (create id schema config) actions)
    (limits : Obeys KeysFit (create id schema config) actions)
    (table : Table) (reached : (create id schema config).run actions = table)
    (session : Session) (key : Key) (inside : key < table.primary.nextKey) :
    table.ReadsAsScanned session key ↔
      ∀ change ∈ table.primary.pending.row? key, change.owner = session := by
  have new := Shared.create id schema versioned
  have shared := new.run sessions limits
  have kept := new.sound.run_columns limits
  have keysFit := limits.nextKey_lt (Nat.two_pow_pos 64)
  rw [reached] at shared kept keysFit
  exact shared.readsAsScanned_iff (kept ▸ columns) keysFit inside

/-- A session that has deleted a row neither reads nor scans it. -/
theorem readsAsScanned_of_sample_delete :
    ((create 1 sampleSchema sampleConfig).run
      (sampleActions.take 5)).ReadsAsScanned 2 0 :=
  (readsAsScanned_iff_of_run 1 sampleSchema sampleConfig rfl
    (List.cons_ne_nil _ _) (sampleActions.take 5) (by decide +kernel)
    (by decide +kernel) _ rfl 2 0 (by decide +kernel)).2 (by decide +kernel)

/-- A deleted row is no longer read by sessions that still scan it. -/
theorem not_every_key_readsAsScanned :
    ¬∀ (id : TableId) (schema : Schema) (config : Config)
        (actions : List Action) (session : Session) (key : Key),
        config.versioned = true → schema.columns ≠ [] →
        Obeys BySession (create id schema config) actions →
        Obeys KeysFit (create id schema config) actions →
        session ≠ noSession →
        key < ((create id schema config).run actions).primary.nextKey →
        ((create id schema config).run actions).ReadsAsScanned session key := by
  intro agree
  have reads :=
    agree 1 sampleSchema sampleConfig
      [.insert 1 [.int 7], .commit 1, .remove 1 0] 2 0 rfl
      (List.cons_ne_nil _ _) (by decide +kernel) (by decide +kernel) (by decide)
      (by decide +kernel)
  have scanned : ∃ seen ∈ ((create 1 sampleSchema sampleConfig).run
      [.insert 1 [.int 7], .commit 1, .remove 1 0]).scanned 2, seen.key = 0 := by
    decide +kernel
  have gone : ((create 1 sampleSchema sampleConfig).run
      [.insert 1 [.int 7], .commit 1, .remove 1 0]).row 0 =
        .ok Row.tombstone := by
    decide +kernel
  rcases reads.1.2 scanned with ⟨row, read, live⟩
  rw [gone] at read
  cases read
  cases live

end Table

end VersionedColumns
