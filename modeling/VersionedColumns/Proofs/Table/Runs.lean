import VersionedColumns.Proofs.Table.Steps

/-!
# Runs of sound tables

Every call leaves a sound table sound, whether it succeeds or fails, as long
as the keys stay below the one that marks removed rows.  Conditions on a run
are rules that every call of it keeps in the table in which it is made.
-/

namespace VersionedColumns

namespace Table

/-! ## Calls on indexes -/

/-- To fill an index changes nothing that it has without rows. -/
theorem clear_fill (rows : PrimaryIndex) (behind : Option Row) (keys : Nat)
    (index : EqualityIndex) :
    (fill rows behind keys index).2.clear = index.clear := by
  induction keys generalizing behind index with
  | zero => rfl
  | succ keys induction =>
      rw [fill]
      split
      · rfl
      · rename_i row _
        have kept := index.clear_insert row
        split
        · rename_i refused
          rw [refused] at kept
          exact kept
        · rename_i accepted
          rw [accepted] at kept
          rw [induction]
          exact kept

theorem fill_column (rows : PrimaryIndex) (behind : Option Row) (keys : Nat)
    (index : EqualityIndex) :
    (fill rows behind keys index).2.column = index.column := by
  have kept := congrArg EqualityIndex.column (clear_fill rows behind keys index)
  exact kept

/-- What a call to add an index can do. -/
theorem addIndex_cases (table : Table) (name column : String) :
    (∃ error, table.addIndex name column = (.error error, table)) ∨
      ∃ position definition filled,
        table.columns[position]? = some definition ∧
        fill table.primary none table.primary.nextKey
            (EqualityIndex.empty table.id name position definition.type) =
          (.ok (), filled) ∧
        table.addIndex name column =
          (.ok (), { table with secondary := table.secondary ++ [filled] }) := by
  rw [addIndex]
  split
  · exact Or.inl ⟨_, rfl⟩
  · split
    · exact Or.inl ⟨_, rfl⟩
    · rename_i position _
      split
      · exact Or.inl ⟨_, rfl⟩
      · rename_i definition inside
        dsimp only
        split
        · exact Or.inl ⟨_, rfl⟩
        · rename_i filled accepted
          exact Or.inr ⟨position, definition, filled, inside, accepted, rfl⟩

/-- What a call to drop an index can do. -/
theorem dropIndex_cases (table : Table) (name : String) :
    (∃ error, table.dropIndex name = (.error error, table)) ∨
      (table.equalityIndex? name).isSome = true ∧
        table.dropIndex name =
          (.ok (),
            { table with
              secondary :=
                table.secondary.eraseP fun index => index.name == name }) := by
  rw [dropIndex]
  split
  · exact Or.inl ⟨_, rfl⟩
  · split
    · exact Or.inl ⟨_, rfl⟩
    · rename_i found
      exact Or.inr ⟨by rw [found]; rfl, rfl⟩

/-- What a call to rename an index can do. -/
theorem renameIndex_cases (table : Table) (name newName : String) :
    (∃ error, table.renameIndex name newName = (.error error, table)) ∨
      table.renameIndex name newName =
        (.ok (),
          { table with
            secondary := renameFirst name newName table.secondary }) := by
  rw [renameIndex]
  split
  · exact Or.inl ⟨_, rfl⟩
  · split
    · exact Or.inl ⟨_, rfl⟩
    · split
      · exact Or.inl ⟨_, rfl⟩
      · exact Or.inr rfl

/-- An index that is renamed keeps everything but its name. -/
theorem mem_renameFirst {name newName : String} {indexes : List EqualityIndex}
    {index : EqualityIndex} (member : index ∈ renameFirst name newName indexes) :
    index ∈ indexes ∨ ∃ old ∈ indexes, index = { old with name := newName } := by
  induction indexes with
  | nil => cases member
  | cons first rest induction =>
      rw [renameFirst] at member
      split at member
      · rcases List.mem_cons.1 member with rfl | later
        · exact Or.inr ⟨first, List.mem_cons_self, rfl⟩
        · exact Or.inl (List.mem_cons_of_mem _ later)
      · rcases List.mem_cons.1 member with rfl | later
        · exact Or.inl List.mem_cons_self
        · rcases induction later with same | ⟨old, oldMember, renamed⟩
          · exact Or.inl (List.mem_cons_of_mem _ same)
          · exact Or.inr ⟨old, List.mem_cons_of_mem _ oldMember, renamed⟩

/-! ## What calls make of sound tables -/

/-- What a call can answer on a sound table, and what it can make of it. -/
inductive Effect (table : Table) : Action → Except Error Reply → Table → Prop
  /-- A call that fails changes nothing. -/
  | refused {action : Action} (error : Error) :
      Effect table action (.error error) table
  | inserted {session : Session} {values converted : List Value}
      (fits : Fits table.columns converted) :
      Effect table (.insert session values) (.ok (.key table.primary.nextKey))
        (table.withRow session converted)
  | removed {session : Session} {key : Key} {row : Row}
      (found : table.liveRow? key = some row) :
      Effect table (.remove session key) (.ok (.row row))
        (table.withoutRow session row)
  | committed {session : Session}
      (steps : Steps session table (table.commit session).2) :
      Effect table (.commit session)
        (.ok (.count (table.pendingOf session).length)) (table.commit session).2
  | rolledBack {session : Session}
      (steps : Steps session table (table.rolledBack session)) :
      Effect table (.rollback session)
        (.ok (.count (table.pendingOf session).length))
        (table.rolledBack session)
  | indexAdded {name column : String} {position : Nat} {definition : Column}
      {filled : EqualityIndex}
      (inside : table.columns[position]? = some definition)
      (accepted : fill table.primary none table.primary.nextKey
          (EqualityIndex.empty table.id name position definition.type) =
        (.ok (), filled)) :
      Effect table (.addIndex name column) (.ok .done)
        { table with secondary := table.secondary ++ [filled] }
  | indexDropped {name : String}
      (found : (table.equalityIndex? name).isSome = true) :
      Effect table (.dropIndex name) (.ok .done)
        { table with
          secondary :=
            table.secondary.eraseP fun index => index.name == name }
  | indexRenamed {name newName : String} :
      Effect table (.renameIndex name newName) (.ok .done)
        { table with secondary := renameFirst name newName table.secondary }
  | truncated : Effect table .truncate (.ok .done) table.truncate
  | closed : Effect table .close (.ok .done) table.close
  | discarded : Effect table .discard (.ok .done) table.discard

/-- Every call has one of these effects. -/
theorem Sound.perform_effect {table : Table} (sound : table.Sound)
    (action : Action)
    (limit : (table.after action).primary.nextKey < 2 ^ 64) :
    Effect table action (table.perform action).1 (table.after action) := by
  rw [after]
  cases action with
  | insert session values =>
      rw [perform]
      rcases sound.insert_cases session values with ⟨_, refused⟩ | ⟨_, fits, stored⟩
      · rw [refused]
        exact Effect.refused _
      · rw [stored]
        exact Effect.inserted fits
  | remove session key =>
      rw [perform]
      rcases sound.remove_cases session key with ⟨_, refused⟩ | ⟨row, found, removed⟩
      · rw [refused]
        exact Effect.refused _
      · rw [removed]
        exact Effect.removed found
  | commit session =>
      rw [perform]
      exact Effect.committed (sound.steps_commit session)
  | rollback session =>
      have steps := sound.steps_rollback session limit
      rw [sound.rollback_eq session limit] at steps
      rw [perform, sound.rollback_eq session limit]
      exact Effect.rolledBack steps
  | addIndex name column =>
      rw [perform]
      rcases table.addIndex_cases name column with
        ⟨_, refused⟩ | ⟨position, definition, filled, inside, accepted, added⟩
      · rw [refused]
        exact Effect.refused _
      · rw [added]
        exact Effect.indexAdded inside accepted
  | dropIndex name =>
      rw [perform]
      rcases table.dropIndex_cases name with ⟨_, refused⟩ | ⟨found, dropped⟩
      · rw [refused]
        exact Effect.refused _
      · rw [dropped]
        exact Effect.indexDropped found
  | renameIndex name newName =>
      rw [perform]
      rcases table.renameIndex_cases name newName with ⟨_, refused⟩ | renamed
      · rw [refused]
        exact Effect.refused _
      · rw [renamed]
        exact Effect.indexRenamed
  | truncate => exact Effect.truncated
  | close => exact Effect.closed
  | discard => exact Effect.discarded

/-- Every call leaves a sound table sound. -/
theorem Sound.after {table : Table} (sound : table.Sound) (action : Action)
    (limit : (table.after action).primary.nextKey < 2 ^ 64) :
    (table.after action).Sound := by
  have effect := sound.perform_effect action limit
  generalize (table.perform action).1 = answer at effect
  generalize table.after action = later at effect ⊢
  cases effect with
  | refused error => exact sound
  | inserted fits => exact sound.withRow fits _
  | removed found =>
      have same := (liveRow?_eq_some found).2.1
      exact sound.withoutRow (by rw [same]; exact found) _
  | committed steps | rolledBack steps => exact sound.steps steps
  | indexAdded inside accepted =>
      rename_i name _ position definition filled
      apply sound.reindexed
      intro index member
      rcases List.mem_append.1 member with old | new
      · exact sound.indexed index old
      · have kept := fill_column table.primary none table.primary.nextKey
          (EqualityIndex.empty table.id name position definition.type)
        rw [accepted] at kept
        rw [List.mem_singleton.1 new, kept]
        exact (List.getElem?_eq_some_iff.1 inside).1
  | indexDropped found =>
      exact sound.reindexed fun index member =>
        sound.indexed index (List.mem_of_mem_eraseP member)
  | indexRenamed =>
      apply sound.reindexed
      intro index member
      rcases mem_renameFirst member with same | ⟨old, oldMember, rfl⟩
      · exact sound.indexed index same
      · exact sound.indexed old oldMember
  | truncated =>
      apply sound_clear sound.width
      intro index member
      rcases List.mem_map.1 member with ⟨old, oldMember, rfl⟩
      exact sound.indexed old oldMember
  | closed =>
      apply sound.reindexed
      intro index member
      rcases List.mem_map.1 member with ⟨old, oldMember, rfl⟩
      exact sound.indexed old oldMember
  | discarded =>
      apply sound_clear sound.width
      intro index member
      cases member

theorem Step.frame {session : Session} {table later : Table}
    (step : Step session table later) :
    later.columns = table.columns ∧
      later.primary.versioned = table.primary.versioned := by
  cases step with
  | stored fits => exact ⟨rfl, PrimaryIndex.withRow_versioned _ _ _⟩
  | takenBack found member own =>
      exact ⟨rfl, PrimaryIndex.withoutRow_versioned _ _ _⟩
  | settled member => exact ⟨rfl, commitRow_versioned _ _ _⟩

/-- No call alters the columns, or whether changes wait for a commit. -/
theorem Sound.after_frame {table : Table} (sound : table.Sound)
    (action : Action)
    (limit : (table.after action).primary.nextKey < 2 ^ 64) :
    (table.after action).columns = table.columns ∧
      (table.after action).primary.versioned = table.primary.versioned := by
  have effect := sound.perform_effect action limit
  generalize (table.perform action).1 = answer at effect
  generalize table.after action = later at effect ⊢
  cases effect with
  | refused error => exact ⟨rfl, rfl⟩
  | inserted fits => exact ⟨rfl, PrimaryIndex.withRow_versioned _ _ _⟩
  | removed found => exact ⟨rfl, PrimaryIndex.withoutRow_versioned _ _ _⟩
  | committed steps | rolledBack steps =>
      exact
        steps.preserve
          (motive := fun later =>
            later.columns = table.columns ∧
              later.primary.versioned = table.primary.versioned)
          (fun _ same step =>
            ⟨step.frame.1.trans same.1, step.frame.2.trans same.2⟩)
          sound ⟨rfl, rfl⟩
  | indexAdded inside accepted | indexDropped found | indexRenamed | truncated
  | closed | discarded => exact ⟨rfl, rfl⟩

/-! ## Rules that a run keeps -/

/-- Every call of a run keeps a rule in the table in which it is made. -/
def Obeys (rule : Table → Action → Prop) : Table → List Action → Prop
  | _, [] => True
  | table, action :: rest =>
    rule table action ∧ Obeys rule (table.after action) rest

instance Obeys.decidable {rule : Table → Action → Prop}
    [decidable : ∀ table action, Decidable (rule table action)] :
    (table : Table) → (actions : List Action) →
      Decidable (Obeys rule table actions)
  | _, [] => isTrue trivial
  | table, action :: rest =>
    @instDecidableAnd _ _ (decidable table action)
      (Obeys.decidable (table.after action) rest)

theorem Obeys.append {rule : Table → Action → Prop} {table : Table}
    {first second : List Action} (obeys : Obeys rule table (first ++ second)) :
    Obeys rule table first ∧ Obeys rule (table.run first) second := by
  induction first generalizing table with
  | nil => exact ⟨trivial, obeys⟩
  | cons action rest induction =>
      rcases obeys with ⟨kept, later⟩
      rcases induction later with ⟨begun, ended⟩
      exact ⟨⟨kept, begun⟩, ended⟩

theorem Obeys.and {first second : Table → Action → Prop} {table : Table}
    {actions : List Action} (one : Obeys first table actions)
    (other : Obeys second table actions) :
    Obeys (fun table action => first table action ∧ second table action)
      table actions := by
  induction actions generalizing table with
  | nil => trivial
  | cons action rest induction =>
      exact ⟨⟨one.1, other.1⟩, induction one.2 other.2⟩

/-- What every call carries over under its rule holds after a run. -/
theorem Obeys.preserve {rule : Table → Action → Prop} {motive : Table → Prop}
    (preserve : ∀ {table : Table} {action : Action}, motive table →
      rule table action → motive (table.after action))
    {table : Table} {actions : List Action} (obeys : Obeys rule table actions)
    (start : motive table) :
    motive (table.run actions) := by
  induction actions generalizing table with
  | nil => exact start
  | cons action rest induction =>
      exact induction obeys.2 (preserve start obeys.1)

/-- The call leaves all keys below the one that marks removed rows. -/
def KeysFit (table : Table) (action : Action) : Prop :=
  (table.after action).primary.nextKey < 2 ^ 64

instance KeysFit.decidable (table : Table) (action : Action) :
    Decidable (KeysFit table action) :=
  inferInstanceAs (Decidable (_ < _))

/-- The session that makes a call, if it matters who makes it. -/
def Action.session? : Action → Option Session
  | .insert session _ | .remove session _ | .commit session
  | .rollback session => some session
  | .addIndex .. | .dropIndex .. | .renameIndex .. | .truncate | .close
  | .discard => none

/-- The call is not made in the name of no session. -/
def BySession (_ : Table) (action : Action) : Prop :=
  action.session? ≠ some noSession

instance BySession.decidable (table : Table) (action : Action) :
    Decidable (BySession table action) :=
  inferInstanceAs (Decidable (_ ≠ _))

/-- A removal that succeeds does not hit what another session has inserted. -/
def SparesInserts (table : Table) : Action → Prop
  | .remove session key =>
    (table.remove session key).1.isOk = true →
      ∀ change ∈ table.primary.pending.row? key,
        change.deleted = false → change.owner = session
  | _ => True

instance SparesInserts.decidable (table : Table) :
    (action : Action) → Decidable (SparesInserts table action)
  | .remove session key =>
    inferInstanceAs (Decidable ((table.remove session key).1.isOk = true →
      ∀ change ∈ table.primary.pending.row? key,
        change.deleted = false → change.owner = session))
  | .insert .. | .commit _ | .rollback _ | .addIndex .. | .dropIndex ..
  | .renameIndex .. | .truncate | .close | .discard => isTrue trivial

/-- Every run leaves a sound table sound. -/
theorem Sound.run {table : Table} (sound : table.Sound) {actions : List Action}
    (limits : Obeys KeysFit table actions) :
    (table.run actions).Sound :=
  limits.preserve (fun sound limit => Sound.after sound _ limit) sound

theorem Sound.run_columns {table : Table} (sound : table.Sound)
    {actions : List Action} (limits : Obeys KeysFit table actions) :
    (table.run actions).columns = table.columns := by
  induction actions generalizing table with
  | nil => rfl
  | cons action rest induction =>
      have later := sound.after action limits.1
      exact (induction later limits.2).trans (sound.after_frame action limits.1).1

theorem Obeys.nextKey_lt {table : Table} {actions : List Action}
    (limits : Obeys KeysFit table actions)
    (start : table.primary.nextKey < 2 ^ 64) :
    (table.run actions).primary.nextKey < 2 ^ 64 :=
  limits.preserve (motive := fun table => table.primary.nextKey < 2 ^ 64)
    (fun _ limit => limit) start

/-! ## A run of two sessions -/

/-- One column of numbers. -/
def sampleSchema : Schema where
  name := "Readings"
  columns := [⟨"Level", .int⟩]
  persistent := false

/-- Changes wait for a commit. -/
def sampleConfig : Config where
  versioned := true
  diagnostics := false
  scanCost := ⟨0⟩

/-- The second session deletes a row of the first one and rolls back. -/
def sampleActions : List Action :=
  [.insert 1 [.int 7], .insert 2 [.varchar "8"], .commit 1,
    .addIndex "ByLevel" "Level", .remove 2 0, .rollback 2, .insert 2 [.int 9]]

end Table

end VersionedColumns
