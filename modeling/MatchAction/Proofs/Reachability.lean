import MatchAction.Proofs.Representation

/-!
# Reachability

A table can be locked and called by itself.  It then looks neither at the table that an entry names
nor, for a direct resource, at whether it is to be inserted.  A table is reachable if such calls lead
to it from an empty one, and so is every table of a reachable registry.  In a reachable table every
row lies at the place of its own entry.
-/

namespace MatchAction

theorem TableEntry.sorted_of_bare (entry : TableEntry) (bare : entry.fieldMatches = []) :
    entry.sorted = entry :=
  entry.sorted_of_pairwise (bare ▸ List.Pairwise.nil)

namespace Table

variable {table next : Table} {mutation : Mutation}

/-- The table after a call of it by itself, if the call succeeds. -/
def mutate (table : Table) (mutation : Mutation) : Except Error Table :=
  let (result, next, _) := mutation.procedure.on table []
  result.map fun () => next

/-- A table called by itself does to the place addressed what the effect of the mutation says. -/
theorem mutate_eq (table : Table) (mutation : Mutation) :
    table.mutate mutation = table.applyEffect mutation := by
  rw [mutate, on_procedure, ← map_fst_committed]
  cases table.committed mutation <;> rfl

theorem mutate_eq_ok :
    table.mutate mutation = .ok next ↔ ∃ place held, table.place mutation = .ok place ∧
      mutation.effect (table.row place) = .ok held ∧ next = table.setRow place held := by
  simp only [mutate_eq, applyEffect, bind_eq_ok]
  constructor
  · rintro ⟨place, addressed, held, done, same⟩
    exact ⟨place, held, addressed, done, (Except.ok.inj same).symm⟩
  · rintro ⟨place, held, addressed, done, rfl⟩
    exact ⟨place, addressed, held, done, rfl⟩

/-- What a table is asked for when it is called by itself. -/
inductive Command where
  | mutate (mutation : Mutation)
  | setMatcher (matcher : Matcher)
  /-- A read whose sender refuses its calls as `answer` says. -/
  | read (request : TableEntry) (type : ReadType) (answer : Nat → Option String)

/-- A command that was performed: what its caller saw, and the table after it. -/
structure Done where
  command : Command
  outcome : Outcome
  after : Table

/-- Performs a command.  The table is the one that the command leaves, whether it fails or not. -/
def perform (table : Table) (command : Command) : Done :=
  match command with
  | .mutate mutation =>
      let (result, next, _) := mutation.procedure.on table []
      ⟨command, ⟨result, []⟩, next⟩
  | .setMatcher matcher => ⟨command, ⟨.ok (), []⟩, { table with matcher }⟩
  | .read request type answer =>
      let (result, next, sender) := (reading request type).on table (.fresh answer)
      ⟨command, ⟨result, sender.calls.toList⟩, next⟩

/-- A mutation that fails leaves the table as it was. -/
theorem perform_mutate (table : Table) (mutation : Mutation) :
    table.perform (.mutate mutation) =
      match table.mutate mutation with
      | .ok next => ⟨.mutate mutation, ⟨.ok (), []⟩, next⟩
      | .error error => ⟨.mutate mutation, ⟨.error error, []⟩, table⟩ := by
  rw [perform, mutate, on_procedure]
  cases table.committed mutation <;> rfl

/-- A read leaves the table as it is. -/
theorem perform_read (table : Table) (request : TableEntry) (type : ReadType)
    (answer : Nat → Option String) :
    table.perform (.read request type answer) =
      ⟨.read request type answer, ⟨(table.read request type (.fresh answer)).1,
        (table.read request type (.fresh answer)).2.calls.toList⟩, table⟩ := by
  rw [perform, on_reading]

theorem perform_of_done {place : Place} {held : Option Row}
    (addressed : table.place mutation = .ok place)
    (done : mutation.effect (table.row place) = .ok held) :
    table.perform (.mutate mutation) =
      ⟨.mutate mutation, ⟨.ok (), []⟩, table.setRow place held⟩ := by
  have mutated : table.mutate mutation = .ok (table.setRow place held) :=
    mutate_eq_ok.mpr ⟨place, held, addressed, done, rfl⟩
  rw [perform_mutate, mutated]

theorem perform_of_failed {place : Place} {error : Error}
    (addressed : table.place mutation = .ok place)
    (failed : mutation.effect (table.row place) = .error error) :
    table.perform (.mutate mutation) = ⟨.mutate mutation, ⟨.error error, []⟩, table⟩ := by
  have refused : table.mutate mutation = .error error := by
    rw [mutate_eq, applyEffect, addressed]
    simp only [bind, Except.bind, failed]
  rw [perform_mutate, refused]

/-- What a mutation does to a table: it is refused, or the place that it addresses holds afterwards
what its effect says. -/
theorem perform_cases (table : Table) (mutation : Mutation) :
    (∃ error, table.perform (.mutate mutation) = ⟨.mutate mutation, ⟨.error error, []⟩, table⟩) ∨
    ∃ place held, table.place mutation = .ok place ∧ mutation.effect (table.row place) = .ok held ∧
      table.perform (.mutate mutation) =
        ⟨.mutate mutation, ⟨.ok (), []⟩, table.setRow place held⟩ := by
  cases mutated : table.mutate mutation with
  | error error =>
      refine .inl ⟨error, ?_⟩
      rw [perform_mutate, mutated]
  | ok next =>
      obtain ⟨place, held, addressed, done, -⟩ := mutate_eq_ok.mp mutated
      exact .inr ⟨place, held, addressed, done, perform_of_done addressed done⟩

/-- Performs commands one after the other, each on the table that the one before it left. -/
def run (table : Table) : List Command → List Done
  | [] => []
  | command :: rest => table.perform command :: (table.perform command).after.run rest

/-- What clients can make of a table in one step: a call that succeeds, or another matcher.  A call
that fails leaves the table, and so does a read. -/
inductive Step (table : Table) : Table → Prop where
  | mutated {mutation : Mutation} {next : Table} (done : table.mutate mutation = .ok next) :
      Step table next
  | matched (matcher : Matcher) : Step table { table with matcher }

theorem after_perform (table : Table) (command : Command) :
    (table.perform command).after = table ∨ table.Step (table.perform command).after := by
  cases command with
  | mutate mutation =>
      rcases table.perform_cases mutation with
        ⟨error, refused⟩ | ⟨place, held, addressed, done, performed⟩
      · rw [refused]
        exact .inl rfl
      · rw [performed]
        exact .inr (.mutated (mutate_eq_ok.mpr ⟨place, held, addressed, done, rfl⟩))
  | setMatcher matcher => exact .inr (.matched matcher)
  | read request type answer =>
      rw [perform_read]
      exact .inl rfl

/-- The tables that steps lead to from an empty one. -/
inductive Reachable (schema : TableSchema) (batchSize : Nat) : Table → Prop where
  | made : Reachable schema batchSize (make schema batchSize)
  | step {table next : Table} (reachable : Reachable schema batchSize table)
      (step : table.Step next) : Reachable schema batchSize next

theorem keyedPlace_eq_ok {entry : TableEntry} {place : Place} :
    table.keyedPlace entry = .ok place ↔
      ∃ key, table.keyOf entry.fieldMatches = .ok key ∧ place = .keyed key := by
  unfold keyedPlace
  cases table.keyOf entry.fieldMatches <;> simp [Except.map, eq_comm]

/-- Where a row lies is decided by the field matches as a whole, whatever their order. -/
theorem placeOf_sorted (table : Table) (entry : TableEntry) :
    table.placeOf entry.sorted = table.placeOf entry := by
  have again : FieldMatch.sort (FieldMatch.sort entry.fieldMatches) =
      FieldMatch.sort entry.fieldMatches :=
    FieldMatch.sort_of_pairwise (FieldMatch.pairwise_sort entry.fieldMatches)
  have sameKey : table.keyOf (FieldMatch.sort entry.fieldMatches) =
      table.keyOf entry.fieldMatches := by
    rw [keyOf, keyOf, Key.ofMatches, Key.ofMatches, again]
  simp only [placeOf, keyedPlace, TableEntry.sorted, sameKey]

theorem place_of_keyOf {entry : TableEntry} {key : Key} (keyed : mutation.keyedEntry = some entry)
    (derived : table.keyOf entry.fieldMatches = .ok key) :
    table.place mutation = .ok (.keyed key) :=
  (place_of_keyedEntry keyed table).trans (keyedPlace_eq_ok.mpr ⟨key, derived, rfl⟩)

/-- Two tables that agree on their number of match fields keep an entry at the same place. -/
theorem placeOf_congr {first second : Table} (same : first.schema = second.schema)
    (entry : TableEntry) : first.placeOf entry = second.placeOf entry := by
  simp only [placeOf, keyedPlace, keyOf, same]

@[simp] theorem schema_setRow (table : Table) (place : Place) (held : Option Row) :
    (table.setRow place held).schema = table.schema := by
  cases place <;> cases held <;> rfl

@[simp] theorem batchSize_setRow (table : Table) (place : Place) (held : Option Row) :
    (table.setRow place held).batchSize = table.batchSize := by
  cases place <;> cases held <;> rfl

/-- Every row lies at the place of its own entry. -/
def OwnPlaces (table : Table) : Prop :=
  ∀ place row, table.row place = some row → table.placeOf row.entry = .ok place

/-- An entry that is modified or inserted belongs where the mutation puts it. -/
theorem placeOf_of_modifyEntry {entry : TableEntry} {insert : Bool} {place : Place}
    (addressed : table.place (.modifyEntry entry insert) = .ok place) :
    table.placeOf entry = .ok place := by
  cases isDefault : entry.isDefaultAction with
  | false =>
      simp only [placeOf, isDefault, Bool.false_eq_true, ↓reduceIte]
      simpa only [Table.place, isDefault, Bool.false_eq_true, ↓reduceIte] using addressed
  | true =>
      simp only [placeOf, isDefault, ↓reduceIte]
      simp only [Table.place, isDefault, ↓reduceIte] at addressed
      cases insert with
      | true => cases addressed
      | false =>
          cases bare : entry.fieldMatches.isEmpty with
          | false => rw [bare] at addressed; cases addressed
          | true => rwa [bare] at addressed

/-- What a mutation puts into a place belongs there. -/
theorem placeOf_effect {place : Place} (addressed : table.place mutation = .ok place)
    (before : ∀ old, table.row place = some old → table.placeOf old.entry = .ok place) {row : Row}
    (done : mutation.effect (table.row place) = .ok (some row)) :
    table.placeOf row.entry = .ok place := by
  rcases Mutation.entry_of_effect done with ⟨entry, insert, rfl, stored⟩ | ⟨old, held, sameEntry⟩
  · have own := placeOf_of_modifyEntry addressed
    rw [stored]
    split
    · exact own
    · rwa [placeOf_sorted]
  · rw [sameEntry]
    exact before old held

theorem OwnPlaces.step (own : table.OwnPlaces) (step : table.Step next) : next.OwnPlaces := by
  cases step with
  | matched matcher => exact own
  | @mutated mutation next done =>
      obtain ⟨place, held, addressed, effect, rfl⟩ := mutate_eq_ok.mp done
      intro other row inside
      rw [placeOf_congr (schema_setRow table place held)]
      rw [row_setRow] at inside
      split at inside
      · next same =>
          subst same inside
          exact placeOf_effect addressed (own other) effect
      · exact own other row inside

variable {schema : TableSchema} {batchSize : Nat}

theorem Reachable.ownPlaces (reachable : table.Reachable schema batchSize) : table.OwnPlaces := by
  induction reachable with
  | made =>
      intro place row held
      rw [row_make] at held
      cases held
  | step reachable step ih => exact ih.step step

theorem Reachable.batchSize_eq (reachable : table.Reachable schema batchSize) :
    table.batchSize = batchSize := by
  induction reachable with
  | made => rfl
  | step reachable step ih =>
      cases step with
      | matched matcher => exact ih
      | mutated done =>
          obtain ⟨place, held, -, -, rfl⟩ := mutate_eq_ok.mp done
          rw [batchSize_setRow, ih]

end Table

namespace Registry

/-- The registries that clients bring about: one is made, operations are performed, a matcher is
installed in every table, and a table is locked and takes a step by itself. -/
inductive Reachable (schemas : List TableSchema) (config : Config) : Registry → Prop where
  | made : Reachable schemas config (make schemas config).1
  | performed {registry : Registry} (reachable : Reachable schemas config registry)
      (operation : Operation) : Reachable schemas config (registry.perform operation).2
  | matched {registry : Registry} (reachable : Reachable schemas config registry)
      (matcher : Matcher) : Reachable schemas config (registry.setMatcher matcher)
  | locked {registry : Registry} (reachable : Reachable schemas config registry) {id : UInt32}
      {table next : Table} (known : registry.tables[id]? = some table) (step : table.Step next) :
      Reachable schemas config (registry.withTable id next)

/-- Every table of a reachable registry is reachable from the empty table of one of the schemas. -/
theorem Reachable.table {schemas : List TableSchema} {config : Config} {registry : Registry}
    (reachable : registry.Reachable schemas config) {id : UInt32} {table : Table}
    (known : registry.tables[id]? = some table) :
    ∃ schema ∈ schemas, schema.id = id ∧
      table.Reachable schema config.readBatchSize.toNat := by
  induction reachable generalizing table with
  | made =>
      obtain ⟨schema, isSchema, sameId, rfl⟩ := exists_schema_of_getElem?_make known
      exact ⟨schema, isSchema, sameId, .made⟩
  | @performed registry reachable operation ih =>
      rcases registry.perform_cases operation with
        unchanged | ⟨mutation, slot, held, addressed, done, performed⟩
      · rw [unchanged] at known
        exact ih known
      · rw [performed, getElem?_setRow] at known
        split at known
        · next here =>
            obtain ⟨old, knownOld, rfl⟩ := Option.map_eq_some_iff.mp known
            obtain ⟨schema, isSchema, sameId, reachableOld⟩ := ih knownOld
            rw [here] at knownOld
            have place := place_of_slot addressed knownOld
            have sameRow : registry.row slot = old.row slot.place :=
              row_of_getElem? knownOld slot.place
            rw [sameRow] at done
            have mutated : old.mutate mutation = .ok (old.setRow slot.place held) :=
              Table.mutate_eq_ok.mpr ⟨slot.place, held, place, done, rfl⟩
            exact ⟨schema, isSchema, sameId, reachableOld.step (.mutated mutated)⟩
        · exact ih known
  | matched reachable matcher ih =>
      rw [setMatcher, Std.ExtTreeMap.getElem?_map] at known
      obtain ⟨old, knownOld, rfl⟩ := Option.map_eq_some_iff.mp known
      obtain ⟨schema, isSchema, sameId, reachableOld⟩ := ih knownOld
      exact ⟨schema, isSchema, sameId, reachableOld.step (.matched matcher)⟩
  | @locked registry reachable lockedId old next knownOld step ih =>
      simp only [withTable, Std.ExtTreeMap.getElem?_insert,
        Std.LawfulEqCmp.compare_eq_iff_eq] at known
      split at known
      · next here =>
          subst here
          cases known
          obtain ⟨schema, isSchema, sameId, reachableOld⟩ := ih knownOld
          exact ⟨schema, isSchema, sameId, reachableOld.step step⟩
      · exact ih known

end Registry

/-! ## A small table -/

/-- The key of an entry without field matches. -/
def Key.bare : Key := Digest.ofBytes []

theorem Table.keyOf_of_bare (table : Table) {entry : TableEntry} (bare : entry.fieldMatches = []) :
    table.keyOf entry.fieldMatches = .ok Key.bare := by
  rw [bare, keyOf, Key.ofMatches, FieldMatch.sort, List.mergeSort_nil]
  rfl

/-- An entry for every host, since it has no field matches. -/
def anyHost : TableEntry := .make 7 [] none

/-- The access list with the entry for every host as its only row. -/
def anyHostTable : Table :=
  (Table.make accessList 64).setRow (.keyed Key.bare) (some (Row.inserted anyHost))

theorem row_anyHostTable :
    anyHostTable.row (.keyed Key.bare) = some (Row.inserted anyHost) := by
  rw [anyHostTable, Table.row_setRow, if_pos rfl]

theorem reachable_anyHostTable : anyHostTable.Reachable accessList 64 := by
  have place : (Table.make accessList 64).place (.modifyEntry anyHost true) =
      .ok (.keyed Key.bare) :=
    Table.keyedPlace_eq_ok.mpr ⟨Key.bare, Table.keyOf_of_bare _ rfl, rfl⟩
  have inserted : (Table.make accessList 64).mutate (.modifyEntry anyHost true) =
      .ok anyHostTable := by
    refine Table.mutate_eq_ok.mpr ⟨.keyed Key.bare, _, place, ?_, rfl⟩
    have stored : Row.inserted anyHost.sorted = Row.inserted anyHost :=
      congrArg Row.inserted (anyHost.sorted_of_bare rfl)
    rw [Table.row_make, ← stored]
    rfl
  exact Table.Reachable.made.step (.mutated inserted)

end MatchAction
