import MatchAction.Proofs.Batching
import MatchAction.Proofs.Commitment
import MatchAction.Proofs.Operation
import MatchAction.Proofs.Results

/-!
# Effects

Every mutation is refused for what the registry is besides its rows, or it addresses one slot and
makes of what that slot holds either an error or what the slot holds afterwards.  To that the mutation
commits: it is made and reported as a whole, and where it fails nothing has been written.  This says all
that a mutation can do.  The main statements are `commits_mutate` and `map_fst_committed`.
-/

namespace MatchAction

/-- What a mutation makes of what its slot holds. -/
def Mutation.effect : Mutation → Option Row → Except Error (Option Row)
  | modifyEntry entry insert, held =>
      if entry.isDefaultAction then .ok (some (Row.defaultAction entry))
      else
        match insert, held with
        | true, none => .ok (some (Row.inserted entry.sorted))
        | true, some _ => .error (.entryExists entry.sorted)
        | false, none => .error (.entryNotFound entry.sorted)
        | false, some row => .ok (some (row.modified entry.sorted))
  | removeEntry _, _ => .ok none
  | modifyCounter entry _, none => .error (.entryNotFound entry.tableEntry)
  | modifyCounter entry _, some row => .ok (some { row with counterData := entry.data })
  | modifyMeter entry _, none => .error (.entryNotFound entry.tableEntry)
  | modifyMeter entry _, some row => .ok (some { row with meterConfig := entry.config })

/-- The entry of a row that a mutation leaves is the one that the mutation carries, sorted unless it
is a default action, or the one that was there before. -/
theorem Mutation.entry_of_effect {mutation : Mutation} {held : Option Row} {row : Row}
    (done : mutation.effect held = .ok (some row)) :
    (∃ entry insert, mutation = .modifyEntry entry insert ∧
      row.entry = if entry.isDefaultAction then entry else entry.sorted) ∨
    ∃ old, held = some old ∧ row.entry = old.entry := by
  cases mutation with
  | modifyEntry entry insert =>
      refine .inl ⟨entry, insert, rfl, ?_⟩
      cases isDefault : entry.isDefaultAction <;> cases insert <;> cases held <;>
        simp only [effect, isDefault] at done <;> cases done <;> rfl
  | removeEntry entry => cases done
  | modifyCounter entry insert =>
      cases held with
      | none => cases done
      | some old =>
          cases done
          exact .inr ⟨old, rfl, rfl⟩
  | modifyMeter entry insert =>
      cases held with
      | none => cases done
      | some old =>
          cases done
          exact .inr ⟨old, rfl, rfl⟩

/-- The entry that a mutation carries, or that its direct resource belongs to. -/
def Mutation.entry : Mutation → TableEntry
  | modifyEntry entry _ | removeEntry entry => entry
  | modifyCounter entry _ => entry.tableEntry
  | modifyMeter entry _ => entry.tableEntry

/-- What a mutation reports that takes effect at a place, in a table of the given name. -/
def Mutation.reports (name : String) (place : Place) (held : Option Row) : Mutation → List Event
  | modifyEntry entry insert =>
      match place, insert with
      | .default, _ => [.defaultActionSet name entry]
      | .keyed key, true => [.entryInserted name entry.sorted key]
      | .keyed _, false => [.entryModified name entry.sorted]
  | removeEntry entry => if held.isSome then [.entryRemoved name entry] else []
  | modifyCounter .. | modifyMeter .. => []

/-! ## Tables -/

namespace Table

/-- The place under the key of an entry's field matches. -/
def keyedPlace (table : Table) (entry : TableEntry) : Except Error Place :=
  (table.keyOf entry.fieldMatches).map .keyed

/-- Where the table keeps the row of an entry. -/
def placeOf (table : Table) (entry : TableEntry) : Except Error Place :=
  if entry.isDefaultAction then .ok .default else table.keyedPlace entry

/-- The place that a mutation addresses, or why it is refused before any place is looked at.  Those
of direct resources look under a key, whether or not the entry is a default action. -/
def place (table : Table) : Mutation → Except Error Place
  | .modifyEntry entry insert =>
      if entry.isDefaultAction then
        if insert then .error .defaultInsert
        else if entry.fieldMatches.isEmpty then .ok .default else .error .defaultWithMatches
      else table.keyedPlace entry
  | .removeEntry entry =>
      if entry.isDefaultAction then .error .defaultRemove else table.keyedPlace entry
  | .modifyCounter entry _ => table.keyedPlace entry.tableEntry
  | .modifyMeter entry _ => table.keyedPlace entry.tableEntry

/-- The table that a mutation makes at the place that it addresses, and what it reports. -/
def committed (table : Table) (mutation : Mutation) : Except Error (Table × List Event) := do
  let place ← table.place mutation
  let held ← mutation.effect (table.row place)
  return (table.setRow place held, mutation.reports table.name place (table.row place))

/-- Performs a mutation at the place that it addresses. -/
def applyEffect (table : Table) (mutation : Mutation) : Except Error Table := do
  let place ← table.place mutation
  let held ← mutation.effect (table.row place)
  return table.setRow place held

theorem map_fst_committed (table : Table) (mutation : Mutation) :
    (table.committed mutation).map Prod.fst = table.applyEffect mutation := by
  unfold committed applyEffect
  cases table.place mutation with
  | error error => rfl
  | ok place =>
      simp only [bind, Except.bind]
      cases mutation.effect (table.row place) <;> rfl

theorem place_of_keyedEntry {mutation : Mutation} {entry : TableEntry}
    (keyed : mutation.keyedEntry = some entry) (table : Table) :
    table.place mutation = table.keyedPlace entry := by
  cases Mutation.keying_of_eq keyed with
  | modifyEntry ordinary insert => exact if_neg (Bool.eq_false_iff.mp ordinary)
  | removeEntry ordinary => exact if_neg (Bool.eq_false_iff.mp ordinary)
  | modifyCounter entry => rfl
  | modifyMeter entry => rfl

theorem commits_setDefault {entry : TableEntry} (isDefault : entry.isDefaultAction = true) :
    (setDefault entry).Commits fun table => table.committed (.modifyEntry entry false) := by
  intro table events
  simp only [setDefault, committed, place, Mutation.effect, isDefault]
  cases entry.fieldMatches.isEmpty <;> rfl

/-- A procedure that derives the key of an entry and then makes of what is held under the key what the
effect of a mutation says, commits to the mutation. -/
theorem commits_of_keyed {mutation : Mutation} {entry : TableEntry}
    (keyed : ∀ table : Table, table.place mutation = table.keyedPlace entry)
    {rest : Table → Key → Procedure Table (List Event) Unit}
    (committing : ∀ table key events, (rest table key).on table events =
      Procedure.settled table events (do
        let held ← mutation.effect table.rows[key]?
        return (table.setRow (.keyed key) held,
          mutation.reports table.name (.keyed key) table.rows[key]?))) :
    Procedure.Commits (do
      let table ← Procedure.store
      let key ← ofExcept (table.keyOf entry.fieldMatches)
      rest table key) fun table => table.committed mutation := by
  intro table events
  simp only [committed, keyed, keyedPlace, Procedure.on_store_bind]
  cases table.keyOf entry.fieldMatches with
  | error error => rfl
  | ok key => exact committing table key events

theorem commits_insertEntry {entry : TableEntry} (ordinary : entry.isDefaultAction = false) :
    (insertEntry entry).Commits fun table => table.committed (.modifyEntry entry true) := by
  have keyed : (Mutation.modifyEntry entry true).keyedEntry = some entry :=
    if_neg (Bool.eq_false_iff.mp ordinary)
  refine commits_of_keyed (place_of_keyedEntry keyed) fun table key events => ?_
  simp only [Mutation.effect, ordinary]
  cases table.rows[key]? <;> rfl

theorem commits_replaceEntry {entry : TableEntry} (ordinary : entry.isDefaultAction = false) :
    (replaceEntry entry).Commits fun table => table.committed (.modifyEntry entry false) := by
  have keyed : (Mutation.modifyEntry entry false).keyedEntry = some entry :=
    if_neg (Bool.eq_false_iff.mp ordinary)
  refine commits_of_keyed (place_of_keyedEntry keyed) fun table key events => ?_
  simp only [Mutation.effect, ordinary]
  cases table.rows[key]? <;> rfl

theorem commits_removeEntry {entry : TableEntry} (ordinary : entry.isDefaultAction = false) :
    (removeEntry entry).Commits fun table => table.committed (.removeEntry entry) := by
  have notDefault := Bool.eq_false_iff.mp ordinary
  rw [removeEntry, if_neg notDefault]
  have keyed : (Mutation.removeEntry entry).keyedEntry = some entry := if_neg notDefault
  refine commits_of_keyed (place_of_keyedEntry keyed) fun table key events => ?_
  simp only [Mutation.effect, Mutation.reports]
  cases table.rows[key]?.isSome with
  | true => rfl
  | false => exact congrArg (fun left => (Except.ok (), _, left)) (List.append_nil events).symm

theorem commits_updateRow {mutation : Mutation} {entry : TableEntry}
    (keyed : ∀ table : Table, table.place mutation = table.keyedPlace entry) {update : Row → Row}
    (absent : mutation.effect none = .error (.entryNotFound entry))
    (present : ∀ row, mutation.effect (some row) = .ok (some (update row)))
    (silent : ∀ name place held, mutation.reports name place held = []) :
    (updateRow entry update).Commits fun table => table.committed mutation := by
  refine commits_of_keyed keyed fun table key events => ?_
  rw [silent]
  cases table.rows[key]? with
  | none =>
      rw [absent]
      rfl
  | some row =>
      rw [present]
      exact congrArg (fun left => (Except.ok (), _, left)) (List.append_nil events).symm

end Table

/-- Every mutation of a table is made and reported as a whole, at the place that it addresses, or fails
and has written nothing. -/
theorem Mutation.commits (mutation : Mutation) :
    mutation.procedure.Commits fun table => table.committed mutation := by
  cases mutation with
  | modifyEntry entry insert =>
      cases isDefault : entry.isDefaultAction with
      | true =>
          cases insert with
          | true =>
              intro table events
              simp only [procedure, Table.modifyEntry, Table.committed, Table.place, isDefault]
              rfl
          | false =>
              simp only [procedure, Table.modifyEntry, isDefault]
              exact Table.commits_setDefault isDefault
      | false =>
          cases insert with
          | true =>
              simp only [procedure, Table.modifyEntry, isDefault]
              exact Table.commits_insertEntry isDefault
          | false =>
              simp only [procedure, Table.modifyEntry, isDefault]
              exact Table.commits_replaceEntry isDefault
  | removeEntry entry =>
      cases isDefault : entry.isDefaultAction with
      | true =>
          intro table events
          simp only [procedure, Table.removeEntry, Table.committed, Table.place, isDefault]
          rfl
      | false => exact Table.commits_removeEntry isDefault
  | modifyCounter entry insert =>
      exact Table.commits_updateRow (fun _ => rfl) rfl (fun _ => rfl) fun _ _ _ => rfl
  | modifyMeter entry insert =>
      exact Table.commits_updateRow (fun _ => rfl) rfl (fun _ => rfl) fun _ _ _ => rfl

theorem Table.on_procedure (table : Table) (mutation : Mutation) (events : List Event) :
    mutation.procedure.on table events =
      Procedure.settled table events (table.committed mutation) :=
  mutation.commits table events

/-! ## Registries -/

/-- Whether a registry passes a mutation on to a table.  It refuses to insert direct resources. -/
def Mutation.admitted : Mutation → Except Error Unit
  | modifyCounter _ true => .error (.directInsert .counter)
  | modifyMeter _ true => .error (.directInsert .meter)
  | modifyEntry .. | removeEntry _ | modifyCounter _ false | modifyMeter _ false => .ok ()

theorem Mutation.admitted_of_keyedEntry {mutation : Mutation} {entry : TableEntry}
    (keyed : mutation.keyedEntry = some entry) :
    mutation.admitted = .ok () ∧ mutation.entry = entry := by
  cases keying_of_eq keyed <;> exact ⟨rfl, rfl⟩

namespace Registry

/-- The slot under the key of an entry's field matches, in the table that the entry names. -/
def keyedSlot (registry : Registry) (entry : TableEntry) : Except Error Slot := do
  let table ← registry.table entry.tableId
  let key ← table.keyOf entry.fieldMatches
  return ⟨entry.tableId, .keyed key⟩

/-- The slot that a mutation addresses, or why it is refused before any slot is looked at. -/
def slot (registry : Registry) : Mutation → Except Error Slot
  | .modifyEntry entry insert =>
      if entry.isDefaultAction then do
        let _ ← registry.table entry.tableId
        if insert then .error .defaultInsert
        else if entry.fieldMatches.isEmpty then .ok ⟨entry.tableId, .default⟩
        else .error .defaultWithMatches
      else registry.keyedSlot entry
  | .removeEntry entry =>
      if entry.isDefaultAction then do
        let _ ← registry.table entry.tableId
        .error .defaultRemove
      else registry.keyedSlot entry
  | .modifyCounter entry insert =>
      if insert then .error (.directInsert .counter) else registry.keyedSlot entry.tableEntry
  | .modifyMeter entry insert =>
      if insert then .error (.directInsert .meter) else registry.keyedSlot entry.tableEntry

/-- Performs a mutation at the slot that it addresses. -/
def applyEffect (registry : Registry) (mutation : Mutation) : Except Error Registry := do
  let slot ← registry.slot mutation
  let held ← mutation.effect (registry.row slot)
  return registry.setRow slot held

/-- The registry that a mutation makes in the table that it concerns, and what it reports. -/
def committed (registry : Registry) (mutation : Mutation) : Except Error (Registry × List Event) := do
  mutation.admitted
  let table ← registry.table mutation.entry.tableId
  let (next, reported) ← table.committed mutation
  return (registry.withTable mutation.entry.tableId next, reported)

/-- Every mutation of a registry is made and reported as a whole, or fails and has written nothing. -/
theorem commits_mutate (mutation : Mutation) :
    (mutate mutation).Commits fun registry => registry.committed mutation := by
  have table := mutation.commits.onTable mutation.entry.tableId
  cases mutation with
  | modifyEntry entry insert => exact table
  | removeEntry entry => exact table
  | modifyCounter entry insert =>
      cases insert with
      | true => exact Procedure.commits_throw _
      | false => exact table
  | modifyMeter entry insert =>
      cases insert with
      | true => exact Procedure.commits_throw _
      | false => exact table

theorem on_mutate (registry : Registry) (mutation : Mutation) (events : List Event) :
    (mutate mutation).on registry events =
      Procedure.settled registry events (registry.committed mutation) :=
  commits_mutate mutation registry events

/-- The slot that a mutation addresses is in the table that it concerns, at the place that it addresses
there. -/
theorem slot_eq (registry : Registry) (mutation : Mutation) :
    registry.slot mutation = (do
      mutation.admitted
      let table ← registry.table mutation.entry.tableId
      let place ← table.place mutation
      return ⟨mutation.entry.tableId, place⟩) := by
  have keyed (entry : TableEntry) : registry.keyedSlot entry = (do
      let table ← registry.table entry.tableId
      let place ← table.keyedPlace entry
      return ⟨entry.tableId, place⟩) := by
    unfold keyedSlot Table.keyedPlace
    cases registry.table entry.tableId with
    | error error => rfl
    | ok table =>
        simp only [bind, Except.bind]
        cases table.keyOf entry.fieldMatches <;> rfl
  cases mutation with
  | modifyEntry entry insert =>
      cases isDefault : entry.isDefaultAction with
      | true =>
          simp only [slot, Table.place, Mutation.entry, Mutation.admitted, isDefault, ↓reduceIte]
          cases insert <;> cases entry.fieldMatches.isEmpty <;> rfl
      | false =>
          simp only [slot, Table.place, isDefault, keyed]
          rfl
  | removeEntry entry =>
      cases isDefault : entry.isDefaultAction with
      | true =>
          simp only [slot, Table.place, isDefault]
          rfl
      | false =>
          simp only [slot, Table.place, isDefault, keyed]
          rfl
  | modifyCounter entry insert =>
      cases insert with
      | true => rfl
      | false => exact keyed entry.tableEntry
  | modifyMeter entry insert =>
      cases insert with
      | true => rfl
      | false => exact keyed entry.tableEntry

/-- A mutation is performed at its slot by performing it in the table that it concerns. -/
theorem applyEffect_eq (registry : Registry) (mutation : Mutation) :
    registry.applyEffect mutation = (do
      mutation.admitted
      let table ← registry.table mutation.entry.tableId
      let next ← table.applyEffect mutation
      return registry.withTable mutation.entry.tableId next) := by
  rw [applyEffect, slot_eq]
  cases mutation.admitted with
  | error error => rfl
  | ok admitted =>
      cases found : registry.table mutation.entry.tableId with
      | error error => rfl
      | ok table =>
          have known := table_eq_ok.mp found
          simp only [bind, Except.bind, Table.applyEffect]
          cases table.place mutation with
          | error error => rfl
          | ok place =>
              simp only [pure, Except.pure, row_of_getElem? known]
              cases mutation.effect (table.row place) with
              | error error => rfl
              | ok held => exact congrArg Except.ok (withTable_setRow known place held).symm

/-- What a mutation makes of a registry is the effect of the mutation on its slot. -/
theorem map_fst_committed (registry : Registry) (mutation : Mutation) :
    (registry.committed mutation).map Prod.fst = registry.applyEffect mutation := by
  rw [applyEffect_eq, committed]
  cases mutation.admitted with
  | error error => rfl
  | ok admitted =>
      cases registry.table mutation.entry.tableId with
      | error error => rfl
      | ok table =>
          simp only [bind, Except.bind, ← table.map_fst_committed]
          cases table.committed mutation <;> rfl

/-! ## Addressing -/

theorem keyedSlot_cleared (registry : Registry) (entry : TableEntry) :
    registry.cleared.keyedSlot entry = registry.keyedSlot entry := by
  simp only [keyedSlot, table_eq, getElem?_cleared]
  cases registry.tables[entry.tableId]? <;> rfl

/-- Which slot a mutation addresses does not depend on the rows. -/
theorem slot_cleared (registry : Registry) (mutation : Mutation) :
    registry.cleared.slot mutation = registry.slot mutation := by
  have tableAt (id : UInt32) (next : Except Error Slot) :
      (do let _ ← registry.cleared.table id; next) = (do let _ ← registry.table id; next) := by
    simp only [table_eq, getElem?_cleared]
    cases registry.tables[id]? <;> rfl
  cases mutation <;> simp only [slot, keyedSlot_cleared, tableAt]

/-- A mutation that addresses a slot is passed on to the table of the slot, where it addresses the place
of the slot. -/
theorem passed_on_of_slot {registry : Registry} {mutation : Mutation} {slot : Slot}
    (addressed : registry.slot mutation = .ok slot) :
    mutation.admitted = .ok () ∧ mutation.entry.tableId = slot.tableId ∧
      ∃ table, registry.tables[slot.tableId]? = some table ∧
        table.place mutation = .ok slot.place := by
  rw [slot_eq] at addressed
  obtain ⟨_, admitted, routed⟩ := bind_eq_ok.mp addressed
  obtain ⟨table, found, placed⟩ := bind_eq_ok.mp routed
  obtain ⟨place, inside, same⟩ := bind_eq_ok.mp placed
  cases same
  exact ⟨admitted, rfl, table, table_eq_ok.mp found, inside⟩

/-- A slot that is addressed belongs to a table of the registry. -/
theorem known_of_slot {registry : Registry} {mutation : Mutation} {slot : Slot}
    (addressed : registry.slot mutation = .ok slot) :
    ∃ table, registry.tables[slot.tableId]? = some table := by
  obtain ⟨-, -, table, known, -⟩ := passed_on_of_slot addressed
  exact ⟨table, known⟩

theorem place_of_slot {registry : Registry} {mutation : Mutation} {slot : Slot} {table : Table}
    (addressed : registry.slot mutation = .ok slot)
    (known : registry.tables[slot.tableId]? = some table) :
    table.place mutation = .ok slot.place := by
  obtain ⟨-, -, table', known', inside⟩ := passed_on_of_slot addressed
  cases known.symm.trans known'
  exact inside

theorem slot_congr {first second : Registry} (sameCleared : first.cleared = second.cleared)
    (mutation : Mutation) : first.slot mutation = second.slot mutation := by
  rw [← slot_cleared first, sameCleared, slot_cleared]

theorem keyedSlot_eq_ok {registry : Registry} {entry : TableEntry} {slot : Slot}
    (addressed : registry.keyedSlot entry = .ok slot) :
    ∃ table key, registry.tables[entry.tableId]? = some table ∧
      table.keyOf entry.fieldMatches = .ok key ∧ slot = ⟨entry.tableId, .keyed key⟩ := by
  obtain ⟨table, found, derives⟩ := bind_eq_ok.mp addressed
  obtain ⟨key, derived, same⟩ := bind_eq_ok.mp derives
  exact ⟨table, key, table_eq_ok.mp found, derived, (Except.ok.inj same).symm⟩

theorem slot_of_keyedEntry (registry : Registry) {mutation : Mutation} {entry : TableEntry}
    (keyed : mutation.keyedEntry = some entry) :
    registry.slot mutation = registry.keyedSlot entry := by
  cases Mutation.keying_of_eq keyed with
  | modifyEntry ordinary insert => exact if_neg (Bool.eq_false_iff.mp ordinary)
  | removeEntry ordinary => exact if_neg (Bool.eq_false_iff.mp ordinary)
  | modifyCounter entry => rfl
  | modifyMeter entry => rfl

/-- A mutation that addresses a slot without looking for a keyed row sets a default action. -/
theorem slot_eq_ok_of_not_keyed {registry : Registry} {mutation : Mutation} {slot : Slot}
    (addressed : registry.slot mutation = .ok slot) (notKeyed : mutation.keyedEntry = none) :
    ∃ entry table, mutation = .modifyEntry entry false ∧ entry.isDefaultAction = true ∧
      entry.fieldMatches = [] ∧ registry.tables[entry.tableId]? = some table ∧
      slot = ⟨entry.tableId, .default⟩ := by
  cases Mutation.keying_of_eq notKeyed with
  | @modifyDefault entry isDefault insert =>
      simp only [Registry.slot, isDefault, ↓reduceIte, bind_eq_ok] at addressed
      obtain ⟨table, found, placed⟩ := addressed
      cases insert with
      | true => cases placed
      | false =>
          cases empty : entry.fieldMatches.isEmpty with
          | false => rw [empty] at placed; cases placed
          | true =>
              rw [empty] at placed
              exact ⟨entry, table, rfl, isDefault, List.isEmpty_iff.mp empty,
                table_eq_ok.mp found, (Except.ok.inj placed).symm⟩
  | @removeDefault entry isDefault =>
      simp only [Registry.slot, isDefault, ↓reduceIte, bind_eq_ok] at addressed
      obtain ⟨table, -, refused⟩ := addressed
      cases refused
  | insertCounter entry => cases addressed
  | insertMeter entry => cases addressed

/-! ## Performing -/

theorem perform_mutate (registry : Registry) (mutation : Mutation) :
    registry.perform (.mutate mutation) =
      match registry.applyEffect mutation with
      | .ok next => (⟨.ok (), []⟩, next)
      | .error error => (⟨.error error, []⟩, registry) := by
  rw [perform, settle, on_mutate, ← map_fst_committed]
  cases registry.committed mutation <;> rfl

theorem perform_of_refused {registry : Registry} {mutation : Mutation} {error : Error}
    (refused : registry.slot mutation = .error error) :
    registry.perform (.mutate mutation) = (⟨.error error, []⟩, registry) := by
  simp only [perform_mutate, applyEffect, refused]
  rfl

theorem perform_of_failed {registry : Registry} {mutation : Mutation} {slot : Slot} {error : Error}
    (addressed : registry.slot mutation = .ok slot)
    (failed : mutation.effect (registry.row slot) = .error error) :
    registry.perform (.mutate mutation) = (⟨.error error, []⟩, registry) := by
  simp only [perform_mutate, applyEffect, addressed, bind, Except.bind, failed]

theorem perform_of_done {registry : Registry} {mutation : Mutation} {slot : Slot}
    {held : Option Row} (addressed : registry.slot mutation = .ok slot)
    (done : mutation.effect (registry.row slot) = .ok held) :
    registry.perform (.mutate mutation) = (⟨.ok (), []⟩, registry.setRow slot held) := by
  simp only [perform_mutate, applyEffect, addressed, bind, Except.bind, done]
  rfl

/-- An update that stands for a call is performed as that call. -/
theorem perform_write_eq {registry : Registry} {update : Update} {mutation : Mutation}
    (stands : update.mutation = .ok mutation) :
    registry.perform (.write update) = registry.perform (.mutate mutation) := by
  simp only [perform, write_eq, stands, Procedure.ofExcept_bind_ok]

theorem perform_write_of_refused {registry : Registry} {update : Update} {error : Error}
    (refused : update.mutation = .error error) :
    registry.perform (.write update) = (⟨.error error, []⟩, registry) := by
  simp only [perform, write_eq, refused, Procedure.ofExcept_bind_error]
  rfl

/-- A read leaves the registry as it is. -/
theorem perform_read (registry : Registry) (request : TableEntry) (type : ReadType)
    (answer : Nat → Option String) :
    registry.perform (.read request type answer) =
      (⟨(registry.read request type (.fresh answer)).1,
        (registry.read request type (.fresh answer)).2.calls.toList⟩, registry) := by
  simp only [perform, read, on_reading]

/-- An operation leaves the registry as it was, or it succeeds in changing one slot as the effect of
a mutation says that addresses the slot. -/
theorem perform_cases (registry : Registry) (operation : Operation) :
    (registry.perform operation).2 = registry ∨
    ∃ mutation slot held, registry.slot mutation = .ok slot ∧
      mutation.effect (registry.row slot) = .ok held ∧
      registry.perform operation = (⟨.ok (), []⟩, registry.setRow slot held) := by
  have mutating (mutation : Mutation) :
      (registry.perform (.mutate mutation)).2 = registry ∨
      ∃ other slot held, registry.slot other = .ok slot ∧
        other.effect (registry.row slot) = .ok held ∧
        registry.perform (.mutate mutation) = (⟨.ok (), []⟩, registry.setRow slot held) := by
    cases addressed : registry.slot mutation with
    | error error => exact .inl (congrArg Prod.snd (perform_of_refused addressed))
    | ok slot =>
        cases effect : mutation.effect (registry.row slot) with
        | error error => exact .inl (congrArg Prod.snd (perform_of_failed addressed effect))
        | ok held =>
            exact .inr ⟨mutation, slot, held, addressed, effect, perform_of_done addressed effect⟩
  cases operation with
  | mutate mutation => exact mutating mutation
  | write update =>
      cases stands : update.mutation with
      | error error => exact .inl (congrArg Prod.snd (perform_write_of_refused stands))
      | ok mutation =>
          rw [perform_write_eq stands]
          exact mutating mutation
  | read request type answer => exact .inl (congrArg Prod.snd (perform_read ..))

/-- The schemas, batch sizes and matchers stay as they are. -/
@[simp] theorem cleared_perform (registry : Registry) (operation : Operation) :
    (registry.perform operation).2.cleared = registry.cleared := by
  rcases registry.perform_cases operation with
    unchanged | ⟨mutation, slot, held, -, -, performed⟩
  · rw [unchanged]
  · rw [performed]
    exact cleared_setRow registry slot held

@[simp] theorem cleared_run (registry : Registry) (operations : List Operation) :
    (registry.run operations).2.cleared = registry.cleared :=
  run_invariant (fun current operation same => (cleared_perform current operation).trans same) rfl
    operations

end Registry

end MatchAction
