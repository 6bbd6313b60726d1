import MatchAction.Proofs.Noninterference

/-!
# The audit trail

What a run reports at debug level, against the mutations that it accepts.  Every accepted mutation of
an entry has one event, in the order of the mutations, and nothing else is reported at this level.  A
call for a direct resource reports nothing, so the trail is complete for just those runs in which no
such call is accepted.
-/

namespace MatchAction

theorem append_lead {lead : String} (verb : String) (splits : lead = ": " ++ verb)
    (name rest : String) :
    "table " ++ name ++ lead ++ rest = "table " ++ name ++ ": " ++ (verb ++ rest) := by
  rw [splits]
  simp only [String.append_assoc]

namespace Registry

/-! ## What is reported -/

/-- The events that an operation reports, whether it fails or not. -/
def reported (registry : Registry) : Operation → List Event
  | .mutate mutation => ((mutate mutation).on registry []).2.2
  | .write update => ((write update).on registry []).2.2
  | .read request type answer => (registry.read request type (.fresh answer)).2.events

/-- The events that a run reports, in order. -/
def log (registry : Registry) : List Operation → List Event
  | [] => []
  | operation :: rest => registry.reported operation ++ (registry.perform operation).2.log rest

/-- The events of a run at debug level. -/
def trail (registry : Registry) (operations : List Operation) : List Event :=
  (registry.log operations).filter fun event => event.level = .debug

/-! ## What is accepted -/

/-- Whether a removal finds a row to delete. -/
def deletes (registry : Registry) (entry : TableEntry) : Bool :=
  match registry.keyedSlot entry with
  | .ok slot => (registry.row slot).isSome
  | .error _ => false

/-- Whether there is a row to delete, if the mutation is a removal. -/
def finds (registry : Registry) : Mutation → Bool
  | .removeEntry entry => registry.deletes entry
  | .modifyEntry .. | .modifyCounter .. | .modifyMeter .. => true

/-- Whether a mutation succeeds and, if it is a removal, deletes a row. -/
def accepts (registry : Registry) (mutation : Mutation) : Bool :=
  (registry.perform (.mutate mutation)).1.succeeded && registry.finds mutation

/-- The mutation that an operation is or stands for, if it is accepted. -/
def acceptance (registry : Registry) (operation : Operation) : List Mutation :=
  (operation.mutation.filter registry.accepts).toList

/-- The mutations that a run accepts, in order. -/
def accepted (registry : Registry) : List Operation → List Mutation
  | [] => []
  | operation :: rest => registry.acceptance operation ++ (registry.perform operation).2.accepted rest

/-- The event that records a mutation of an entry.  It names the table of the entry and shows the
entry as it is stored, but for a removal the entry that was given. -/
inductive Records (registry : Registry) : Mutation → Event → Prop where
  | defaultSet {entry : TableEntry} {table : Table} (isDefault : entry.isDefaultAction = true)
      (known : registry.tables[entry.tableId]? = some table) :
      Records registry (.modifyEntry entry false) (.defaultActionSet table.name entry)
  | inserted {entry : TableEntry} {table : Table} {key : Key}
      (ordinary : entry.isDefaultAction = false)
      (known : registry.tables[entry.tableId]? = some table)
      (derived : table.keyOf entry.fieldMatches = .ok key) :
      Records registry (.modifyEntry entry true) (.entryInserted table.name entry.sorted key)
  | modified {entry : TableEntry} {table : Table} (ordinary : entry.isDefaultAction = false)
      (known : registry.tables[entry.tableId]? = some table) :
      Records registry (.modifyEntry entry false) (.entryModified table.name entry.sorted)
  | removed {entry : TableEntry} {table : Table} (ordinary : entry.isDefaultAction = false)
      (known : registry.tables[entry.tableId]? = some table) :
      Records registry (.removeEntry entry) (.entryRemoved table.name entry)

namespace Records

variable {registry : Registry} {mutation : Mutation} {event : Event}

theorem level (records : Records registry mutation event) : event.level = .debug := by
  cases records <;> rfl

/-- The text of the event begins with the name of a table. -/
theorem message (records : Records registry mutation event) :
    ∃ table ∈ registry.tables.values, ∃ rest : String,
      event.message = "table " ++ table.name ++ ": " ++ rest := by
  cases records with
  | @defaultSet entry table isDefault known =>
      exact ⟨table, Maps.mem_values.mpr ⟨entry.tableId, known⟩, _,
        append_lead "set default action: " rfl table.name entry.text⟩
  | @inserted entry table key ordinary known derived =>
      have text : (Event.entryInserted table.name entry.sorted key).message = "table " ++
          table.name ++ ": insert " ++ entry.sorted.text ++ " as " ++ Digest.hex key := rfl
      refine ⟨table, Maps.mem_values.mpr ⟨entry.tableId, known⟩,
        "insert " ++ (entry.sorted.text ++ (" as " ++ Digest.hex key)), ?_⟩
      rw [text, String.append_assoc, String.append_assoc]
      exact append_lead "insert " rfl table.name _
  | @modified entry table ordinary known =>
      exact ⟨table, Maps.mem_values.mpr ⟨entry.tableId, known⟩, _,
        append_lead "modify " rfl table.name entry.sorted.text⟩
  | @removed entry table ordinary known =>
      exact ⟨table, Maps.mem_values.mpr ⟨entry.tableId, known⟩, _,
        append_lead "remove " rfl table.name entry.text⟩

/-- Which event records a mutation does not depend on the rows. -/
theorem congr {other : Registry} (sameCleared : registry.cleared = other.cleared)
    (records : Records registry mutation event) : Records other mutation event := by
  cases records with
  | @defaultSet entry table isDefault known =>
      obtain ⟨table', known', sameSchema, -, -⟩ := getElem?_of_cleared sameCleared known
      rw [Table.name, ← sameSchema]
      exact .defaultSet isDefault known'
  | @inserted entry table key ordinary known derived =>
      obtain ⟨table', known', sameSchema, -, -⟩ := getElem?_of_cleared sameCleared known
      rw [Table.keyOf, ← sameSchema] at derived
      rw [Table.name, ← sameSchema]
      exact .inserted ordinary known' derived
  | @modified entry table ordinary known =>
      obtain ⟨table', known', sameSchema, -, -⟩ := getElem?_of_cleared sameCleared known
      rw [Table.name, ← sameSchema]
      exact .modified ordinary known'
  | @removed entry table ordinary known =>
      obtain ⟨table', known', sameSchema, -, -⟩ := getElem?_of_cleared sameCleared known
      rw [Table.name, ← sameSchema]
      exact .removed ordinary known'

end Records

/-! ## What one operation reports -/

variable {registry : Registry} {mutation : Mutation} {slot : Slot} {table : Table}

/-- A mutation that fails reports nothing. -/
theorem reported_of_failed
    (failed : (registry.perform (.mutate mutation)).1.succeeded = false) :
    registry.reported (.mutate mutation) = [] := by
  rw [perform, settle, on_mutate] at failed
  rw [reported, on_mutate]
  cases made : registry.committed mutation with
  | error error => rfl
  | ok changed =>
      rw [made] at failed
      cases failed

theorem reported_of_done {held : Option Row} (addressed : registry.slot mutation = .ok slot)
    (known : registry.tables[slot.tableId]? = some table)
    (done : mutation.effect (registry.row slot) = .ok held) :
    registry.reported (.mutate mutation) =
      mutation.reports table.name slot.place (registry.row slot) := by
  obtain ⟨admitted, sameId, -⟩ := passed_on_of_slot addressed
  rw [row_of_getElem? known] at done ⊢
  simp only [reported, on_mutate, committed, Table.committed, admitted, sameId,
    table_eq_ok.mpr known, place_of_slot addressed known, done, bind, Except.bind]
  rfl

/-- A mutation fails and reports nothing, or it reports what it does at the slot that it addresses. -/
theorem reported_cases (registry : Registry) (mutation : Mutation) :
    (registry.perform (.mutate mutation)).1.succeeded = false ∧
      registry.reported (.mutate mutation) = [] ∨
    (registry.perform (.mutate mutation)).1.succeeded = true ∧
      ∃ slot table, registry.slot mutation = .ok slot ∧
        registry.tables[slot.tableId]? = some table ∧
        registry.reported (.mutate mutation) =
          mutation.reports table.name slot.place (registry.row slot) := by
  cases succeeded : (registry.perform (.mutate mutation)).1.succeeded with
  | false => exact .inl ⟨rfl, reported_of_failed succeeded⟩
  | true =>
      obtain ⟨slot, held, addressed, done, -⟩ := done_of_succeeded succeeded
      obtain ⟨table, known⟩ := known_of_slot addressed
      exact .inr ⟨rfl, slot, table, addressed, known, reported_of_done addressed known done⟩

theorem records_modifyEntry {entry : TableEntry} {insert : Bool}
    (addressed : registry.slot (.modifyEntry entry insert) = .ok slot)
    (known : registry.tables[slot.tableId]? = some table) (held : Option Row) :
    ∃ event, (Mutation.modifyEntry entry insert).reports table.name slot.place held = [event] ∧
      Records registry (.modifyEntry entry insert) event := by
  cases isDefault : entry.isDefaultAction with
  | true =>
      have notKeyed : (Mutation.modifyEntry entry insert).keyedEntry = none := if_pos isDefault
      obtain ⟨entry', table', same, -, -, -, rfl⟩ := slot_eq_ok_of_not_keyed addressed notKeyed
      cases same
      exact ⟨_, rfl, .defaultSet isDefault known⟩
  | false =>
      have keyed : (Mutation.modifyEntry entry insert).keyedEntry = some entry :=
        if_neg (Bool.eq_false_iff.mp isDefault)
      rw [slot_of_keyedEntry registry keyed] at addressed
      obtain ⟨table', key, known', derived, rfl⟩ := keyedSlot_eq_ok addressed
      cases known.symm.trans known'
      cases insert with
      | true => exact ⟨_, rfl, .inserted isDefault known derived⟩
      | false => exact ⟨_, rfl, .modified isDefault known⟩

/-- A removal reports the row that it deletes, and nothing if there is none. -/
theorem records_removeEntry {entry : TableEntry}
    (addressed : registry.slot (.removeEntry entry) = .ok slot)
    (known : registry.tables[slot.tableId]? = some table) :
    (registry.deletes entry = true ∧
      ∃ event, (Mutation.removeEntry entry).reports table.name slot.place (registry.row slot) =
        [event] ∧ Records registry (.removeEntry entry) event) ∨
    registry.deletes entry = false ∧
      (Mutation.removeEntry entry).reports table.name slot.place (registry.row slot) = [] := by
  cases isDefault : entry.isDefaultAction with
  | true =>
      have notKeyed : (Mutation.removeEntry entry).keyedEntry = none := if_pos isDefault
      obtain ⟨entry', table', same, -⟩ := slot_eq_ok_of_not_keyed addressed notKeyed
      cases same
  | false =>
      have keyed : (Mutation.removeEntry entry).keyedEntry = some entry :=
        if_neg (Bool.eq_false_iff.mp isDefault)
      rw [slot_of_keyedEntry registry keyed] at addressed
      have deletes : registry.deletes entry = (registry.row slot).isSome := by
        rw [Registry.deletes, addressed]
      obtain ⟨table', key, known', -, rfl⟩ := keyedSlot_eq_ok addressed
      rw [deletes, Mutation.reports]
      cases (registry.row ⟨entry.tableId, .keyed key⟩).isSome with
      | true => exact .inl ⟨rfl, _, rfl, .removed isDefault known⟩
      | false => exact .inr ⟨rfl, rfl⟩

/-- The mutations of entries among some mutations. -/
def ofEntries (mutations : List Mutation) : List Mutation :=
  mutations.filter fun mutation => mutation.resource = none

def atDebug (events : List Event) : List Event := events.filter fun event => event.level = .debug

theorem ofEntries_acceptance {mutation : Mutation} (entry : mutation.resource = none)
    (accepted : registry.accepts mutation = true) :
    ofEntries (registry.acceptance (.mutate mutation)) = [mutation] := by
  simp only [acceptance, Operation.mutation, Option.filter_some, accepted, ↓reduceIte,
    Option.toList_some, ofEntries, List.filter_cons, List.filter_nil, entry, decide_true]

theorem ofEntries_acceptance_eq_nil {mutation : Mutation}
    (without : registry.accepts mutation = false ∨ mutation.resource.isSome = true) :
    ofEntries (registry.acceptance (.mutate mutation)) = [] := by
  refine List.filter_eq_nil_iff.mpr fun other inside => ?_
  obtain ⟨same, accepted⟩ := Option.filter_eq_some_iff.mp (Option.mem_toList.mp inside)
  cases same
  rcases without with refused | direct
  · rw [refused] at accepted
    cases accepted
  · intro entry
    rw [of_decide_eq_true entry] at direct
    cases direct

/-- A mutation of an entry that is accepted, with the one event that records it. -/
theorem forall₂_records {mutation : Mutation} {event : Event} (entry : mutation.resource = none)
    (accepted : registry.accepts mutation = true) (records : Records registry mutation event) :
    List.Forall₂ (Records registry) (ofEntries (registry.acceptance (.mutate mutation)))
      (atDebug [event]) := by
  have seen : atDebug [event] = [event] := List.filter_cons_of_pos (decide_eq_true records.level)
  rw [ofEntries_acceptance entry accepted, seen]
  exact .cons records .nil

theorem records_mutate (registry : Registry) (mutation : Mutation) :
    List.Forall₂ (Records registry) (ofEntries (registry.acceptance (.mutate mutation)))
      (atDebug (registry.reported (.mutate mutation))) := by
  rcases registry.reported_cases mutation with
    ⟨failed, nothing⟩ | ⟨succeeded, slot, table, addressed, known, reported⟩
  · have refused : registry.accepts mutation = false := by rw [accepts, failed, Bool.false_and]
    rw [nothing, ofEntries_acceptance_eq_nil (.inl refused)]
    exact .nil
  · have accepted : registry.accepts mutation = registry.finds mutation := by
      rw [accepts, succeeded, Bool.true_and]
    rw [reported]
    cases mutation with
    | modifyEntry entry insert =>
        obtain ⟨event, events, records⟩ := records_modifyEntry addressed known (registry.row slot)
        rw [events]
        exact forall₂_records rfl accepted records
    | removeEntry entry =>
        rcases records_removeEntry addressed known with
          ⟨deleted, event, events, records⟩ | ⟨absent, events⟩
        · rw [events]
          exact forall₂_records rfl (accepted.trans deleted) records
        · rw [events, ofEntries_acceptance_eq_nil (.inl (accepted.trans absent))]
          exact .nil
    | modifyCounter entry insert =>
        rw [ofEntries_acceptance_eq_nil (.inr rfl)]
        exact .nil
    | modifyMeter entry insert =>
        rw [ofEntries_acceptance_eq_nil (.inr rfl)]
        exact .nil

/-- An update that stands for a call reports what the call does. -/
theorem reported_write {update : Update} (stands : update.mutation = .ok mutation) :
    registry.reported (.write update) = registry.reported (.mutate mutation) := by
  simp only [reported, write_eq, stands, Procedure.ofExcept_bind_ok]

theorem reported_write_of_refused {update : Update} {error : Error}
    (refused : update.mutation = .error error) : registry.reported (.write update) = [] := by
  simp only [reported, write_eq, refused, Procedure.ofExcept_bind_error]
  rfl

/-- An operation reports an event at debug level exactly for a mutation of an entry that it makes. -/
theorem records_operation (registry : Registry) (operation : Operation) :
    List.Forall₂ (Records registry) (ofEntries (registry.acceptance operation))
      (atDebug (registry.reported operation)) := by
  cases operation with
  | mutate mutation => exact registry.records_mutate mutation
  | write update =>
      cases stands : update.mutation with
      | error error =>
          rw [reported_write_of_refused stands]
          simp only [acceptance, Operation.mutation, stands]
          exact .nil
      | ok mutation =>
          have sameMutation : registry.acceptance (.write update) =
              registry.acceptance (.mutate mutation) := by
            simp only [acceptance, Operation.mutation, stands]
            rfl
          rw [sameMutation, reported_write stands]
          exact registry.records_mutate mutation
  | read request type answer =>
      have noEvent : atDebug (registry.reported (.read request type answer)) = [] := by
        refine List.filter_eq_nil_iff.mpr fun event inside => ?_
        obtain ⟨call, -, rfl⟩ := List.mem_map.mp inside
        exact Bool.false_ne_true
      rw [noEvent]
      exact .nil

/-! ## What a run reports -/

theorem records_run (registry : Registry) (operations : List Operation) :
    List.Forall₂ (Records registry) (ofEntries (registry.accepted operations))
      (registry.trail operations) := by
  induction operations generalizing registry with
  | nil => exact .nil
  | cons operation rest ih =>
      have later : List.Forall₂ (Records registry)
          (ofEntries ((registry.perform operation).2.accepted rest))
          ((registry.perform operation).2.trail rest) :=
        (ih (registry.perform operation).2).imp fun _ _ records =>
          records.congr (cleared_perform registry operation)
      rw [accepted, ofEntries, List.filter_append, trail, log, List.filter_append]
      exact List.rel_append (registry.records_operation operation) later

/-- The events of a run at debug level are, in order, one for each accepted mutation of an entry, and
their texts begin with the names of tables.  They are a complete trail of what was accepted if and
only if no call for a direct resource was. -/
theorem trail_records_accepted (registry : Registry) (operations : List Operation) :
    List.Forall₂ (Records registry)
      ((registry.accepted operations).filter fun mutation => mutation.resource = none)
      (registry.trail operations) ∧
    (∀ event ∈ registry.trail operations, ∃ table ∈ registry.tables.values, ∃ rest : String,
      event.message = "table " ++ table.name ++ ": " ++ rest) ∧
    ((registry.trail operations).length = (registry.accepted operations).length ↔
      ∀ mutation ∈ registry.accepted operations, mutation.resource = none) := by
  have records := registry.records_run operations
  refine ⟨records, fun event inside => ?_, ?_⟩
  · obtain ⟨position, same⟩ := List.get_of_mem inside
    have recorded := (List.forall₂_iff_get.mp records).2 position.val
      (records.length_eq.symm ▸ position.isLt) position.isLt
    rw [← same]
    exact recorded.message
  · rw [← records.length_eq, ofEntries, List.length_filter_eq_length_iff]
    simp only [decide_eq_true_eq]

/-- A host is inserted, and then it is counted. -/
def countedHostRun : List Operation :=
  [.mutate (.modifyEntry (host 1) true), .mutate (.modifyCounter ⟨host 1, ⟨640, 5⟩⟩ false)]

/-- Both calls are accepted, but only one of them is reported, so no events of the run can correspond
to the calls. -/
theorem counting_unrecorded :
    accessRegistry.accepted countedHostRun =
      [.modifyEntry (host 1) true, .modifyCounter ⟨host 1, ⟨640, 5⟩⟩ false] ∧
    ∀ Corresponds : Mutation → Event → Prop,
      ¬ List.Forall₂ Corresponds (accessRegistry.accepted countedHostRun)
        (accessRegistry.trail countedHostRun) := by
  have accepted : accessRegistry.accepted countedHostRun =
      [.modifyEntry (host 1) true, .modifyCounter ⟨host 1, ⟨640, 5⟩⟩ false] := by decide +kernel
  have reported : (accessRegistry.trail countedHostRun).length = 1 := by decide +kernel
  refine ⟨accepted, fun Corresponds corresponds => ?_⟩
  have lengths := corresponds.length_eq
  rw [accepted, reported] at lengths
  cases lengths

end Registry

end MatchAction
