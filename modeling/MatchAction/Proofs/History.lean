import MatchAction.Proofs.Construction
import MatchAction.Proofs.Failure
import MatchAction.Proofs.Locality
import Mathlib.Data.List.Induction

/-!
# History

What a slot holds after a run is decided by the calls of the run that succeeded there.  Of a keyed
row each part was last set by a call of its own kind: the entry by an insertion or modification, the
counter by a modification that carries counter data or by a call for the counter, the meter by each
of these calls but those for the counter, and the meter's counters by the insertion alone.  The row
of a default action is that of the last modification.
-/

namespace MatchAction

/-! ## What a mutation sets -/

namespace Mutation

/-- The entry that a mutation writes. -/
def entrySet : Mutation → Option TableEntry
  | modifyEntry entry _ => some entry
  | removeEntry _ | modifyCounter .. | modifyMeter .. => none

/-- The counter data that a mutation gives to a row that is there already. -/
def counterSet : Mutation → Option CounterData
  | modifyEntry entry false => entry.counterData
  | modifyCounter entry _ => some entry.data
  | modifyEntry _ true | removeEntry _ | modifyMeter .. => none

/-- The meter configuration, perhaps none, that a mutation gives to a row. -/
def meterSet : Mutation → Option (Option MeterConfig)
  | modifyEntry entry _ => some entry.meterConfig
  | modifyMeter entry _ => some entry.config
  | removeEntry _ | modifyCounter .. => none

/-- Whether a mutation begins or ends the time for which a keyed row is there. -/
def delimits : Mutation → Bool
  | modifyEntry _ true | removeEntry _ => true
  | modifyEntry _ false | modifyCounter .. | modifyMeter .. => false

/-- The default action that a mutation gives to a table. -/
def defaultSet (id : UInt32) : Mutation → Option TableEntry
  | modifyEntry entry false =>
      if entry.isDefaultAction ∧ entry.tableId = id then some entry else none
  | modifyEntry _ true | removeEntry _ | modifyCounter .. | modifyMeter .. => none

/-- What a slot holds after mutations whose effects follow one another. -/
def replay (changes : List Mutation) (held : Option Row) : Except Error (Option Row) :=
  changes.foldlM (fun held mutation => mutation.effect held) held

theorem replay_singleton (mutation : Mutation) (held : Option Row) :
    replay [mutation] held = mutation.effect held := by
  rw [replay, List.foldlM_cons]
  exact bind_pure _

theorem replay_append (first second : List Mutation) (held : Option Row) :
    replay (first ++ second) held = replay first held >>= replay second :=
  List.foldlM_append

/-- The last one of some changes is made to what the ones before it leave. -/
theorem exists_replay_of_concat {changes : List Mutation} {mutation : Mutation}
    {held last : Option Row} (replayed : replay (changes ++ [mutation]) held = .ok last) :
    ∃ before, replay changes held = .ok before ∧ mutation.effect before = .ok last := by
  rw [replay_append] at replayed
  cases earlier : replay changes held with
  | error error =>
      rw [earlier] at replayed
      cases replayed
  | ok before =>
      rw [earlier] at replayed
      exact ⟨before, rfl, (replay_singleton mutation before).symm.trans replayed⟩

/-- Only a removal leaves nothing. -/
theorem eq_removeEntry_of_effect {mutation : Mutation} {held : Option Row}
    (done : mutation.effect held = .ok none) : ∃ entry, mutation = .removeEntry entry := by
  cases mutation with
  | modifyEntry entry insert =>
      cases isDefault : entry.isDefaultAction <;> cases insert <;> cases held <;>
        simp [effect, isDefault] at done
  | removeEntry entry => exact ⟨entry, rfl⟩
  | modifyCounter entry insert => cases held <;> cases done
  | modifyMeter entry insert => cases held <;> cases done

end Mutation

/-! ## Keyed rows -/

/-- A keyed row as changes left it of which the last insertion was that of `origin`, with the changes
`since` after it. -/
structure Row.LeftBy (changes : List Mutation) (origin : TableEntry) (since : List Mutation)
    (row : Row) : Prop where
  entry : (changes.filterMap Mutation.entrySet).getLast?.map TableEntry.sorted = some row.entry
  counterData : row.counterData = (since.filterMap Mutation.counterSet).getLast?.getD .zero
  meterConfig :
    ((Mutation.modifyEntry origin true :: since).filterMap Mutation.meterSet).getLast? =
      some row.meterConfig
  meterCounterData : row.meterCounterData = origin.meterCounterData

namespace Row.LeftBy

variable {changes since : List Mutation} {origin : TableEntry} {row : Row}

theorem ofInserted (changes : List Mutation) (entry : TableEntry) :
    (Row.inserted entry.sorted).LeftBy (changes ++ [.modifyEntry entry true]) entry [] where
  entry := by simp [Mutation.entrySet, Row.inserted]
  counterData := rfl
  meterConfig := rfl
  meterCounterData := rfl

theorem modified (left : row.LeftBy changes origin since) (entry : TableEntry) :
    (row.modified entry.sorted).LeftBy (changes ++ [.modifyEntry entry false]) origin
      (since ++ [.modifyEntry entry false]) where
  entry := by simp [Mutation.entrySet, Row.modified]
  counterData := by
    have before := left.counterData
    cases carried : entry.counterData <;>
      simp [Mutation.counterSet, Row.modified, TableEntry.sorted, carried, before]
  meterConfig := by
    rw [← List.cons_append, List.filterMap_append]
    exact List.getLast?_concat
  meterCounterData := left.meterCounterData

theorem counted (left : row.LeftBy changes origin since) (entry : DirectCounterEntry)
    (insert : Bool) :
    ({ row with counterData := entry.data } : Row).LeftBy
      (changes ++ [.modifyCounter entry insert]) origin
      (since ++ [.modifyCounter entry insert]) where
  entry := by simpa [Mutation.entrySet] using left.entry
  counterData := by simp [Mutation.counterSet]
  meterConfig := by
    rw [← List.cons_append, List.filterMap_append]
    exact (congrArg _ (List.append_nil _)).trans left.meterConfig
  meterCounterData := left.meterCounterData

theorem metered (left : row.LeftBy changes origin since) (entry : DirectMeterEntry)
    (insert : Bool) :
    ({ row with meterConfig := entry.config } : Row).LeftBy
      (changes ++ [.modifyMeter entry insert]) origin
      (since ++ [.modifyMeter entry insert]) where
  entry := by simpa [Mutation.entrySet] using left.entry
  counterData := by simpa [Mutation.counterSet] using left.counterData
  meterConfig := by
    rw [← List.cons_append, List.filterMap_append]
    exact List.getLast?_concat
  meterCounterData := left.meterCounterData

end Row.LeftBy

namespace Mutation

/-- Of what makes a row where there was none, only an insertion looks for a keyed row. -/
theorem eq_insertion_of_effect {mutation : Mutation} {row : Row}
    (keyed : mutation.keyedEntry.isSome) (done : mutation.effect none = .ok (some row)) :
    ∃ entry, mutation = .modifyEntry entry true ∧ row = Row.inserted entry.sorted := by
  obtain ⟨entry, isKeyed⟩ := Option.isSome_iff_exists.mp keyed
  cases keying_of_eq isKeyed with
  | modifyEntry ordinary insert =>
      simp only [effect, ordinary] at done
      cases insert with
      | true =>
          cases done
          exact ⟨entry, rfl, rfl⟩
      | false => cases done
  | removeEntry ordinary => cases done
  | modifyCounter entry => cases done
  | modifyMeter entry => cases done

/-- What keeps a keyed row changes the parts of the row that it sets. -/
theorem leftBy_of_effect {mutation : Mutation} {row next : Row}
    (keyed : mutation.keyedEntry.isSome) (done : mutation.effect (some row) = .ok (some next)) :
    mutation.delimits = false ∧ ∀ {changes origin since}, row.LeftBy changes origin since →
      next.LeftBy (changes ++ [mutation]) origin (since ++ [mutation]) := by
  obtain ⟨entry, isKeyed⟩ := Option.isSome_iff_exists.mp keyed
  cases keying_of_eq isKeyed with
  | modifyEntry ordinary insert =>
      simp only [effect, ordinary] at done
      cases insert with
      | true => cases done
      | false =>
          cases done
          exact ⟨rfl, fun left => left.modified entry⟩
  | removeEntry ordinary => cases done
  | modifyCounter entry =>
      cases done
      exact ⟨rfl, fun left => left.counted entry false⟩
  | modifyMeter entry =>
      cases done
      exact ⟨rfl, fun left => left.metered entry false⟩

/-- A row that is there after changes under its key was inserted by one of them and was neither
inserted nor removed after that. -/
theorem leftBy_of_replay {changes : List Mutation} {row : Row}
    (keyed : ∀ mutation ∈ changes, mutation.keyedEntry.isSome)
    (replayed : replay changes none = .ok (some row)) :
    ∃ before origin since, changes = before ++ .modifyEntry origin true :: since ∧
      (∀ later ∈ since, later.delimits = false) ∧ row.LeftBy changes origin since := by
  induction changes using List.reverseRecOn generalizing row with
  | nil => cases replayed
  | append_singleton changes mutation ih =>
      obtain ⟨held, replayedBefore, done⟩ := exists_replay_of_concat replayed
      have keyedLast : mutation.keyedEntry.isSome := keyed mutation (by simp)
      cases held with
      | none =>
          obtain ⟨entry, rfl, rfl⟩ := eq_insertion_of_effect keyedLast done
          exact ⟨changes, entry, [], rfl, fun _ inside => absurd inside List.not_mem_nil,
            .ofInserted changes entry⟩
      | some old =>
          obtain ⟨before, origin, since, rfl, kept, left⟩ :=
            ih (fun earlier inside => keyed earlier (List.mem_append_left _ inside)) replayedBefore
          obtain ⟨keptLast, keeps⟩ := leftBy_of_effect keyedLast done
          refine ⟨before, origin, since ++ [mutation], by simp, fun later inside => ?_, keeps left⟩
          rcases List.mem_append.mp inside with earlier | last
          · exact kept later earlier
          · rw [List.mem_singleton.mp last]
            exact keptLast

/-- Where nothing is left, every change was followed by a removal, if it was not one itself. -/
theorem removal_after_of_replay {before since : List Mutation} {mutation : Mutation}
    (replayed : replay (before ++ mutation :: since) none = .ok none) :
    ∃ entry, .removeEntry entry ∈ mutation :: since := by
  have split : before ++ mutation :: since =
      (before ++ (mutation :: since).dropLast) ++ [(mutation :: since).getLast (by simp)] := by
    rw [List.append_assoc, List.dropLast_append_getLast]
  rw [split] at replayed
  obtain ⟨held, -, done⟩ := exists_replay_of_concat replayed
  obtain ⟨entry, last⟩ := eq_removeEntry_of_effect done
  exact ⟨entry, last ▸ List.getLast_mem _⟩

/-- A keyed row is there exactly if one was inserted and not removed since. -/
theorem isSome_replay_iff {changes : List Mutation} {held : Option Row}
    (keyed : ∀ mutation ∈ changes, mutation.keyedEntry.isSome)
    (replayed : replay changes none = .ok held) :
    held.isSome ↔ ∃ before origin since, changes = before ++ .modifyEntry origin true :: since ∧
      ∀ entry, .removeEntry entry ∉ since := by
  constructor
  · intro there
    obtain ⟨row, rfl⟩ := Option.isSome_iff_exists.mp there
    obtain ⟨before, origin, since, same, kept, -⟩ := leftBy_of_replay keyed replayed
    exact ⟨before, origin, since, same, fun entry inside => nomatch kept _ inside⟩
  · rintro ⟨before, origin, since, rfl, noRemoval⟩
    cases held with
    | some row => rfl
    | none =>
        obtain ⟨entry, inside⟩ := removal_after_of_replay replayed
        rcases List.mem_cons.mp inside with same | later
        · cases same
        · exact absurd later (noRemoval entry)

end Mutation

/-! ## The changes at a slot -/

/-- The call that an operation is or stands for, if there is one. -/
def Operation.mutation : Operation → Option Mutation
  | mutate mutation => some mutation
  | write update => update.mutation.toOption
  | read .. => none

namespace Registry

theorem perform_of_mutation (registry : Registry) {operation : Operation} {mutation : Mutation}
    (stands : operation.mutation = some mutation) :
    registry.perform operation = registry.perform (.mutate mutation) := by
  cases operation with
  | mutate mutation' =>
      cases stands
      rfl
  | write update =>
      cases made : update.mutation with
      | error error =>
          simp only [Operation.mutation, made] at stands
          cases stands
      | ok mutation' =>
          simp only [Operation.mutation, made] at stands
          cases stands
          exact perform_write_eq made
  | read request type answer => cases stands

theorem perform_of_no_mutation (registry : Registry) {operation : Operation}
    (none : operation.mutation = none) : (registry.perform operation).2 = registry := by
  cases operation with
  | mutate mutation => cases none
  | write update =>
      cases made : update.mutation with
      | error error => exact congrArg Prod.snd (perform_write_of_refused made)
      | ok mutation =>
          simp only [Operation.mutation, made] at none
          cases none
  | read request type answer => exact congrArg Prod.snd (perform_read ..)

/-- A mutation that succeeds addresses a slot and has its effect there. -/
theorem done_of_succeeded {registry : Registry} {mutation : Mutation}
    (succeeded : (registry.perform (.mutate mutation)).1.succeeded = true) :
    ∃ slot held, registry.slot mutation = .ok slot ∧
      mutation.effect (registry.row slot) = .ok held ∧
      (registry.perform (.mutate mutation)).2 = registry.setRow slot held := by
  cases addressed : registry.slot mutation with
  | error error =>
      rw [perform_of_refused addressed] at succeeded
      cases succeeded
  | ok slot =>
      cases done : mutation.effect (registry.row slot) with
      | error error =>
          rw [perform_of_failed addressed done] at succeeded
          cases succeeded
      | ok held =>
          exact ⟨slot, held, rfl, done, congrArg Prod.snd (perform_of_done addressed done)⟩

/-- The calls of a run that succeeded at a slot, in order. -/
def changesAt (registry : Registry) (slot : Slot) (operations : List Operation) : List Mutation :=
  ((registry.successes operations).filterMap fun done => done.1.mutation).filter
    fun mutation => registry.address mutation = some slot

theorem changesAt_cons (registry : Registry) (slot : Slot) (operation : Operation)
    (rest : List Operation) :
    registry.changesAt slot (operation :: rest) =
      registry.changesAt slot [operation] ++
        (registry.perform operation).2.changesAt slot rest := by
  have sameAddress (mutation : Mutation) :
      (registry.perform operation).2.address mutation = registry.address mutation :=
    address_congr (cleared_perform registry operation) mutation
  have nothing : (registry.perform operation).2.successes [] = [] := rfl
  simp only [changesAt, sameAddress, successes_cons registry operation, nothing,
    List.append_nil, List.filterMap_append, List.filter_append]

theorem changesAt_of_failed {registry : Registry} {operation : Operation}
    (failed : (registry.perform operation).1.succeeded = false) (slot : Slot) :
    registry.changesAt slot [operation] = [] := by
  simp only [changesAt, successes_cons, failed]
  rfl

theorem changesAt_of_succeeded {registry : Registry} {operation : Operation}
    (succeeded : (registry.perform operation).1.succeeded = true) (slot : Slot) :
    registry.changesAt slot [operation] =
      operation.mutation.toList.filter fun mutation => registry.address mutation = some slot := by
  have only : registry.successes [operation] = [(operation, (registry.perform operation).1)] := by
    rw [successes_cons, if_pos succeeded]
    rfl
  rw [changesAt, only, List.filterMap_cons, List.filterMap_nil]
  cases operation.mutation <;> rfl

/-- One operation changes a slot as its call says, if it has one that succeeds there. -/
theorem row_perform_eq (registry : Registry) (slot : Slot) (operation : Operation) :
    Mutation.replay (registry.changesAt slot [operation]) (registry.row slot) =
      .ok ((registry.perform operation).2.row slot) := by
  cases succeeded : (registry.perform operation).1.succeeded with
  | false =>
      rw [changesAt_of_failed succeeded, perform_of_not_succeeded succeeded]
      rfl
  | true =>
      rw [changesAt_of_succeeded succeeded]
      cases stands : operation.mutation with
      | none =>
          rw [perform_of_no_mutation registry stands]
          rfl
      | some mutation =>
          rw [perform_of_mutation registry stands] at succeeded ⊢
          obtain ⟨own, held, addressed, done, next⟩ := done_of_succeeded succeeded
          have address := address_eq_some.mpr addressed
          rw [next, Option.toList_some]
          by_cases here : own = slot
          · obtain ⟨table, known⟩ := known_of_slot addressed
            rw [List.filter_cons_of_pos (by simp [address, here]), List.filter_nil,
              Mutation.replay_singleton, ← here, done, row_setRow_self known]
          · rw [List.filter_cons_of_neg (by simp [address, here]), List.filter_nil,
              row_setRow_of_ne registry held (Ne.symm here)]
            rfl

/-- What a slot holds after a run is what the changes there make of what it held before. -/
theorem row_run_eq (registry : Registry) (slot : Slot) (operations : List Operation) :
    Mutation.replay (registry.changesAt slot operations) (registry.row slot) =
      .ok ((registry.run operations).2.row slot) := by
  induction operations generalizing registry with
  | nil => rfl
  | cons operation rest ih =>
      rw [changesAt_cons, Mutation.replay_append, row_perform_eq]
      exact ih (registry.perform operation).2

/-- From construction on, the changes at a slot alone decide what it holds. -/
theorem replay_changesAt (schemas : List TableSchema) (config : Config) (slot : Slot)
    (operations : List Operation) :
    let registry := (make schemas config).1
    Mutation.replay (registry.changesAt slot operations) none =
      .ok ((registry.run operations).2.row slot) := by
  intro registry
  rw [← row_run_eq, row_make]

theorem address_of_mem_changesAt {registry : Registry} {slot : Slot} {operations : List Operation}
    {mutation : Mutation} (inside : mutation ∈ registry.changesAt slot operations) :
    registry.slot mutation = .ok slot :=
  address_eq_some.mp (of_decide_eq_true (List.mem_filter.mp inside).2)

theorem keyed_of_mem_changesAt {registry : Registry} {id : UInt32} {key : Key}
    {operations : List Operation} {mutation : Mutation}
    (inside : mutation ∈ registry.changesAt ⟨id, .keyed key⟩ operations) :
    mutation.keyedEntry.isSome := by
  cases keyed : mutation.keyedEntry with
  | some entry => rfl
  | none =>
      obtain ⟨entry, table, -, -, -, -, same⟩ :=
        slot_eq_ok_of_not_keyed (address_of_mem_changesAt inside) keyed
      cases same

/-! ## Default actions -/

/-- The default actions that a run gave to a table, in order. -/
def defaultsSet (registry : Registry) (id : UInt32) (operations : List Operation) :
    List TableEntry :=
  (registry.successes operations).filterMap fun done =>
    done.1.mutation.bind (Mutation.defaultSet id)

/-- What succeeded in a run addresses a slot. -/
theorem slot_of_mem_successes {registry : Registry} {operations : List Operation}
    {done : Operation × Outcome} {mutation : Mutation}
    (inside : done ∈ registry.successes operations) (stands : done.1.mutation = some mutation) :
    ∃ slot, registry.slot mutation = .ok slot := by
  induction operations generalizing registry with
  | nil => cases inside
  | cons operation rest ih =>
      rw [successes_cons] at inside
      rcases List.mem_append.mp inside with now | later
      · cases succeeded : (registry.perform operation).1.succeeded with
        | false =>
            rw [succeeded] at now
            cases now
        | true =>
            rw [succeeded] at now
            cases List.mem_singleton.mp now
            rw [perform_of_mutation registry stands] at succeeded
            obtain ⟨slot, held, addressed, -, -⟩ := done_of_succeeded succeeded
            exact ⟨slot, addressed⟩
      · obtain ⟨slot, addressed⟩ := ih later
        have sameSlot := slot_congr (cleared_perform registry operation) mutation
        exact ⟨slot, sameSlot.symm.trans addressed⟩

/-- A mutation that addresses a slot addresses the one for a default action only to set it. -/
theorem defaultSet_eq {registry : Registry} {mutation : Mutation} {slot : Slot}
    (addressed : registry.slot mutation = .ok slot) (id : UInt32) :
    mutation.defaultSet id = if slot = ⟨id, .default⟩ then mutation.entrySet else none := by
  cases keyed : mutation.keyedEntry with
  | none =>
      obtain ⟨entry, table, rfl, isDefault, -, -, rfl⟩ := slot_eq_ok_of_not_keyed addressed keyed
      simp only [Mutation.defaultSet, Mutation.entrySet, isDefault, true_and, Slot.mk.injEq,
        and_true]
  | some entry =>
      rw [slot_of_keyedEntry registry keyed] at addressed
      obtain ⟨table, key, -, -, rfl⟩ := keyedSlot_eq_ok addressed
      simp only [Slot.mk.injEq, reduceCtorEq, and_false, ↓reduceIte]
      cases Mutation.keying_of_eq keyed with
      | modifyEntry ordinary insert =>
          cases insert <;> simp [Mutation.defaultSet, ordinary]
      | removeEntry ordinary => rfl
      | modifyCounter entry => rfl
      | modifyMeter entry => rfl

/-- The default actions of a table are what the changes at its slot for one wrote. -/
theorem defaultsSet_eq (registry : Registry) (id : UInt32) (operations : List Operation) :
    registry.defaultsSet id operations =
      (registry.changesAt ⟨id, .default⟩ operations).filterMap Mutation.entrySet := by
  rw [changesAt, List.filterMap_filter, List.filterMap_filterMap]
  refine List.filterMap_congr fun done inside => ?_
  cases stands : done.1.mutation with
  | none => rfl
  | some mutation =>
      obtain ⟨slot, addressed⟩ := slot_of_mem_successes inside stands
      simp only [Option.bind_some, defaultSet_eq addressed id, address_eq_some, addressed,
        Except.ok.injEq, decide_eq_true_eq]

end Registry

namespace Mutation

/-- What modifications of a default action leave is the row of the last one. -/
theorem replay_defaults {changes : List Mutation} {held : Option Row}
    (setDefault : ∀ mutation ∈ changes, ∃ entry, mutation = .modifyEntry entry false ∧
      entry.isDefaultAction = true)
    (replayed : replay changes none = .ok held) :
    held = (changes.filterMap entrySet).getLast?.map Row.defaultAction := by
  cases changes using List.reverseRecOn with
  | nil =>
      cases replayed
      rfl
  | append_singleton changes mutation =>
      obtain ⟨entry, rfl, isDefault⟩ := setDefault mutation (by simp)
      obtain ⟨before, -, done⟩ := exists_replay_of_concat replayed
      simp only [effect, isDefault, ↓reduceIte, Except.ok.injEq] at done
      have written : [modifyEntry entry false].filterMap entrySet = [entry] := rfl
      rw [← done, List.filterMap_append, written, List.getLast?_concat, Option.map_some]

end Mutation

namespace Registry

/-- The row of a default action is that of the last one set. -/
theorem row_default_eq (schemas : List TableSchema) (config : Config) (id : UInt32)
    (operations : List Operation) :
    let registry := (make schemas config).1
    (registry.run operations).2.row ⟨id, .default⟩ =
      (registry.defaultsSet id operations).getLast?.map Row.defaultAction := by
  intro registry
  rw [defaultsSet_eq]
  refine Mutation.replay_defaults (fun mutation inside => ?_)
    (replay_changesAt schemas config ⟨id, .default⟩ operations)
  have addressed := address_of_mem_changesAt inside
  cases keyed : mutation.keyedEntry with
  | none =>
      obtain ⟨entry, table, same, isDefault, -⟩ := slot_eq_ok_of_not_keyed addressed keyed
      exact ⟨entry, same, isDefault⟩
  | some entry =>
      rw [slot_of_keyedEntry registry keyed] at addressed
      obtain ⟨table, key, -, -, sameSlot⟩ := keyedSlot_eq_ok addressed
      cases sameSlot

/-- What a registry holds after a run is decided by the calls of the run that succeeded.  Under a
key there is a row exactly if one was inserted and not removed since; its parts are those that the
calls under the key last set.  A default action is there exactly if one was set, and its row is that
of the last one. -/
theorem rows_determined_by_changes (schemas : List TableSchema) (config : Config)
    (operations : List Operation) (id : UInt32) :
    let registry := (make schemas config).1
    let last := (registry.run operations).2
    let defaults := registry.defaultsSet id operations
    (∀ key : Key,
      let changes := registry.changesAt ⟨id, .keyed key⟩ operations
      ((last.row ⟨id, .keyed key⟩).isSome ↔
        ∃ before origin since, changes = before ++ .modifyEntry origin true :: since ∧
          ∀ entry, .removeEntry entry ∉ since) ∧
      ∀ row, last.row ⟨id, .keyed key⟩ = some row →
        ∃ before origin since, changes = before ++ .modifyEntry origin true :: since ∧
          (∀ entry, .modifyEntry entry true ∉ since) ∧ row.LeftBy changes origin since) ∧
    ((last.row ⟨id, .default⟩).isSome ↔ defaults ≠ []) ∧
    ∀ row, last.row ⟨id, .default⟩ = some row →
      ∃ entry, defaults.getLast? = some entry ∧
        row = ⟨entry, entry.counterData.getD .zero, entry.meterConfig, entry.meterCounterData⟩ := by
  intro registry last defaults
  refine ⟨fun key => ?_, ?_, ?_⟩
  · intro changes
    have keyed : ∀ mutation ∈ changes, mutation.keyedEntry.isSome :=
      fun mutation inside => keyed_of_mem_changesAt inside
    have replayed : Mutation.replay changes none = .ok (last.row ⟨id, .keyed key⟩) :=
      replay_changesAt schemas config ⟨id, .keyed key⟩ operations
    refine ⟨Mutation.isSome_replay_iff keyed replayed, fun row held => ?_⟩
    rw [held] at replayed
    obtain ⟨before, origin, since, same, kept, left⟩ := Mutation.leftBy_of_replay keyed replayed
    exact ⟨before, origin, since, same, (fun entry inside => nomatch kept _ inside), left⟩
  · rw [row_default_eq, Option.isSome_map, List.getLast?_isSome]
  · intro row held
    rw [row_default_eq] at held
    obtain ⟨entry, lastSet, rfl⟩ := Option.map_eq_some_iff.mp held
    exact ⟨entry, lastSet, rfl⟩

def hostKey : Key := Digest.ofBytes (Key.image (host 1).fieldMatches)

/-- The first host, given to a group. -/
def grouped : TableEntry := .make 7 [⟨1, .exact [1]⟩] (some (.profileGroup 3))

/-- A host is inserted, counted and given to a group, which then becomes the default. -/
def countedHost : List Operation :=
  [.mutate (.modifyEntry (host 1) true),
    .mutate (.modifyCounter ⟨host 1, ⟨640, 5⟩⟩ false),
    .write ⟨.modify, .tableEntry grouped⟩,
    .mutate (.modifyEntry (.defaultAction 7 (.profileGroup 3)) false)]

/-- The host belongs to the group and still counts what it was told to count, and the group is the
default. -/
theorem counted_host_kept :
    let last := (accessRegistry.run countedHost).2
    (∃ row, last.row ⟨7, .keyed hostKey⟩ = some row ∧
      row.entry = grouped.sorted ∧ row.counterData = ⟨640, 5⟩) ∧
    ∃ row, last.row ⟨7, .default⟩ = some row ∧ row.entry = .defaultAction 7 (.profileGroup 3) := by
  intro last
  have changes : (make [accessList] .standard).1.changesAt ⟨7, .keyed hostKey⟩ countedHost =
      [.modifyEntry (host 1) true, .modifyCounter ⟨host 1, ⟨640, 5⟩⟩ false,
        .modifyEntry grouped false] := by decide +kernel
  have defaults : (make [accessList] .standard).1.defaultsSet 7 countedHost =
      [.defaultAction 7 (.profileGroup 3)] := by decide +kernel
  obtain ⟨keyed, defaultThere, defaultLeft⟩ :=
    rows_determined_by_changes [accessList] .standard countedHost 7
  obtain ⟨there, left⟩ := keyed hostKey
  constructor
  · obtain ⟨row, held⟩ := Option.isSome_iff_exists.mp
      (there.mpr ⟨[], host 1, _, changes, by simp⟩)
    obtain ⟨before, origin, since, same, -, left⟩ := left row held
    rw [changes] at same left
    cases before with
    | nil =>
        obtain ⟨-, rfl⟩ := List.cons.inj same
        exact ⟨row, held, (Option.some.inj left.entry).symm, left.counterData⟩
    | cons first before =>
        -- What follows the insertion is no insertion.
        have later :
            Mutation.modifyEntry origin true ∈ before ++ .modifyEntry origin true :: since :=
          List.mem_append_right _ List.mem_cons_self
        rw [List.cons_append] at same
        rw [← (List.cons.inj same).2] at later
        simp at later
  · obtain ⟨row, held⟩ := Option.isSome_iff_exists.mp
      (defaultThere.mpr (defaults.trans_ne (List.cons_ne_nil _ _)))
    obtain ⟨entry, lastSet, rfl⟩ := defaultLeft row held
    rw [defaults] at lastSet
    cases lastSet
    exact ⟨_, held, rfl⟩

end Registry

end MatchAction
