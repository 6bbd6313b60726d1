import MatchAction.Proofs.Delivery
import MatchAction.Proofs.History

/-!
# Noninterference of direct resources

A call for a direct resource sets that resource of one row.  Nothing but a read of the resource can
tell whether such calls were made: all others see registries that agree but for the resource, and
every operation keeps the agreement.  So the calls for a resource can be deleted from a run.
-/

namespace MatchAction

/-- The kind of read that delivers a resource. -/
def DirectResource.readType : DirectResource → ReadType
  | counter => .directCounter
  | meter => .directMeter

/-- The direct resource that a mutation is a call for. -/
def Mutation.resource : Mutation → Option DirectResource
  | modifyEntry .. | removeEntry _ => none
  | modifyCounter .. => some .counter
  | modifyMeter .. => some .meter

namespace Operation

/-- The direct resource that an operation is a call for, by itself or as an update. -/
def resource (operation : Operation) : Option DirectResource :=
  operation.mutation.bind Mutation.resource

/-- Whether an operation is a read that delivers a resource. -/
def Shows (resource : DirectResource) : Operation → Prop
  | mutate _ | write _ => False
  | read _ type _ => type = resource.readType

end Operation

/-! ## Rows but for a resource -/

namespace Row

/-- The row with a direct resource cleared. -/
def without (resource : DirectResource) (row : Row) : Row :=
  match resource with
  | .counter => { row with counterData := .zero }
  | .meter => { row with meterConfig := none }

variable (resource : DirectResource) (row : Row)

/-- Only a read of the resource tells whether it is there. -/
theorem entity_without {resource : DirectResource} {type : ReadType}
    (other : type ≠ resource.readType) (row : Row) :
    (row.without resource).entity type = row.entity type := by
  cases resource <;> cases type <;> first | rfl | exact absurd rfl other

theorem modified_without (entry : TableEntry) :
    ((row.without resource).modified entry).without resource =
      (row.modified entry).without resource := by
  cases resource with
  | meter => rfl
  | counter => rfl

theorem counted_without (data : CounterData) :
    ({ row.without resource with counterData := data } : Row).without resource =
      ({ row with counterData := data } : Row).without resource := by
  cases resource <;> rfl

theorem metered_without (config : Option MeterConfig) :
    ({ row.without resource with meterConfig := config } : Row).without resource =
      ({ row with meterConfig := config } : Row).without resource := by
  cases resource <;> rfl

end Row

namespace Mutation

variable {resource : DirectResource} {mutation : Mutation}

/-- Where rows differ at most in a resource, a mutation has the same error, or leaves rows that differ
at most in the resource. -/
theorem effect_without (mutation : Mutation) {first second : Option Row}
    (same : first.map (Row.without resource) = second.map (Row.without resource)) :
    (mutation.effect first).map (Option.map (Row.without resource)) =
      (mutation.effect second).map (Option.map (Row.without resource)) := by
  cases first with
  | none =>
      cases Option.map_eq_none_iff.mp same.symm
      rfl
  | some row =>
      obtain ⟨row', rfl, sameRows⟩ := Option.map_eq_some_iff.mp same.symm
      -- What a mutation writes into a row does not depend on the resource that was there.
      have written (update : Row → Row) (blind : ∀ row,
          (update (row.without resource)).without resource = (update row).without resource) :
          (update row).without resource = (update row').without resource := by
        rw [← blind row, ← sameRows, blind]
      cases mutation with
      | modifyEntry entry insert =>
          cases isDefault : entry.isDefaultAction <;> cases insert <;>
            simp only [effect, isDefault, Except.map, ↓reduceIte, Bool.false_eq_true,
              Option.map_some]
          rw [written (fun row => row.modified entry.sorted) fun row =>
            row.modified_without resource entry.sorted]
      | removeEntry entry => rfl
      | modifyCounter entry insert =>
          simp only [effect, Except.map, Option.map_some]
          rw [written (fun row => { row with counterData := entry.data }) fun row =>
            row.counted_without resource entry.data]
      | modifyMeter entry insert =>
          simp only [effect, Except.map, Option.map_some]
          rw [written (fun row => { row with meterConfig := entry.config }) fun row =>
            row.metered_without resource entry.config]

/-- A call for a resource changes nothing else. -/
theorem without_of_effect (calls : mutation.resource = some resource) {held next : Option Row}
    (done : mutation.effect held = .ok next) :
    next.map (Row.without resource) = held.map (Row.without resource) := by
  cases mutation with
  | modifyEntry entry insert => cases calls
  | removeEntry entry => cases calls
  | modifyCounter entry insert =>
      cases calls
      cases held <;> cases done
      rfl
  | modifyMeter entry insert =>
      cases calls
      cases held <;> cases done
      rfl

end Mutation

/-! ## Registries but for a resource -/

namespace Registry

/-- Registries that differ at most in a direct resource of their rows. -/
structure AgreeBut (resource : DirectResource) (first second : Registry) : Prop where
  cleared : first.cleared = second.cleared
  rows : ∀ slot, (first.row slot).map (Row.without resource) =
    (second.row slot).map (Row.without resource)

namespace AgreeBut

variable {resource : DirectResource} {first second : Registry}

theorem refl (resource : DirectResource) (registry : Registry) :
    AgreeBut resource registry registry := ⟨rfl, fun _ => rfl⟩

/-- A mutation has the same outcome in both registries, and keeps them in agreement. -/
theorem mutate (agree : AgreeBut resource first second) (mutation : Mutation) :
    (first.perform (.mutate mutation)).1 = (second.perform (.mutate mutation)).1 ∧
      AgreeBut resource (first.perform (.mutate mutation)).2
        (second.perform (.mutate mutation)).2 := by
  have sameSlot := slot_congr agree.cleared mutation
  cases addressed : first.slot mutation with
  | error error =>
      rw [perform_of_refused addressed, perform_of_refused (sameSlot.symm.trans addressed)]
      exact ⟨rfl, agree⟩
  | ok slot =>
      have addressed' := sameSlot.symm.trans addressed
      have sameEffect := mutation.effect_without (agree.rows slot)
      cases effect : mutation.effect (first.row slot) with
      | error error =>
          cases effect' : mutation.effect (second.row slot) <;> rw [effect, effect'] at sameEffect
          · cases sameEffect
            rw [perform_of_failed addressed effect, perform_of_failed addressed' effect']
            exact ⟨rfl, agree⟩
          · cases sameEffect
      | ok held =>
          cases effect' : mutation.effect (second.row slot) <;> rw [effect, effect'] at sameEffect
          · cases sameEffect
          · rw [perform_of_done addressed effect, perform_of_done addressed' effect']
            refine ⟨rfl, ⟨by rw [cleared_setRow, cleared_setRow, agree.cleared], fun other => ?_⟩⟩
            by_cases same : other = slot
            · obtain ⟨table, known⟩ := known_of_slot addressed
              obtain ⟨table', known'⟩ := known_of_slot addressed'
              rw [same, row_setRow_self known, row_setRow_self known']
              exact Except.ok.inj sameEffect
            · rw [row_setRow_of_ne first _ same, row_setRow_of_ne second _ same]
              exact agree.rows other

theorem read (agree : AgreeBut resource first second) (request : TableEntry) {type : ReadType}
    (other : type ≠ resource.readType) (sender : Sender) :
    first.read request type sender = second.read request type sender := by
  refine read_congr agree.cleared (fun slot => ?_) request sender
  have unseen (held : Option Row) : (held.map (Row.without resource)).map (fun row => row.entity type) =
      held.map fun row => row.entity type := by
    rw [Option.map_map]
    exact congrArg (Option.map · held) (funext (Row.entity_without other))
  rw [← unseen, agree.rows, unseen]

/-- An operation that does not show the resource has the same outcome in both registries, and every
operation keeps them in agreement. -/
theorem perform (agree : AgreeBut resource first second) (operation : Operation) :
    (¬ operation.Shows resource →
      (first.perform operation).1 = (second.perform operation).1) ∧
    AgreeBut resource (first.perform operation).2 (second.perform operation).2 := by
  cases operation with
  | mutate mutation =>
      obtain ⟨outcome, next⟩ := agree.mutate mutation
      exact ⟨fun _ => outcome, next⟩
  | write update =>
      cases stands : update.mutation with
      | error error =>
          rw [perform_write_of_refused stands, perform_write_of_refused stands]
          exact ⟨fun _ => rfl, agree⟩
      | ok mutation =>
          rw [perform_write_eq stands, perform_write_eq stands]
          obtain ⟨outcome, next⟩ := agree.mutate mutation
          exact ⟨fun _ => outcome, next⟩
  | read request type answer =>
      rw [perform_read, perform_read]
      refine ⟨fun other => ?_, agree⟩
      rw [agree.read request other]

/-- A call for the resource can be left out. -/
theorem skip (agree : AgreeBut resource first second) {operation : Operation}
    (calls : operation.resource = some resource) :
    AgreeBut resource (first.perform operation).2 second := by
  obtain ⟨mutation, stands, callsFor⟩ := Option.bind_eq_some_iff.mp calls
  rw [perform_of_mutation first stands]
  cases succeeded : (first.perform (.mutate mutation)).1.succeeded with
  | false =>
      rw [perform_of_not_succeeded succeeded]
      exact agree
  | true =>
      obtain ⟨slot, held, addressed, done, next⟩ := done_of_succeeded succeeded
      rw [next]
      refine ⟨(cleared_setRow first slot held).trans agree.cleared, fun other => ?_⟩
      by_cases same : other = slot
      · obtain ⟨table, known⟩ := known_of_slot addressed
        rw [same, row_setRow_self known, Mutation.without_of_effect callsFor done]
        exact agree.rows slot
      · rw [row_setRow_of_ne first held same]
        exact agree.rows other

end AgreeBut

/-- One operation of two runs: unless it is a read that shows the resource, its caller sees the same
in both. -/
structure AlikeBut (resource : DirectResource) (first second : Operation × Outcome) : Prop where
  operation : first.1 = second.1
  outcome : ¬ first.1.Shows resource → first.2 = second.2

theorem history_cons (registry : Registry) (operation : Operation) (rest : List Operation) :
    registry.history (operation :: rest) =
      (operation, (registry.perform operation).1) ::
        (registry.perform operation).2.history rest := rfl

theorem AgreeBut.run {resource : DirectResource} {first second : Registry}
    (agree : AgreeBut resource first second) {deleted : Operation → Bool}
    (calls : ∀ operation, deleted operation = true → operation.resource = some resource)
    (operations : List Operation) :
    List.Forall₂ (AlikeBut resource)
      ((first.history operations).filter fun done => !deleted done.1)
      (second.history (operations.filter fun operation => !deleted operation)) := by
  induction operations generalizing first second with
  | nil => exact .nil
  | cons operation rest ih =>
      rw [history_cons]
      cases isDeleted : deleted operation with
      | true =>
          rw [List.filter_cons_of_neg (by simp [isDeleted]),
            List.filter_cons_of_neg (by simp [isDeleted])]
          exact ih (agree.skip (calls operation isDeleted))
      | false =>
          obtain ⟨outcome, next⟩ := agree.perform operation
          rw [List.filter_cons_of_pos (by simp [isDeleted]),
            List.filter_cons_of_pos (by simp [isDeleted]), history_cons]
          exact .cons ⟨rfl, outcome⟩ (ih next)

/-- Calls for one direct resource do not interfere with anything else.  If they are deleted from a
run, all of them or only some, every other operation has the outcome that it had with them, unless it
reads the resource itself. -/
theorem direct_calls_deletable (registry : Registry) (resource : DirectResource)
    {deleted : Operation → Bool}
    (calls : ∀ operation, deleted operation = true → operation.resource = some resource)
    (operations : List Operation) :
    List.Forall₂ (AlikeBut resource)
      ((registry.history operations).filter fun done => !deleted done.1)
      (registry.history (operations.filter fun operation => !deleted operation)) :=
  (AgreeBut.refl resource registry).run calls operations

/-- A host is inserted and counted, by a call and by an update, and then read in two ways. -/
def countedThenRead : List Operation :=
  [.mutate (.modifyEntry (host 1) true),
    .mutate (.modifyCounter ⟨host 1, ⟨640, 5⟩⟩ false),
    .write ⟨.modify, .directCounter ⟨host 1, ⟨1280, 10⟩⟩⟩,
    .write ⟨.modify, .tableEntry grouped⟩,
    .read (host 1) .directMeter fun _ => none,
    .read (host 1) .tableEntry fun _ => none]

/-- Neither the modification of the host nor the reads tell that the host was counted. -/
theorem counting_unnoticed :
    let counts (operation : Operation) : Bool := operation.resource = some .counter
    (∀ operation, counts operation = true → operation.resource = some .counter) ∧
    (countedThenRead.filter fun operation => !counts operation).length = 4 ∧
    List.Forall₂ (AlikeBut .counter)
      ((accessRegistry.history countedThenRead).filter fun done => !counts done.1)
      (accessRegistry.history (countedThenRead.filter fun operation => !counts operation)) := by
  intro counts
  have calls : ∀ operation, counts operation = true → operation.resource = some .counter :=
    fun _ => of_decide_eq_true
  exact ⟨calls, rfl, direct_calls_deletable accessRegistry .counter calls countedThenRead⟩

end Registry

end MatchAction
