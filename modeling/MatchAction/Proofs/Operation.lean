import MatchAction.Registry

/-!
# Operations

What clients ask of a registry: four calls that may change it, updates, which stand for such calls,
and reads.  A run performs operations one after the other, each on the registry that the one before it
left, and goes on after a failure.
-/

namespace MatchAction

/-- A call that may change a registry. -/
inductive Mutation where
  | modifyEntry (entry : TableEntry) (insert : Bool)
  | removeEntry (entry : TableEntry)
  | modifyCounter (entry : DirectCounterEntry) (insert : Bool)
  | modifyMeter (entry : DirectMeterEntry) (insert : Bool)
  deriving DecidableEq

/-- The entry whose row a mutation looks for among the keyed rows, if it looks there at all. -/
def Mutation.keyedEntry : Mutation → Option TableEntry
  | modifyEntry entry _ | removeEntry entry =>
      if entry.isDefaultAction then none else some entry
  | modifyCounter entry insert => if insert then none else some entry.tableEntry
  | modifyMeter entry insert => if insert then none else some entry.tableEntry

/-- The mutations by whether they look for a keyed row, and for whose. -/
inductive Mutation.Keying : Mutation → Option TableEntry → Prop where
  | modifyEntry {entry : TableEntry} (ordinary : entry.isDefaultAction = false) (insert : Bool) :
      Keying (.modifyEntry entry insert) (some entry)
  | removeEntry {entry : TableEntry} (ordinary : entry.isDefaultAction = false) :
      Keying (.removeEntry entry) (some entry)
  | modifyCounter (entry : DirectCounterEntry) :
      Keying (.modifyCounter entry false) (some entry.tableEntry)
  | modifyMeter (entry : DirectMeterEntry) :
      Keying (.modifyMeter entry false) (some entry.tableEntry)
  | modifyDefault {entry : TableEntry} (isDefault : entry.isDefaultAction = true) (insert : Bool) :
      Keying (.modifyEntry entry insert) none
  | removeDefault {entry : TableEntry} (isDefault : entry.isDefaultAction = true) :
      Keying (.removeEntry entry) none
  | insertCounter (entry : DirectCounterEntry) : Keying (.modifyCounter entry true) none
  | insertMeter (entry : DirectMeterEntry) : Keying (.modifyMeter entry true) none

theorem Mutation.keying (mutation : Mutation) : mutation.Keying mutation.keyedEntry := by
  cases mutation with
  | modifyEntry entry insert =>
      cases isDefault : entry.isDefaultAction with
      | true =>
          rw [keyedEntry, if_pos isDefault]
          exact .modifyDefault isDefault insert
      | false =>
          rw [keyedEntry, if_neg (Bool.eq_false_iff.mp isDefault)]
          exact .modifyEntry isDefault insert
  | removeEntry entry =>
      cases isDefault : entry.isDefaultAction with
      | true =>
          rw [keyedEntry, if_pos isDefault]
          exact .removeDefault isDefault
      | false =>
          rw [keyedEntry, if_neg (Bool.eq_false_iff.mp isDefault)]
          exact .removeEntry isDefault
  | modifyCounter entry insert =>
      cases insert with
      | true => exact .insertCounter entry
      | false => exact .modifyCounter entry
  | modifyMeter entry insert =>
      cases insert with
      | true => exact .insertMeter entry
      | false => exact .modifyMeter entry

theorem Mutation.keying_of_eq {mutation : Mutation} {keyed : Option TableEntry}
    (same : mutation.keyedEntry = keyed) : mutation.Keying keyed := same ▸ mutation.keying

/-- The steps of a mutation in the table that it concerns. -/
def Mutation.procedure : Mutation → Procedure Table (List Event) Unit
  | modifyEntry entry insert => Table.modifyEntry entry insert
  | removeEntry entry => Table.removeEntry entry
  | modifyCounter entry _ => Table.modifyCounter entry
  | modifyMeter entry _ => Table.modifyMeter entry

/-- The call that an update stands for, or why there is none. -/
def Update.mutation (update : Update) : Except Error Mutation :=
  match update.type, update.entity with
  | .unspecified, _ => .error .unspecifiedUpdate
  | _, .multicastGroup _ => .error .foreignEntity
  | .delete, .tableEntry entry => .ok (.removeEntry entry)
  | .delete, .directCounter _ => .error (.directDelete .counter)
  | .delete, .directMeter _ => .error (.directDelete .meter)
  | type, .tableEntry entry => .ok (.modifyEntry entry (type = .insert))
  | type, .directCounter entry => .ok (.modifyCounter entry (type = .insert))
  | type, .directMeter entry => .ok (.modifyMeter entry (type = .insert))

inductive Operation where
  | mutate (mutation : Mutation)
  | write (update : Update)
  /-- A read whose sender refuses its calls as `answer` says. -/
  | read (request : TableEntry) (type : ReadType) (answer : Nat → Option String)

/-- What the caller of an operation sees: its result and, of a read, the calls of the sender. -/
structure Outcome where
  result : Except Error Unit
  calls : List Call

namespace Registry

def mutate : Mutation → Procedure Registry (List Event) Unit
  | .modifyEntry entry insert => modifyEntry entry insert
  | .removeEntry entry => removeEntry entry
  | .modifyCounter entry insert => modifyCounter entry insert
  | .modifyMeter entry insert => modifyMeter entry insert

/-- An update is refused, or does what the call does that it stands for. -/
theorem write_eq (update : Update) : write update = ofExcept update.mutation >>= mutate := by
  obtain ⟨type, entity⟩ := update
  cases type <;> cases entity <;> rfl

/-- The outcome of a change, and the registry that it leaves, whether it fails or not. -/
def settle (registry : Registry) (change : Procedure Registry (List Event) Unit) :
    Outcome × Registry :=
  let (result, next, _) := change.on registry []
  (⟨result, []⟩, next)

def perform (registry : Registry) : Operation → Outcome × Registry
  | .mutate mutation => registry.settle (mutate mutation)
  | .write update => registry.settle (write update)
  | .read request type answer =>
      let (result, next, sender) := (reading request type).on registry (.fresh answer)
      (⟨result, sender.calls.toList⟩, next)

/-- The outcomes of operations performed in order, and the registry after the last one. -/
def run (registry : Registry) : List Operation → List Outcome × Registry
  | [] => ([], registry)
  | operation :: rest =>
      let (outcome, next) := registry.perform operation
      let (outcomes, last) := next.run rest
      (outcome :: outcomes, last)

@[simp] theorem run_nil (registry : Registry) : registry.run [] = ([], registry) := rfl

@[simp] theorem run_cons (registry : Registry) (operation : Operation) (rest : List Operation) :
    registry.run (operation :: rest) =
      ((registry.perform operation).1 :: ((registry.perform operation).2.run rest).1,
        ((registry.perform operation).2.run rest).2) := rfl

theorem run_append (registry : Registry) (first second : List Operation) :
    registry.run (first ++ second) =
      ((registry.run first).1 ++ ((registry.run first).2.run second).1,
        ((registry.run first).2.run second).2) := by
  induction first generalizing registry with
  | nil => rfl
  | cons operation rest ih => simp only [List.cons_append, run_cons, ih]

theorem length_run (registry : Registry) (operations : List Operation) :
    (registry.run operations).1.length = operations.length := by
  induction operations generalizing registry with
  | nil => rfl
  | cons operation rest ih => simp only [run_cons, List.length_cons, ih]

/-- The outcome at a position is that of the operation there, after the operations before it. -/
theorem getElem?_run (registry : Registry) (operations : List Operation) (position : Nat) :
    (registry.run operations).1[position]? = operations[position]?.map fun operation =>
      ((registry.run (operations.take position)).2.perform operation).1 := by
  induction operations generalizing registry position with
  | nil => rfl
  | cons operation rest ih =>
      cases position with
      | zero => rfl
      | succ position =>
          simp only [run_cons, List.getElem?_cons_succ, List.take_succ_cons]
          exact ih (registry.perform operation).2 position

/-- What every operation preserves holds after every run. -/
theorem run_invariant {Holds : Registry → Prop}
    (preserved : ∀ registry operation, Holds registry → Holds (registry.perform operation).2)
    {registry : Registry} (initially : Holds registry) (operations : List Operation) :
    Holds (registry.run operations).2 := by
  induction operations generalizing registry with
  | nil => exact initially
  | cons operation rest ih => exact ih (preserved registry operation initially)

end Registry

/-! ## A small registry -/

/-- A table of hosts, each known by one byte. -/
def accessList : TableSchema := .make 7 "acl" [.make 1 "dst" 8 .exact]

def host (byte : UInt8) : TableEntry := .make 7 [⟨1, .exact [byte]⟩] none

def accessRegistry : Registry := (Registry.make [accessList] .standard).1

end MatchAction
