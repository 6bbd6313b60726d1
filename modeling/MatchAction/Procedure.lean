import MatchAction.Event

/-!
# Procedures

What is done to a store step by step.  Beside the store there is an output that the steps write to: the
log of their events, or the sender that they hand batches to.  A step that fails ends a procedure, but
what the steps before it made of the store and wrote is not taken back.
-/

namespace MatchAction

/-- Steps on a store, with an output, that may fail. -/
abbrev Procedure (Store Output : Type) := EStateM Error (Store × Output)

namespace Procedure

variable {Store Output α β : Type}

/-- The result of a procedure, with the store and the output as it leaves them. -/
def on (procedure : Procedure Store Output α) (store : Store) (output : Output) :
    Except Error α × Store × Output :=
  match procedure.run (store, output) with
  | .ok x left => (.ok x, left)
  | .error error left => (.error error, left)

/-- The store as it is at this step. -/
def store : Procedure Store Output Store := do return (← get).1

def alter (change : Store → Store) : Procedure Store Output Unit :=
  modify fun (store, output) => (change store, output)

/-- Adds an event to the log. -/
def report (event : Event) : Procedure Store (List Event) Unit :=
  modify fun (store, events) => (store, events ++ [event])

theorem on_get_bind (next : Store × Output → Procedure Store Output α) (store : Store)
    (output : Output) : (get >>= next).on store output = (next (store, output)).on store output :=
  rfl

theorem on_store_bind (next : Store → Procedure Store Output α) (store : Store) (output : Output) :
    (Procedure.store >>= next).on store output = (next store).on store output := rfl

theorem ofExcept_bind_ok (x : β) (next : β → Procedure Store Output α) :
    (ofExcept (.ok x) >>= next) = next x := rfl

theorem ofExcept_bind_error (error : Error) (next : β → Procedure Store Output α) :
    (ofExcept (.error error) >>= next) = throw error := rfl

/-- What comes after a step starts where the step left off, unless it failed. -/
theorem on_bind (step : Procedure Store Output β) (next : β → Procedure Store Output α)
    (store : Store) (output : Output) :
    (step >>= next).on store output =
      match step.on store output with
      | (.ok x, store, output) => (next x).on store output
      | (.error error, store, output) => (.error error, store, output) := by
  simp only [on, EStateM.run, bind, EStateM.bind]
  cases step (store, output) <;> rfl

/-- A step that fails takes nothing back. -/
example (count : Nat) (event : Event) (error : Error) :
    (do alter (· + 1); report event; throw error : Procedure Nat (List Event) Unit).on count [] =
      (.error error, count + 1, [event]) := rfl

end Procedure

end MatchAction
