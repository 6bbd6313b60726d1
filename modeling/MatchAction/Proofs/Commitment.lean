import MatchAction.Proofs.Slot

/-!
# Commitment

A procedure commits to a change if it makes and reports the change as a whole or fails and leaves the
store and the log as they were.  Nothing in the type of a procedure says so, since every step may write
before a later one fails.  A procedure on a table that commits to a change does so in a registry too.
-/

namespace MatchAction

namespace Procedure

variable {Store : Type}

/-- What comes of a change with its events that is made as a whole, if at all. -/
def settled (store : Store) (events : List Event) :
    Except Error (Store × List Event) → Except Error Unit × Store × List Event
  | .ok (next, reported) => (.ok (), next, events ++ reported)
  | .error error => (.error error, store, events)

/-- The procedure makes the change that there is for a store, or fails as it is refused. -/
def Commits (procedure : Procedure Store (List Event) Unit)
    (change : Store → Except Error (Store × List Event)) : Prop :=
  ∀ store events, procedure.on store events = settled store events (change store)

theorem commits_throw (error : Error) :
    Commits (throw error : Procedure Store (List Event) Unit) fun _ => .error error :=
  fun _ _ => rfl

/-- A change that is made of a table is made of the registry that it belongs to. -/
theorem Commits.onTable {procedure : Procedure Table (List Event) Unit}
    {change : Table → Except Error (Table × List Event)} (commits : procedure.Commits change)
    (id : UInt32) :
    (Registry.onTable id procedure).Commits fun registry => do
      let table ← registry.table id
      let (next, reported) ← change table
      return (registry.withTable id next, reported) := by
  intro registry events
  rw [Registry.on_onTable]
  dsimp only
  cases found : registry.table id with
  | error error => rfl
  | ok table =>
      simp only [commits table events, bind, Except.bind]
      cases change table with
      | error error =>
          -- A table whose change is refused is put back as it was.
          have unchanged := Registry.withTable_of_getElem? (Registry.table_eq_ok.mp found)
          simp only [settled, unchanged]
      | ok changed => rfl

end Procedure

end MatchAction
