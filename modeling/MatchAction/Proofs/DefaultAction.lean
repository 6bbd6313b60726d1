import MatchAction.Proofs.Reachability

/-!
# Default actions

A default action lies outside the keyed rows.  Its modification does not touch them, and it can be
neither inserted nor removed.  A call for a direct resource, however, is not asked whether it is that
of a default action: it reaches the row under the key of its entry's field matches, which for a default
action is most likely that of an entry without any.
-/

namespace MatchAction

/-- The row with the direct resource that a mutation gives to it, if it gives one. -/
def Mutation.reset : Mutation → Row → Row
  | modifyEntry .., row | removeEntry _, row => row
  | modifyCounter entry _, row => { row with counterData := entry.data }
  | modifyMeter entry _, row => { row with meterConfig := entry.config }

namespace Table

variable {table next : Table} {mutation : Mutation}

end Table

/-- The counter of the default action. -/
def defaultCounter : DirectCounterEntry :=
  ⟨{ TableEntry.empty with tableId := 7, isDefaultAction := true }, ⟨640, 5⟩⟩

end MatchAction
