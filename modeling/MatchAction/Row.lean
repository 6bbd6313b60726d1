import MatchAction.Entity

/-!
# Rows

A stored entry with the state of its direct counter and its direct meter.  That state is kept beside
the entry, so that it can change while the entry stays as it was written.
-/

namespace MatchAction

structure Row where
  entry : TableEntry
  counterData : CounterData
  meterConfig : Option MeterConfig
  meterCounterData : Option MeterCounterData
  deriving DecidableEq

namespace Row

/-- The row of an entry just inserted: its counter starts at zero, its meter as the entry says. -/
def inserted (entry : TableEntry) : Row := ⟨entry, .zero, entry.meterConfig, entry.meterCounterData⟩

/-- The row of a default action, of which the counter too starts as the entry says. -/
def defaultAction (entry : TableEntry) : Row :=
  { inserted entry with counterData := entry.counterData.getD .zero }

/-- The row after its entry was modified: the meter is configured anew, and the counter is set if
the new entry carries counter data. -/
def modified (row : Row) (entry : TableEntry) : Row :=
  { row with
    entry
    counterData := entry.counterData.getD row.counterData
    meterConfig := entry.meterConfig }

/-- The entity that a read of the given type delivers. -/
def entity (row : Row) : ReadType → Entity
  | .tableEntry => .tableEntry row.entry
  | .directCounter => .directCounter ⟨row.entry, row.counterData⟩
  | .directMeter => .directMeter ⟨row.entry, row.meterConfig, row.meterCounterData⟩

end Row

end MatchAction
