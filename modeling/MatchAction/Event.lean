import MatchAction.Error
import MatchAction.Key
import MatchAction.Terminal

/-!
# Log events

What the table store and its command line report while they work.  An event is a cause; its level,
the component that reports it and its text follow from it.
-/

namespace MatchAction

/-- Levels from the most to the least severe. -/
inductive Level where
  | error
  | warn
  | info
  | debug
  | trace
  deriving DecidableEq

namespace Level

def all : List Level := [error, warn, info, debug, trace]

def severity : Level → Nat
  | error => 1
  | warn => 2
  | info => 3
  | debug => 4
  | trace => 5

def text : Level → String
  | error => "ERROR"
  | warn => "WARN"
  | info => "INFO"
  | debug => "DEBUG"
  | trace => "TRACE"

end Level

inductive Event where
  | duplicateTable (id : UInt32)
  | tablesCreated (count : Nat)
  | defaultActionSet (table : String) (entry : TableEntry)
  | entryInserted (table : String) (entry : TableEntry) (key : Key)
  | entryModified (table : String) (entry : TableEntry)
  | entryRemoved (table : String) (entry : TableEntry)
  | batchFlushed (count : Nat)
  | schemaRead (schema : TableSchema)
  | tablesLoaded (count : Nat) (path : String)
  | updateFailed (position : Nat) (error : Error)
  | updatesApplied (applied total : Nat)

namespace Event

def level : Event → Level
  | updateFailed .. => .error
  | duplicateTable _ => .warn
  | tablesLoaded .. | updatesApplied .. => .info
  | tablesCreated _ | defaultActionSet .. | entryInserted .. | entryModified .. | entryRemoved ..
  | schemaRead _ => .debug
  | batchFlushed _ => .trace

/-- The component that reports the event. -/
def target : Event → String
  | duplicateTable _ | tablesCreated _ => "p4tables::tables"
  | defaultActionSet .. | entryInserted .. | entryModified .. | entryRemoved .. => "p4tables::table"
  | batchFlushed _ => "p4tables::buffer"
  | schemaRead _ | tablesLoaded .. | updateFailed .. | updatesApplied .. => "p4tables"

def message : Event → String
  | duplicateTable id => s!"duplicate table id {id.toNat}, keeping the last definition"
  | tablesCreated count => s!"created {count} tables"
  | defaultActionSet table entry => s!"table {table}: set default action: {entry.text}"
  | entryInserted table entry key => s!"table {table}: insert {entry.text} as {Digest.hex key}"
  | entryModified table entry => s!"table {table}: modify {entry.text}"
  | entryRemoved table entry => s!"table {table}: remove {entry.text}"
  | batchFlushed count => s!"flushing {count} entities"
  | schemaRead schema => schema.text
  | tablesLoaded count path => s!"loaded {count} tables from {path}"
  | updateFailed position error => s!"update {position}: {error.message} (status {error.code})"
  | updatesApplied applied total => s!"applied {applied} of {total} updates"

/-- The event's line without the component. -/
def shortLine (event : Event) : String := s!"{event.level.text} {event.message}"

/-- The event's line in a log that a terminal shows. -/
def line (event : Event) : String :=
  s!"{event.level.text} {event.target}: {Terminal.display event.message}"

end Event

end MatchAction
