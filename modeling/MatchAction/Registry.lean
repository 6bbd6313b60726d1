import MatchAction.Config
import MatchAction.Table

/-!
# Registries

All tables of a device by their ids.  The set of tables is fixed when the registry is made; an
operation is passed on to the table that its entry names.
-/

namespace MatchAction

structure Registry where
  tables : Std.ExtTreeMap UInt32 Table compare

/-- A registry together with the events that its making reported. -/
abbrev Logged := Registry × List Event

namespace Registry

def empty : Registry := ⟨∅⟩

/-- Adds an empty table for a schema; a table of the same id is given up, with a warning. -/
def define (config : Config) (made : Logged) (schema : TableSchema) : Logged :=
  let (registry, events) := made
  let table := Table.make schema config.readBatchSize.toNat
  let warnings := if registry.tables.contains table.id then [.duplicateTable table.id] else []
  (⟨registry.tables.insert table.id table⟩, events ++ warnings)

def size (registry : Registry) : Nat := registry.tables.size

/-- An empty table for each schema, the last one of each id. -/
def make (schemas : List TableSchema) (config : Config) : Logged :=
  let (registry, events) := schemas.foldl (define config) (empty, [])
  (registry, events ++ [.tablesCreated registry.size])

def ids (registry : Registry) : List UInt32 := registry.tables.keys

/-- Installs a matcher in every table. -/
def setMatcher (registry : Registry) (matcher : Matcher) : Registry :=
  ⟨registry.tables.map fun _ table => { table with matcher }⟩

/-- The table with the given id. -/
def table (registry : Registry) (id : UInt32) : Except Error Table :=
  match registry.tables[id]? with
  | some table => .ok table
  | none => .error (.tableNotFound id)

/-- The registry with the table of the given id replaced. -/
def withTable (registry : Registry) (id : UInt32) (table : Table) : Registry :=
  ⟨registry.tables.insert id table⟩

variable {Output α : Type}

/-- Performs a procedure on the table of the given id, which is locked meanwhile.  The table stays as the
procedure leaves it, whether the procedure fails or not. -/
def onTable (id : UInt32) (procedure : Procedure Table Output α) : Procedure Registry Output α := do
  let (registry, output) ← get
  let table ← ofExcept (registry.table id)
  let (result, table, output) := procedure.on table output
  set (registry.withTable id table, output)
  ofExcept result

theorem on_onTable (registry : Registry) (id : UInt32) (procedure : Procedure Table Output α)
    (output : Output) :
    (onTable id procedure).on registry output =
      match registry.table id with
      | .error error => (.error error, registry, output)
      | .ok table =>
          let (result, next, output) := procedure.on table output
          (result, registry.withTable id next, output) := by
  rw [onTable, Procedure.on_get_bind]
  dsimp only
  cases registry.table id with
  | error error => rfl
  | ok table =>
      rw [Procedure.ofExcept_bind_ok]
      dsimp only
      generalize procedure.on table output = done
      rcases done with ⟨_ | _, next, output⟩ <;> rfl

def modifyEntry (entry : TableEntry) (insert : Bool) : Procedure Registry (List Event) Unit :=
  onTable entry.tableId (Table.modifyEntry entry insert)

def removeEntry (entry : TableEntry) : Procedure Registry (List Event) Unit :=
  onTable entry.tableId (Table.removeEntry entry)

/-- Sets the counter of a stored entry.  Counters come and go with their entries, so none is ever
inserted. -/
def modifyCounter (entry : DirectCounterEntry) (insert : Bool) :
    Procedure Registry (List Event) Unit :=
  if insert then throw (.directInsert .counter)
  else onTable entry.tableEntry.tableId (Table.modifyCounter entry)

/-- Configures the meter of a stored entry, which like a counter is never inserted. -/
def modifyMeter (entry : DirectMeterEntry) (insert : Bool) : Procedure Registry (List Event) Unit :=
  if insert then throw (.directInsert .meter)
  else onTable entry.tableEntry.tableId (Table.modifyMeter entry)

/-- Applies one update.  Table entries are inserted, modified and deleted; direct resources are only
modified; no other entity is kept in tables. -/
def write (update : Update) : Procedure Registry (List Event) Unit :=
  match update.type, update.entity with
  | .unspecified, _ => throw .unspecifiedUpdate
  | .insert, .tableEntry entry => modifyEntry entry true
  | .modify, .tableEntry entry => modifyEntry entry false
  | .delete, .tableEntry entry => removeEntry entry
  | .insert, .directCounter entry => modifyCounter entry true
  | .modify, .directCounter entry => modifyCounter entry false
  | .delete, .directCounter _ => throw (.directDelete .counter)
  | .insert, .directMeter entry => modifyMeter entry true
  | .modify, .directMeter entry => modifyMeter entry false
  | .delete, .directMeter _ => throw (.directDelete .meter)
  | _, .multicastGroup _ => throw .foreignEntity

/-- Reads the tables of the given ids one after the other, until one fails. -/
def readTables (request : TableEntry) (type : ReadType) (ids : List UInt32) :
    Procedure Registry Sender Unit :=
  ids.forM fun id => onTable id (Table.reading request type)

/-- Reads the table that a request names, or every table if its table id is zero. -/
def reading (request : TableEntry) (type : ReadType) : Procedure Registry Sender Unit := do
  if request.tableId = 0 then readTables request type (← Procedure.store).ids
  else onTable request.tableId (Table.reading request type)

/-- What a read comes to, and the sender after it. -/
def read (registry : Registry) (request : TableEntry) (type : ReadType) (sender : Sender) :
    Except Error Unit × Sender :=
  let (result, _, sender) := (reading request type).on registry sender
  (result, sender)

end Registry

end MatchAction
