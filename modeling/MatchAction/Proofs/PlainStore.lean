import MatchAction.Proofs.Operation

/-!
# The plain store

A reference for the table store.  Its tables keep their keyed rows by the very bytes that the field
matches of an entry are written as, and make no digest of them.  A read lists the rows of a table
without dividing them into batches.
-/

namespace MatchAction.Plain

/-- The bytes that the field matches of an entry are written as, in the order of their field ids. -/
def image (entry : TableEntry) : Bytes := Key.image (FieldMatch.sort entry.fieldMatches)

/-- What a read delivers of one table: of its keyed rows in any order, then of its default row. -/
structure Listing where
  keyed : List Entity
  default : Option Entity

structure Table where
  fieldCount : Nat
  rows : Std.ExtTreeMap Bytes Row compare
  defaultRow : Option Row

namespace Table

def make (fieldCount : Nat) : Table := ⟨fieldCount, ∅, none⟩

def size (table : Table) : Nat := table.rows.size + table.defaultRow.toList.length

/-- The bytes by which the table keeps the row of an entry. -/
def place (table : Table) (entry : TableEntry) : Except Error Bytes :=
  match (FieldMatch.sort entry.fieldMatches)[table.fieldCount]? with
  | some extra => .error (.unexpectedMatch table.fieldCount extra)
  | none => .ok (image entry)

/-- The table with the row at the bytes replaced; without one if none is held. -/
def setRow (table : Table) (bytes : Bytes) (held : Option Row) : Table :=
  { table with rows := table.rows.alter bytes fun _ => held }

theorem getElem?_setRow (table : Table) (bytes other : Bytes) (held : Option Row) :
    (table.setRow bytes held).rows[other]? =
      if bytes = other then held else table.rows[other]? := by
  simp only [setRow, Std.ExtTreeMap.getElem?_alter, Std.LawfulEqCmp.compare_eq_iff_eq]

/-- Replaces what is kept for an entry, perhaps nothing, by what the change makes of it. -/
def change (table : Table) (entry : TableEntry) (change : Option Row → Except Error (Option Row)) :
    Except Error Table := do
  let place ← table.place entry
  let held ← change table.rows[place]?
  return table.setRow place held

def setDefault (table : Table) (entry : TableEntry) : Except Error Table :=
  if entry.fieldMatches = [] then
    .ok { table with defaultRow := some (Row.defaultAction entry) }
  else .error .defaultWithMatches

def insert (table : Table) (entry : TableEntry) : Except Error Table :=
  if entry.isDefaultAction then .error .defaultInsert
  else
    table.change entry fun
      | none => .ok (some (Row.inserted entry.sorted))
      | some _ => .error (.entryExists entry.sorted)

def modify (table : Table) (entry : TableEntry) : Except Error Table :=
  if entry.isDefaultAction then table.setDefault entry
  else
    table.change entry fun
      | none => .error (.entryNotFound entry.sorted)
      | some row => .ok (some (row.modified entry.sorted))

def remove (table : Table) (entry : TableEntry) : Except Error Table :=
  if entry.isDefaultAction then .error .defaultRemove
  else table.change entry fun _ => .ok none

/-- Updates the row that is kept for an entry, which must be there. -/
def update (table : Table) (entry : TableEntry) (update : Row → Row) : Except Error Table :=
  table.change entry fun
    | none => .error (.entryNotFound entry)
    | some row => .ok (some (update row))

def listing (table : Table) (type : ReadType) : Listing :=
  let entity (row : Row) := row.entity type
  ⟨table.rows.values.map entity, table.defaultRow.map entity⟩

end Table

/-- What the caller of an operation sees: its result and, of a read, a listing for each table. -/
structure Outcome where
  result : Except Error Unit
  listings : List Listing

structure Registry where
  tables : Std.ExtTreeMap UInt32 Table compare

namespace Registry

def define (registry : Registry) (schema : TableSchema) : Registry :=
  ⟨registry.tables.insert schema.id (Table.make schema.matchFields.length)⟩

/-- An empty table for each schema, the last one of each id. -/
def make (schemas : List TableSchema) : Registry := schemas.foldl define ⟨∅⟩

def ids (registry : Registry) : List UInt32 := registry.tables.keys

/-- Changes the table of the given id. -/
def onTable (registry : Registry) (id : UInt32) (change : Table → Except Error Table) :
    Except Error Registry :=
  match registry.tables[id]? with
  | none => .error (.tableNotFound id)
  | some table => do
      let changed ← change table
      return ⟨registry.tables.insert id changed⟩

def mutate (registry : Registry) : Mutation → Except Error Registry
  | .modifyEntry entry insert =>
      registry.onTable entry.tableId fun table =>
        if insert then table.insert entry else table.modify entry
  | .removeEntry entry => registry.onTable entry.tableId fun table => table.remove entry
  | .modifyCounter entry insert =>
      if insert then .error (.directInsert .counter)
      else
        registry.onTable entry.tableEntry.tableId fun table =>
          table.update entry.tableEntry fun row => { row with counterData := entry.data }
  | .modifyMeter entry insert =>
      if insert then .error (.directInsert .meter)
      else
        registry.onTable entry.tableEntry.tableId fun table =>
          table.update entry.tableEntry fun row => { row with meterConfig := entry.config }

/-- The tables whose rows a request asks for: every table if its table id is zero. -/
def asked (registry : Registry) (request : TableEntry) : Except Error (List Table) :=
  if request.tableId = 0 then .ok registry.tables.values
  else
    match registry.tables[request.tableId]? with
    | none => .error (.tableNotFound request.tableId)
    | some table => .ok [table]

def read (registry : Registry) (request : TableEntry) (type : ReadType) : Outcome :=
  match registry.asked request with
  | .error error => ⟨.error error, []⟩
  | .ok tables => ⟨.ok (), tables.map fun table => table.listing type⟩

def settle (registry : Registry) : Except Error Registry → Outcome × Registry
  | .ok next => (⟨.ok (), []⟩, next)
  | .error error => (⟨.error error, []⟩, registry)

def perform (registry : Registry) : Operation → Outcome × Registry
  | .mutate mutation => registry.settle (registry.mutate mutation)
  | .write update => registry.settle (update.mutation >>= registry.mutate)
  | .read request type _ => (registry.read request type, registry)

def run (registry : Registry) : List Operation → List Outcome × Registry
  | [] => ([], registry)
  | operation :: rest =>
      let (outcome, next) := registry.perform operation
      let (outcomes, last) := next.run rest
      (outcome :: outcomes, last)

end Registry

end MatchAction.Plain
