import MatchAction.Batch
import MatchAction.Procedure
import MatchAction.Row
import Std.Data.ExtTreeMap

/-!
# Tables

The rows of one table, by the keys of their entries, and the row of its default action, which lies
outside the keyed rows: it has no field matches, is only ever set by a modification, and is never
removed.  What changes a table is a procedure on it, and a read only looks at it.
-/

namespace MatchAction

/-- Keys are ordered as numbers. -/
instance : Std.TransCmp (compare : Key → Key → Ordering) := inferInstance

/-- Decides whether a stored entry, the second argument, answers a request. -/
abbrev Matcher := TableEntry → TableEntry → Bool

/-- Every entry answers every request. -/
def Matcher.all : Matcher := fun _ _ => true

abbrev Rows := Std.ExtTreeMap Key Row compare

structure Table where
  schema : TableSchema
  rows : Rows
  defaultRow : Option Row
  batchSize : Nat
  matcher : Matcher

namespace Table

/-- An empty table.  Its match fields are kept in the order of their ids. -/
def make (schema : TableSchema) (batchSize : Nat) : Table :=
  ⟨schema.sorted, ∅, none, batchSize, Matcher.all⟩

def id (table : Table) : UInt32 := table.schema.id

def name (table : Table) : String := table.schema.name

/-- The number of rows, with that of the default action. -/
def size (table : Table) : Nat := table.rows.size + table.defaultRow.toList.length

/-- The stored entries, that of the default action last. -/
def entries (table : Table) : List TableEntry :=
  (table.rows.values ++ table.defaultRow.toList).map Row.entry

/-- The key of field matches in any order. -/
def keyOf (table : Table) (fieldMatches : List FieldMatch) : Except Error Key :=
  Key.ofMatches table.schema.matchFields.length fieldMatches

/-! ## Changes -/

section Changes

open Procedure

def setDefault (entry : TableEntry) : Procedure Table (List Event) Unit := do
  if entry.fieldMatches.isEmpty then
    report (.defaultActionSet (← store).name entry)
    alter fun table => { table with defaultRow := some (Row.defaultAction entry) }
  else throw .defaultWithMatches

/-- Adds a row for an entry whose key has none. -/
def insertEntry (entry : TableEntry) : Procedure Table (List Event) Unit := do
  let table ← store
  let key ← ofExcept (table.keyOf entry.fieldMatches)
  match table.rows[key]? with
  | some _ => throw (.entryExists entry.sorted)
  | none =>
      report (.entryInserted table.name entry.sorted key)
      alter fun table => { table with rows := table.rows.insert key (Row.inserted entry.sorted) }

/-- Replaces the entry of the row at its key. -/
def replaceEntry (entry : TableEntry) : Procedure Table (List Event) Unit := do
  let table ← store
  let key ← ofExcept (table.keyOf entry.fieldMatches)
  match table.rows[key]? with
  | none => throw (.entryNotFound entry.sorted)
  | some row =>
      report (.entryModified table.name entry.sorted)
      alter fun table => { table with rows := table.rows.insert key (row.modified entry.sorted) }

/-- Inserts an entry, or modifies the one with the same key.  A default action is only modified. -/
def modifyEntry (entry : TableEntry) (insert : Bool) : Procedure Table (List Event) Unit :=
  match entry.isDefaultAction, insert with
  | true, true => throw .defaultInsert
  | true, false => setDefault entry
  | false, true => insertEntry entry
  | false, false => replaceEntry entry

/-- Removes the row at an entry's key, and reports it if there was one. -/
def removeEntry (entry : TableEntry) : Procedure Table (List Event) Unit := do
  if entry.isDefaultAction then throw .defaultRemove
  else
    let table ← store
    let key ← ofExcept (table.keyOf entry.fieldMatches)
    alter fun table => { table with rows := table.rows.erase key }
    if table.rows[key]?.isSome then report (.entryRemoved table.name entry)

/-- Changes the row at an entry's key, which must be there. -/
def updateRow (entry : TableEntry) (update : Row → Row) : Procedure Table (List Event) Unit := do
  let table ← store
  let key ← ofExcept (table.keyOf entry.fieldMatches)
  match table.rows[key]? with
  | none => throw (.entryNotFound entry)
  | some row => alter fun table => { table with rows := table.rows.insert key (update row) }

def modifyCounter (entry : DirectCounterEntry) : Procedure Table (List Event) Unit :=
  updateRow entry.tableEntry fun row => { row with counterData := entry.data }

def modifyMeter (entry : DirectMeterEntry) : Procedure Table (List Event) Unit :=
  updateRow entry.tableEntry fun row => { row with meterConfig := entry.config }

end Changes

/-! ## Reads -/

/-- The rows that answer a request, with the keyed rows in the order given: those of them that the
matcher accepts, then in any case that of the default action. -/
def answersAmong (table : Table) (keyed : List Row) (request : TableEntry) : List Row :=
  (keyed.filter fun row => table.matcher request row.entry) ++ table.defaultRow.toList

def answers (table : Table) (request : TableEntry) : List Row :=
  table.answersAmong table.rows.values request

/-- Sends the rows that answer a request, the keyed ones in the order given, in batches, until the
sender refuses one. -/
def readAmong (table : Table) (keyed : List Row) (request : TableEntry) (type : ReadType)
    (sender : Sender) : Except Error Unit × Sender :=
  let entities := (table.answersAmong keyed request).map fun row => row.entity type
  let (result, buffer) := (Buffer.make table.batchSize sender).deliver entities
  (result, buffer.sender)

def read (table : Table) (request : TableEntry) (type : ReadType) (sender : Sender) :
    Except Error Unit × Sender :=
  table.readAmong table.rows.values request type sender

/-- A read among the procedures on a table. -/
def reading (request : TableEntry) (type : ReadType) : Procedure Table Sender Unit := do
  let (table, sender) ← get
  let (result, sender) := table.read request type sender
  set (table, sender)
  ofExcept result

end Table

end MatchAction
