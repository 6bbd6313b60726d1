import MatchAction.Proofs.KeyImage

/-!
# Verdicts

Whether an update is carried out depends on its type, on the kind of its entity, on the table that it
names, and on what that table holds.  Here all this is one table of cases, of which the first that
applies gives the answer.  The store makes the checks one by one on the way from the registry to a row,
and comes to the same answers.
-/

namespace MatchAction

/-- The direct resource that an entity is, if it is one. -/
def Entity.resource : Entity → Option DirectResource
  | directCounter _ => some .counter
  | directMeter _ => some .meter
  | tableEntry _ | multicastGroup _ => none

/-- What a case says of an update; nothing if the case does not apply. -/
abbrev Ruling := Option (Except Error Unit)

/-! ## The cases -/

namespace Update

def ifUnspecified (update : Update) : Ruling :=
  if update.type = .unspecified then some (.error .unspecifiedUpdate) else none

def ifForeign (update : Update) : Ruling :=
  match update.entity with
  | .multicastGroup _ => some (.error .foreignEntity)
  | _ => none

/-- Direct resources come and go with their entries, whatever tables they name. -/
def ifDirect (update : Update) : Ruling :=
  match update.type, update.entity.resource with
  | .insert, some resource => some (.error (.directInsert resource))
  | .delete, some resource => some (.error (.directDelete resource))
  | _, _ => none

/-- A default action can only be modified, and has no field matches. -/
def ifDefault (update : Update) : Ruling :=
  match update.entity with
  | .tableEntry entry =>
      if entry.isDefaultAction then
        match update.type with
        | .insert => some (.error .defaultInsert)
        | .delete => some (.error .defaultRemove)
        | _ => if entry.fieldMatches = [] then some (.ok ()) else some (.error .defaultWithMatches)
      else none
  | _ => none

end Update

namespace Registry

def ifUnknown (registry : Registry) (update : Update) : Ruling := do
  let entry ← update.entity.owner
  if registry.tables[entry.tableId]? = none then some (.error (.tableNotFound entry.tableId))
  else none

/-- The match named is the first in the order of field ids for which there is no match field. -/
def ifTooMany (registry : Registry) (update : Update) : Ruling := do
  let entry ← update.entity.owner
  let table ← registry.tables[entry.tableId]?
  let count := table.schema.matchFields.length
  let ordered := FieldMatch.sort entry.fieldMatches
  if more : count < ordered.length then some (.error (.unexpectedMatch count ordered[count]))
  else none

def ifPresent (registry : Registry) (update : Update) : Ruling :=
  match update.type, update.entity with
  | .insert, .tableEntry entry =>
      if registry.row entry.home = none then none else some (.error (.entryExists entry.sorted))
  | _, _ => none

/-- A direct resource is looked for under the key of its entry, even if this is a default action. -/
def ifAbsent (registry : Registry) (update : Update) : Ruling :=
  match update.type, update.entity with
  | .modify, .tableEntry entry =>
      if registry.row entry.home = none then some (.error (.entryNotFound entry.sorted)) else none
  | .modify, entity => do
      let entry ← entity.owner
      if registry.row entry.home = none then some (.error (.entryNotFound entry)) else none
  | _, _ => none

/-- The cases for an update, in order. -/
def rulings (registry : Registry) (update : Update) : List Ruling :=
  [update.ifUnspecified, update.ifForeign, update.ifDirect, registry.ifUnknown update,
    update.ifDefault, registry.ifTooMany update, registry.ifPresent update,
    registry.ifAbsent update]

/-- What the first case that applies says; if none does, the update is carried out. -/
def verdict (registry : Registry) (update : Update) : Except Error Unit :=
  ((registry.rulings update).findSome? id).getD (.ok ())

/-! ## The way to a row -/

variable {registry : Registry} {entry : TableEntry} {table : Table}

/-- The error that a computation ends with, as a ruling. -/
def refusal {α : Type} : Except Error α → Ruling
  | .ok _ => none
  | .error error => some (.error error)

end Registry

end MatchAction
