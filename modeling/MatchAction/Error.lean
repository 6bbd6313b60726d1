import MatchAction.Entity

/-!
# Errors of the table store

Each error is a cause, with the entry, match or table that it names.  What is reported of a cause is
its kind, the status code of its kind, and a text.
-/

namespace MatchAction

/-- The direct resources of an entry. -/
inductive DirectResource where
  | counter
  | meter
  deriving DecidableEq

def DirectResource.text : DirectResource → String
  | counter => "direct counter entry"
  | meter => "direct meter entry"

inductive ErrorKind where
  | notFound
  | alreadyExists
  | invalid
  | send
  deriving DecidableEq

/-- The status code of a kind of error. -/
def ErrorKind.code : ErrorKind → Nat
  | notFound => 5
  | alreadyExists => 6
  | invalid => 3
  | send => 2

inductive Error where
  | tableNotFound (id : UInt32)
  | entryNotFound (entry : TableEntry)
  | entryExists (entry : TableEntry)
  /-- More field matches than match fields; the first match too many, and its position. -/
  | unexpectedMatch (position : Nat) (fieldMatch : FieldMatch)
  | defaultInsert
  | defaultRemove
  | defaultWithMatches
  | directInsert (resource : DirectResource)
  | directDelete (resource : DirectResource)
  | unspecifiedUpdate
  | foreignEntity
  /-- The sender of a read refused a batch, for the reason given. -/
  | send (reason : String)
  deriving DecidableEq

namespace Error

def kind : Error → ErrorKind
  | tableNotFound _ | entryNotFound _ => .notFound
  | entryExists _ => .alreadyExists
  | send _ => .send
  | unexpectedMatch .. | defaultInsert | defaultRemove | defaultWithMatches | directInsert _
  | directDelete _ | unspecifiedUpdate | foreignEntity => .invalid

def code (error : Error) : Nat := error.kind.code

def message : Error → String
  | tableNotFound id => s!"table {id.toNat} not found"
  | entryNotFound entry => s!"entry doesn't exist: {entry.text}"
  | entryExists entry => s!"entry already exists: {entry.text}"
  | unexpectedMatch position fieldMatch =>
      s!"unexpected field match {position}: {fieldMatch.text}"
  | defaultInsert => "unable to insert default action entry"
  | defaultRemove => "unable to remove default action entry"
  | defaultWithMatches => "default action entry cannot have any match fields"
  | directInsert resource => s!"{resource.text} cannot be inserted"
  | directDelete resource => s!"{resource.text} cannot be deleted"
  | unspecifiedUpdate => "update type must be specified"
  | foreignEntity => "entity is not a table entry or direct resource"
  | send _ => "failed to send read batch"

end Error

end MatchAction
