import MatchAction.Event

/-!
# Batches

A read hands its entities to a sender in batches.  A sender is known by its answers: it refuses some
of its calls and takes the others.  A buffer collects entities and passes them on as soon as there
are as many as its capacity.

A buffer is made for every capacity.  That there is room for so many entities is taken for granted; a
program that sets the room apart beforehand may have to refuse a capacity that comes to more bytes than
can be addressed.
-/

namespace MatchAction

/-- A call of a sender: the batch, and the reason if the sender refused it. -/
structure Call where
  batch : Array Entity
  refusal : Option String
  deriving DecidableEq

/-- A sender with the calls made so far.  `answer n` is the reason for refusing call `n`, counted
from one. -/
structure Sender where
  answer : Nat → Option String
  calls : Array Call

namespace Sender

/-- A sender before its first call. -/
def fresh (answer : Nat → Option String) : Sender := ⟨answer, #[]⟩

/-- A sender that takes every batch. -/
def willing : Sender := fresh fun _ => none

def send (sender : Sender) (batch : Array Entity) : Except Error Unit × Sender :=
  let refusal := sender.answer (sender.calls.size + 1)
  let result := refusal.elim (.ok ()) fun reason => .error (.send reason)
  (result, { sender with calls := sender.calls.push ⟨batch, refusal⟩ })

/-- The batches that were taken. -/
def delivered (sender : Sender) : List (List Entity) :=
  (sender.calls.toList.filter fun call => call.refusal.isNone).map fun call => call.batch.toList

/-- The events that the calls reported. -/
def events (sender : Sender) : List Event :=
  sender.calls.toList.map fun call => .batchFlushed call.batch.size

end Sender

structure Buffer where
  capacity : Nat
  entities : Array Entity
  sender : Sender

namespace Buffer

/-- An empty buffer; a capacity of zero counts as one. -/
def make (capacity : Nat) (sender : Sender) : Buffer := ⟨max capacity 1, #[], sender⟩

/-- Sends what is buffered, even nothing.  The buffer is empty afterwards, whatever the sender says. -/
def flush (buffer : Buffer) : Except Error Unit × Buffer :=
  let (result, sender) := buffer.sender.send buffer.entities
  (result, { buffer with entities := #[], sender })

/-- Adds an entity, and flushes the buffer if that fills it. -/
def push (buffer : Buffer) (entity : Entity) : Except Error Unit × Buffer :=
  let buffer := { buffer with entities := buffer.entities.push entity }
  if buffer.capacity ≤ buffer.entities.size then buffer.flush else (.ok (), buffer)

/-- Adds entities until a flush fails. -/
def pushAll (buffer : Buffer) : List Entity → Except Error Unit × Buffer
  | [] => (.ok (), buffer)
  | entity :: rest =>
      match buffer.push entity with
      | (.ok (), buffer) => buffer.pushAll rest
      | failed => failed

/-- Adds entities and flushes what is left, until a flush fails. -/
def deliver (buffer : Buffer) (entities : List Entity) : Except Error Unit × Buffer :=
  match buffer.pushAll entities with
  | (.ok (), buffer) => buffer.flush
  | failed => failed

end Buffer

end MatchAction
