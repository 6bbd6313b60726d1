import MatchAction.Proofs.Batching
import Mathlib.Data.List.Flatten

/-!
# Buffering

A buffer that is given entities one at a time, flushed now and then, and used on after refusals.
Whether a call of it calls the sender is decided by how many entities it holds, and then all of them
are handed over, whatever the sender says.  So the batches handed over and the entities still held
make up what was passed in; what a client of the sender misses is what was refused.
-/

namespace MatchAction

namespace Sender

/-- The batches that were refused. -/
def refused (sender : Sender) : List (List Entity) :=
  (sender.calls.toList.filter fun call => call.refusal.isSome).map fun call => call.batch.toList

theorem delivered_append_refused_perm (sender : Sender) :
    (sender.delivered ++ sender.refused).Perm sender.batches := by
  have parted := List.filter_append_perm (fun call : Call => call.refusal.isNone)
    sender.calls.toList
  simp only [Option.not_isNone] at parted
  rw [delivered, refused, ← List.map_append]
  exact parted.map _

theorem delivered_sublist (sender : Sender) : sender.delivered.Sublist sender.batches :=
  List.filter_sublist.map _

theorem calls_send (sender : Sender) (batch : Array Entity) :
    (sender.send batch).2.calls.toList =
      sender.calls.toList ++ [⟨batch, sender.answer (sender.calls.size + 1)⟩] :=
  Array.toList_push

end Sender

namespace Buffer

/-- A call of a buffer. -/
inductive Request where
  | push (entity : Entity)
  | flush

namespace Request

/-- What a call passes in. -/
def entities : Request → List Entity
  | push entity => [entity]
  | flush => []

/-- How often a call is to call the sender of a buffer that holds the given number of entities. -/
def count (capacity held : Nat) : Request → Nat
  | push _ => if held = capacity - 1 then 1 else 0
  | flush => 1

/-- The sizes of the batches that a call may hand over. -/
def Admits (capacity size : Nat) : Request → Prop
  | push _ => size = capacity
  | flush => size < capacity

end Request

/-- All that calls pass in, in order. -/
def passed (requests : List Request) : List Entity := requests.flatMap Request.entities

def serve (buffer : Buffer) : Request → Except Error Unit × Buffer
  | .push entity => buffer.push entity
  | .flush => buffer.flush

/-- The buffer after calls, each made whether or not the one before it failed. -/
def after (buffer : Buffer) (requests : List Request) : Buffer :=
  requests.foldl (fun buffer request => (buffer.serve request).2) buffer

theorem passed_concat (requests : List Request) (request : Request) :
    passed (requests ++ [request]) = passed requests ++ request.entities := by
  rw [passed, List.flatMap_append, List.flatMap_singleton]
  rfl

/-! ## One call -/

/-- A call that hands over a batch hands over all that there is, and keeps nothing. -/
def handOver (buffer : Buffer) (request : Request) : Except Error Unit × Buffer :=
  let (result, sender) := buffer.sender.send (buffer.entities.toList ++ request.entities).toArray
  (result, { buffer with entities := #[], sender })

/-- A call that does not keeps all that there is. -/
def hold (buffer : Buffer) (request : Request) : Buffer :=
  { buffer with entities := (buffer.entities.toList ++ request.entities).toArray }

/-- A call finds out by the number of entities held whether it is to call the sender. -/
theorem serve_cases {buffer : Buffer} (room : buffer.entities.size < buffer.capacity)
    (request : Request) :
    let all := buffer.entities.toList ++ request.entities
    (request.count buffer.capacity buffer.entities.size = 1 ∧
      request.Admits buffer.capacity all.length ∧ buffer.serve request = buffer.handOver request) ∨
    (request.count buffer.capacity buffer.entities.size = 0 ∧ all.length < buffer.capacity ∧
      buffer.serve request = (.ok (), buffer.hold request)) := by
  intro all
  cases request with
  | flush =>
      have same : all = buffer.entities.toList := List.append_nil _
      have handed : buffer.serve .flush = buffer.handOver .flush := by
        simp only [serve, flush, handOver, Request.entities, List.append_nil, Array.toArray_toList]
      refine .inl ⟨rfl, ?_, handed⟩
      rwa [same, Array.length_toList]
  | push entity =>
      have pushed : buffer.entities.push entity = all.toArray :=
        congrArg List.toArray Array.toList_push
      have size : all.length = buffer.entities.size + 1 := by
        rw [List.length_append, Array.length_toList]
        rfl
      by_cases last : buffer.entities.size = buffer.capacity - 1
      · have full : buffer.capacity ≤ all.toArray.size := by
          rw [List.size_toArray]
          omega
        refine .inl ⟨if_pos last, ?_, ?_⟩
        · rw [Request.Admits]
          omega
        · simp only [serve, push, pushed, if_pos full, flush, handOver, all]
      · have short : ¬ buffer.capacity ≤ all.toArray.size := by
          rw [List.size_toArray]
          omega
        refine .inr ⟨if_neg last, ?_, ?_⟩
        · omega
        · simp only [serve, push, pushed, if_neg short, hold, all]

/-- What a call of a buffer does to the sender, and what it answers. -/
structure Answers (buffer : Buffer) (request : Request) (calls : List Call) : Prop where
  made : (buffer.serve request).2.sender.calls.toList = buffer.sender.calls.toList ++ calls
  count : calls.length = request.count buffer.capacity buffer.entities.size
  sizes : ∀ call ∈ calls, request.Admits buffer.capacity call.batch.size
  failed : ∀ reason, (buffer.serve request).1 = .error (.send reason) ↔
    ∃ call ∈ calls, call.refusal = some reason
  succeeded : (buffer.serve request).1 = .ok () ↔ ∀ call ∈ calls, call.refusal = none

theorem answers_serve {buffer : Buffer} (room : buffer.entities.size < buffer.capacity)
    (request : Request) : ∃ calls, buffer.Answers request calls := by
  rcases buffer.serve_cases room request with ⟨once, admitted, served⟩ | ⟨never, -, served⟩
  · let batch := (buffer.entities.toList ++ request.entities).toArray
    refine ⟨[⟨batch, buffer.sender.answer (buffer.sender.calls.size + 1)⟩], ?_, ?_, ?_, ?_, ?_⟩
    · rw [served]
      exact buffer.sender.calls_send batch
    · rw [once, List.length_singleton]
    · simpa only [List.forall_mem_singleton, batch, List.size_toArray] using admitted
    · intro reason
      rw [served]
      simp only [handOver, Sender.send, List.mem_singleton, exists_eq_left]
      cases buffer.sender.answer (buffer.sender.calls.size + 1) <;> simp
    · rw [served]
      simp only [handOver, Sender.send, List.forall_mem_singleton]
      cases buffer.sender.answer (buffer.sender.calls.size + 1) <;> simp
  · refine ⟨[], ?_, never.symm, List.forall_mem_nil _, fun reason => ?_, ?_⟩
    · rw [served, List.append_nil]
      rfl
    · rw [served]
      simp
    · rw [served]
      simp

/-! ## Calls one after the other -/

/-- How a buffer stands after calls, if it was empty before them and its sender had not been called. -/
structure Kept (capacity : Nat) (answer : Nat → Option String) (requests : List Request)
    (buffer : Buffer) : Prop where
  sameCapacity : buffer.capacity = max capacity 1
  sameAnswer : buffer.sender.answer = answer
  /-- The sender refused the calls that it refuses by its answer, and no others. -/
  answered : ∀ index call, buffer.sender.calls.toList[index]? = some call →
    call.refusal = answer (index + 1)
  room : buffer.entities.size < max capacity 1
  /-- What was handed over, refused or not, and what is held make up what was passed in. -/
  kept : buffer.sender.batches.flatten ++ buffer.entities.toList = passed requests

variable {capacity : Nat} {answer : Nat → Option String} {buffer : Buffer}

theorem kept_make (capacity : Nat) (answer : Nat → Option String) :
    Kept capacity answer [] (make capacity (.fresh answer)) := by
  refine ⟨rfl, rfl, nofun, ?_, rfl⟩
  exact Nat.lt_of_lt_of_le Nat.zero_lt_one (Nat.le_max_right capacity 1)

theorem Kept.serve {earlier : List Request} (stands : Kept capacity answer earlier buffer)
    (request : Request) : Kept capacity answer (earlier ++ [request]) (buffer.serve request).2 := by
  obtain ⟨sameCapacity, sameAnswer, answered, room, kept⟩ := stands
  rw [← sameCapacity] at room
  rcases buffer.serve_cases room request with ⟨-, -, served⟩ | ⟨-, short, served⟩
  · let batch := buffer.entities.toList ++ request.entities
    have next : (buffer.serve request).2.sender = (buffer.sender.send batch.toArray).2 := by
      rw [served]
      rfl
    have emptied : (buffer.serve request).2.entities = #[] := by
      rw [served]
      rfl
    refine ⟨?_, ?_, fun index call made => ?_, ?_, ?_⟩
    · rwa [served]
    · rwa [next, Sender.answer_send]
    · rw [next, Sender.calls_send, List.getElem?_append] at made
      split at made
      · exact answered index call made
      · next notEarlier =>
          simp only [List.getElem?_singleton, Option.ite_none_right_eq_some,
            Option.some.injEq] at made
          obtain ⟨last, rfl⟩ := made
          have same : index + 1 = buffer.sender.calls.size + 1 := by
            rw [Array.length_toList] at notEarlier last
            omega
          rw [same, ← sameAnswer]
    · rw [emptied]
      exact Nat.lt_of_lt_of_le Nat.zero_lt_one (Nat.le_max_right capacity 1)
    · rw [next, emptied, Sender.batches_send, List.flatten_concat, List.append_nil,
        passed_concat, ← kept, List.append_assoc]
  · rw [served]
    refine ⟨sameCapacity, sameAnswer, answered, ?_, ?_⟩
    · rwa [← sameCapacity]
    · rw [passed_concat, ← kept, List.append_assoc]
      rfl

theorem Kept.after {earlier : List Request} (stands : Kept capacity answer earlier buffer)
    (requests : List Request) :
    Kept capacity answer (earlier ++ requests) (buffer.after requests) := by
  induction requests generalizing earlier buffer with
  | nil =>
      rw [List.append_nil]
      exact stands
  | cons request rest ih =>
      rw [List.append_cons]
      exact ih (stands.serve request)

/-- A buffer loses nothing, repeats nothing and keeps the order, whatever is asked of it and whatever
its sender refuses; only refused batches are not delivered.  Each call of it calls the sender as often
as it is to, with a batch of the size that it is to have, and fails if and only if the sender
refuses. -/
theorem nothing_lost_but_refused (capacity : Nat) (answer : Nat → Option String)
    (requests : List Request) :
    let buffer := (make capacity (.fresh answer)).after requests
    Kept capacity answer requests buffer ∧
    (buffer.sender.delivered.flatten ++ buffer.entities.toList).Sublist (passed requests) ∧
    (passed requests).Perm (buffer.sender.delivered.flatten ++ buffer.sender.refused.flatten ++
      buffer.entities.toList) ∧
    ∀ request, ∃ calls, buffer.Answers request calls := by
  intro buffer
  have stands : Kept capacity answer requests buffer := (kept_make capacity answer).after requests
  have room : buffer.entities.size < buffer.capacity := stands.sameCapacity ▸ stands.room
  refine ⟨stands, ?_, ?_, buffer.answers_serve room⟩
  · rw [← stands.kept]
    exact buffer.sender.delivered_sublist.flatten.append (List.Sublist.refl _)
  · have parted := buffer.sender.delivered_append_refused_perm.flatten.symm
    rw [List.flatten_append] at parted
    rw [← stands.kept]
    exact parted.append_right buffer.entities.toList

end Buffer

end MatchAction
