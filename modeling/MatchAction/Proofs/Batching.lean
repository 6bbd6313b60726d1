import MatchAction.Proofs.Maps
import MatchAction.Proofs.Slot

/-!
# Batching

How a read divides its entities into batches, and how far it gets with a sender.  The batches of a
list of entities are cut from its front, each as long as the capacity, and last of all comes what is
left, even if that is nothing.  A read of a table hands over the batches of its entities, and a read
of several tables those of one table after the other, until the sender refuses one.  What happens to
a sender that is offered batches is said once, by `offer_of_taken` and `offer_of_refused`.
-/

namespace MatchAction

namespace Sender

/-- The sender after calls with the batches, whatever it answers. -/
def handed (sender : Sender) : List (List Entity) → Sender
  | [] => sender
  | batch :: rest => (sender.send batch.toArray).2.handed rest

/-- Calls the sender with the batches in order, until it refuses one. -/
def offer (sender : Sender) : List (List Entity) → Except Error Unit × Sender
  | [] => (.ok (), sender)
  | batch :: rest =>
      match sender.send batch.toArray with
      | (.ok (), sender) => sender.offer rest
      | failed => failed

/-- The batches of all calls, taken or refused. -/
def batches (sender : Sender) : List (List Entity) :=
  sender.calls.toList.map fun call => call.batch.toList

/-- The next calls, as many as given, are taken. -/
def Takes (sender : Sender) (count : Nat) : Prop :=
  ∀ call < count, sender.answer (sender.calls.size + call + 1) = none

@[simp] theorem answer_send (sender : Sender) (batch : Array Entity) :
    (sender.send batch).2.answer = sender.answer := rfl

@[simp] theorem size_calls_send (sender : Sender) (batch : Array Entity) :
    (sender.send batch).2.calls.size = sender.calls.size + 1 :=
  Array.size_push _

@[simp] theorem batches_send (sender : Sender) (batch : List Entity) :
    (sender.send batch.toArray).2.batches = sender.batches ++ [batch] := by
  simp [batches, send]

@[simp] theorem batches_handed (sender : Sender) (offered : List (List Entity)) :
    (sender.handed offered).batches = sender.batches ++ offered := by
  induction offered generalizing sender with
  | nil => exact (List.append_nil _).symm
  | cons batch rest ih =>
      rw [handed, ih, batches_send, List.append_assoc]
      rfl

@[simp] theorem answer_handed (sender : Sender) (offered : List (List Entity)) :
    (sender.handed offered).answer = sender.answer := by
  induction offered generalizing sender with
  | nil => rfl
  | cons batch rest ih => rw [handed, ih, answer_send]

@[simp] theorem size_calls_handed (sender : Sender) (offered : List (List Entity)) :
    (sender.handed offered).calls.size = sender.calls.size + offered.length := by
  induction offered generalizing sender with
  | nil => rfl
  | cons batch rest ih =>
      rw [handed, ih, size_calls_send, List.length_cons]
      omega

theorem send_of_none {sender : Sender} (taken : sender.answer (sender.calls.size + 1) = none)
    (batch : Array Entity) : (sender.send batch).1 = .ok () := by
  rw [send, taken]
  rfl

theorem send_of_some {sender : Sender} {reason : String}
    (refused : sender.answer (sender.calls.size + 1) = some reason) (batch : Array Entity) :
    (sender.send batch).1 = .error (.send reason) := by
  rw [send, refused]
  rfl

theorem offer_cons_of_none {sender : Sender}
    (taken : sender.answer (sender.calls.size + 1) = none) (batch : List Entity)
    (rest : List (List Entity)) :
    sender.offer (batch :: rest) = (sender.send batch.toArray).2.offer rest := by
  have sent : sender.send batch.toArray = (.ok (), (sender.send batch.toArray).2) :=
    Prod.ext (send_of_none taken batch.toArray) rfl
  rw [offer, sent]

theorem offer_cons_of_some {sender : Sender} {reason : String}
    (refused : sender.answer (sender.calls.size + 1) = some reason) (batch : List Entity)
    (rest : List (List Entity)) :
    sender.offer (batch :: rest) = (.error (.send reason), (sender.send batch.toArray).2) := by
  have sent : sender.send batch.toArray = (.error (.send reason), (sender.send batch.toArray).2) :=
    Prod.ext (send_of_some refused batch.toArray) rfl
  rw [offer, sent]

theorem offer_singleton (sender : Sender) (batch : List Entity) :
    sender.offer [batch] = sender.send batch.toArray := by
  cases answer : sender.answer (sender.calls.size + 1) with
  | none => exact (offer_cons_of_none answer batch []).trans (Prod.ext (send_of_none answer _).symm rfl)
  | some reason =>
      exact (offer_cons_of_some answer batch []).trans (Prod.ext (send_of_some answer _).symm rfl)

/-- Batches offered after others are offered only if all of those were taken. -/
theorem offer_append (sender : Sender) (first second : List (List Entity)) :
    sender.offer (first ++ second) =
      match sender.offer first with
      | (.ok (), sender) => sender.offer second
      | failed => failed := by
  induction first generalizing sender with
  | nil => rfl
  | cons batch rest ih =>
      rw [List.cons_append]
      cases answer : sender.answer (sender.calls.size + 1) with
      | none => rw [offer_cons_of_none answer, offer_cons_of_none answer, ih]
      | some reason => rw [offer_cons_of_some answer, offer_cons_of_some answer]

theorem takes_succ {sender : Sender} {count : Nat} (batch : Array Entity) :
    sender.Takes (count + 1) ↔
      sender.answer (sender.calls.size + 1) = none ∧ (sender.send batch).2.Takes count := by
  simp only [Takes, answer_send, size_calls_send]
  constructor
  · intro taken
    refine ⟨taken 0 (Nat.succ_pos count), fun call bound => ?_⟩
    have later := taken (call + 1) (Nat.succ_lt_succ bound)
    rwa [show sender.calls.size + (call + 1) + 1 = sender.calls.size + 1 + call + 1 by omega]
      at later
  · rintro ⟨now, later⟩ (_ | call) bound
    · exact now
    · rw [show sender.calls.size + (call + 1) + 1 = sender.calls.size + 1 + call + 1 by omega]
      exact later call (Nat.lt_of_succ_lt_succ bound)

/-- What is handed over and taken is delivered. -/
theorem delivered_handed {sender : Sender} {offered : List (List Entity)}
    (takes : sender.Takes offered.length) :
    (sender.handed offered).delivered = sender.delivered ++ offered := by
  induction offered generalizing sender with
  | nil => exact (List.append_nil _).symm
  | cons batch rest ih =>
      obtain ⟨now, later⟩ := (takes_succ batch.toArray).mp takes
      have taken : (sender.send batch.toArray).2.delivered = sender.delivered ++ [batch] := by
        simp [delivered, send, now]
      rw [handed, ih later, taken, List.append_assoc]
      rfl

theorem Takes.mono {sender : Sender} {count fewer : Nat} (takes : sender.Takes count)
    (le : fewer ≤ count) : sender.Takes fewer :=
  fun call bound => takes call (Nat.lt_of_lt_of_le bound le)

theorem offer_of_taken {sender : Sender} {offered : List (List Entity)}
    (takes : sender.Takes offered.length) : sender.offer offered = (.ok (), sender.handed offered) := by
  induction offered generalizing sender with
  | nil => rfl
  | cons batch rest ih =>
      obtain ⟨now, later⟩ := (takes_succ batch.toArray).mp takes
      rw [offer_cons_of_none now, ih later, handed]

/-- After a refusal nothing more is handed over, and the reason given is the result. -/
theorem offer_of_refused {sender : Sender} {offered : List (List Entity)} {count : Nat}
    {reason : String} (bound : count < offered.length) (takes : sender.Takes count)
    (refused : sender.answer (sender.calls.size + count + 1) = some reason) :
    sender.offer offered = (.error (.send reason), sender.handed (offered.take (count + 1))) := by
  induction offered generalizing sender count with
  | nil => cases bound
  | cons batch rest ih =>
      cases count with
      | zero =>
          rw [offer_cons_of_some refused]
          rfl
      | succ count =>
          obtain ⟨now, later⟩ := (takes_succ batch.toArray).mp takes
          have refusedLater : (sender.send batch.toArray).2.answer
              ((sender.send batch.toArray).2.calls.size + count + 1) = some reason := by
            rw [answer_send, size_calls_send, ← refused]
            congr 1
            omega
          rw [offer_cons_of_none now, ih (Nat.lt_of_succ_lt_succ bound) later refusedLater,
            List.take_succ_cons, handed]

end Sender

namespace Buffer

/-- The batches of a list of entities, for a buffer of the given capacity: as many as there are of
full length, then what is left. -/
def batches (capacity : Nat) (entities : List Entity) : List (List Entity) :=
  (List.range (entities.length / capacity + 1)).map fun index =>
    (entities.drop (index * capacity)).take capacity

variable {capacity : Nat}

@[simp] theorem length_batches (capacity : Nat) (entities : List Entity) :
    (batches capacity entities).length = entities.length / capacity + 1 := by
  rw [batches, List.length_map, List.length_range]

theorem batches_of_short {entities : List Entity} (short : entities.length < capacity) :
    batches capacity entities = [entities] := by
  rw [batches, Nat.div_eq_of_lt short, Nat.zero_add, List.range_one, List.map_singleton,
    Nat.zero_mul, List.drop_zero, List.take_of_length_le (Nat.le_of_lt short)]

theorem batches_append_of_full {front : List Entity} (pos : 0 < capacity)
    (full : front.length = capacity) (rest : List Entity) :
    batches capacity (front ++ rest) = front :: batches capacity rest := by
  have count : (front ++ rest).length / capacity = rest.length / capacity + 1 := by
    rw [List.length_append, full, Nat.add_div_left rest.length pos]
  have later (index : Nat) : (front ++ rest).drop ((index + 1) * capacity) =
      rest.drop (index * capacity) := by
    rw [Nat.succ_mul, Nat.add_comm, ← full, ← List.drop_drop, List.drop_left]
  rw [batches, count, List.range_succ_eq_map, List.map_cons, List.map_map, Nat.zero_mul,
    List.drop_zero, ← full, List.take_left, full]
  refine congrArg (front :: ·) (List.map_congr_left fun index _ => ?_)
  exact congrArg (List.take capacity) (later index)

/-- Nothing is lost, repeated or put out of order. -/
theorem flatten_batches (pos : 0 < capacity) (entities : List Entity) :
    (batches capacity entities).flatten = entities := by
  induction same : entities.length using Nat.strongRecOn generalizing entities with
  | ind size ih =>
      by_cases short : entities.length < capacity
      · rw [batches_of_short short, List.flatten_cons, List.flatten_nil, List.append_nil]
      · have full : (entities.take capacity).length = capacity := by
          rw [List.length_take]
          omega
        have fewer : (entities.drop capacity).length < size := by
          rw [List.length_drop]
          omega
        rw [← List.take_append_drop capacity entities, batches_append_of_full pos full,
          List.flatten_cons, ih _ fewer _ rfl]

theorem length_getElem?_batches {entities : List Entity} {index : Nat}
    (full : index < entities.length / capacity) :
    (batches capacity entities)[index]?.map List.length = some capacity := by
  have inside : index < (batches capacity entities).length := by
    rw [length_batches]
    omega
  have enough : (index + 1) * capacity ≤ entities.length :=
    Nat.le_trans (Nat.mul_le_mul_right capacity full) (Nat.div_mul_le_self _ _)
  rw [Nat.succ_mul] at enough
  rw [List.getElem?_eq_getElem inside, Option.map_some]
  simp only [batches, List.getElem_map, List.getElem_range, List.length_take, List.length_drop]
  refine congrArg some ?_
  omega

theorem length_getLast?_batches (pos : 0 < capacity) (entities : List Entity) :
    (batches capacity entities).getLast?.map List.length = some (entities.length % capacity) := by
  have left := Nat.mod_add_div' entities.length capacity
  have rest := Nat.mod_lt entities.length pos
  rw [batches, List.range_succ, List.map_append, List.map_singleton, List.getLast?_concat,
    Option.map_some, List.length_take, List.length_drop]
  refine congrArg some ?_
  omega

theorem deliver_cons_of_ok {buffer next : Buffer} {entity : Entity}
    (pushed : buffer.push entity = (.ok (), next)) (rest : List Entity) :
    buffer.deliver (entity :: rest) = next.deliver rest := by
  rw [deliver, deliver, pushAll, pushed]

theorem deliver_cons_of_error {buffer next : Buffer} {entity : Entity} {error : Error}
    (pushed : buffer.push entity = (.error error, next)) (rest : List Entity) :
    buffer.deliver (entity :: rest) = (.error error, next) := by
  rw [deliver, pushAll, pushed]

/-- Delivering entities is offering the batches of what is held already and the entities. -/
theorem deliver_eq_offer {buffer : Buffer} (room : buffer.entities.size < buffer.capacity)
    (entities : List Entity) :
    ((buffer.deliver entities).1, (buffer.deliver entities).2.sender) =
      buffer.sender.offer (batches buffer.capacity (buffer.entities.toList ++ entities)) := by
  induction entities generalizing buffer with
  | nil =>
      have short : (buffer.entities.toList ++ []).length < buffer.capacity := by
        rwa [List.append_nil, Array.length_toList]
      rw [batches_of_short short, List.append_nil, deliver, pushAll]
      exact (buffer.sender.offer_singleton buffer.entities.toList).symm
  | cons entity rest ih =>
      have held : (buffer.entities.push entity).toList = buffer.entities.toList ++ [entity] :=
        Array.toList_push
      rw [List.append_cons, ← held]
      by_cases full : buffer.capacity ≤ (buffer.entities.push entity).size
      · have batch : (buffer.entities.push entity).toList.length = buffer.capacity := by
          rw [Array.size_push] at full
          rw [Array.length_toList, Array.size_push]
          omega
        have flushed : buffer.push entity =
            ((buffer.sender.send (buffer.entities.push entity)).1, ⟨buffer.capacity, #[],
              (buffer.sender.send (buffer.entities.push entity)).2⟩) := if_pos full
        have pos : 0 < buffer.capacity := Nat.zero_lt_of_lt room
        rw [batches_append_of_full pos batch]
        cases answer : buffer.sender.answer (buffer.sender.calls.size + 1) with
        | none =>
            rw [Sender.send_of_none answer] at flushed
            rw [deliver_cons_of_ok flushed, ih, Sender.offer_cons_of_none answer]
            · rfl
            · exact pos
        | some reason =>
            rw [Sender.send_of_some answer] at flushed
            rw [deliver_cons_of_error flushed, Sender.offer_cons_of_some answer]
      · have kept : buffer.push entity =
            (.ok (), { buffer with entities := buffer.entities.push entity }) := if_neg full
        rw [deliver_cons_of_ok kept, ih (Nat.lt_of_not_le full)]

end Buffer

namespace Table

/-- The batches of the entities that answer a request. -/
def batches (table : Table) (request : TableEntry) (type : ReadType) : List (List Entity) :=
  Buffer.batches (max table.batchSize 1)
    ((table.answers request).map fun row => row.entity type)

theorem readAmong_eq_offer (table : Table) (keyed : List Row) (request : TableEntry) (type : ReadType)
    (sender : Sender) :
    table.readAmong keyed request type sender =
      sender.offer (Buffer.batches (max table.batchSize 1)
        ((table.answersAmong keyed request).map fun row => row.entity type)) := by
  have room : (Buffer.make table.batchSize sender).entities.size <
      (Buffer.make table.batchSize sender).capacity :=
    Nat.lt_of_lt_of_le Nat.zero_lt_one (Nat.le_max_right table.batchSize 1)
  exact Buffer.deliver_eq_offer room _

theorem read_eq_offer (table : Table) (request : TableEntry) (type : ReadType) (sender : Sender) :
    table.read request type sender = sender.offer (table.batches request type) :=
  table.readAmong_eq_offer table.rows.values request type sender

/-- A read leaves the table as it is. -/
theorem on_reading (table : Table) (request : TableEntry) (type : ReadType) (sender : Sender) :
    (reading request type).on table sender =
      ((table.read request type sender).1, table, (table.read request type sender).2) := by
  rw [reading, Procedure.on_get_bind]
  dsimp only
  rcases table.read request type sender with ⟨_ | _, after⟩ <;> rfl

end Table

namespace Registry

/-- Reads tables one after the other, until one fails. -/
def readEach (request : TableEntry) (type : ReadType) :
    List Table → Sender → Except Error Unit × Sender
  | [], sender => (.ok (), sender)
  | table :: rest, sender =>
      match table.read request type sender with
      | (.ok (), sender) => readEach request type rest sender
      | failed => failed

/-- Tables read one after the other hand over one sequence of batches. -/
theorem readEach_eq_offer (request : TableEntry) (type : ReadType) (tables : List Table)
    (sender : Sender) :
    readEach request type tables sender =
      sender.offer (tables.flatMap fun table => table.batches request type) := by
  induction tables generalizing sender with
  | nil => rfl
  | cons table rest ih =>
      rw [readEach, table.read_eq_offer, List.flatMap_cons, Sender.offer_append]
      rcases sender.offer (table.batches request type) with ⟨_ | _, after⟩
      · rfl
      · exact ih after

/-- A table that is locked and read is left as it is, and so is its registry. -/
theorem on_onTable_reading {registry : Registry} {id : UInt32} {table : Table}
    (known : registry.tables[id]? = some table) (request : TableEntry) (type : ReadType)
    (sender : Sender) :
    (onTable id (Table.reading request type)).on registry sender =
      ((table.read request type sender).1, registry, (table.read request type sender).2) := by
  rw [on_onTable, table_eq_ok.mpr known]
  simp only [table.on_reading, withTable_of_getElem? known]

/-- Locking tables one after the other and reading them is reading them, and leaves them as they
are. -/
theorem on_readTables (registry : Registry) (request : TableEntry) (type : ReadType)
    {ids : List UInt32} {tables : List Table}
    (known : ids.map (fun id => registry.tables[id]?) = tables.map some) (sender : Sender) :
    (readTables request type ids).on registry sender =
      ((readEach request type tables sender).1, registry,
        (readEach request type tables sender).2) := by
  induction ids generalizing tables sender with
  | nil =>
      cases List.map_eq_nil_iff.mp known.symm
      rfl
  | cons id rest ih =>
      obtain ⟨table, later, rfl, first, knownLater⟩ := List.map_eq_cons_iff.mp known.symm
      have locked := on_onTable_reading first.symm request type sender
      have unfolded : readTables request type (id :: rest) =
          (onTable id (Table.reading request type) >>= fun _ => readTables request type rest) := rfl
      rw [unfolded, Procedure.on_bind, locked, readEach]
      rcases table.read request type sender with ⟨_ | _, after⟩
      · rfl
      · exact ih knownLater.symm after

/-- A read leaves the registry as it is.  It is a read of the table that is named, or of every table in
turn. -/
theorem on_reading (registry : Registry) (request : TableEntry) (type : ReadType) (sender : Sender) :
    (reading request type).on registry sender =
      let (result, after) :=
        if request.tableId = 0 then readEach request type registry.tables.values sender
        else
          match registry.table request.tableId with
          | .ok table => table.read request type sender
          | .error error => (.error error, sender)
      (result, registry, after) := by
  by_cases wildcard : request.tableId = 0
  · have unfolded : (reading request type).on registry sender =
        (readTables request type registry.ids).on registry sender := by
      simp only [reading, wildcard]
      rfl
    have known : registry.ids.map (fun id => registry.tables[id]?) =
        registry.tables.values.map some := Maps.map_getElem?_keys registry.tables
    rw [unfolded, on_readTables registry request type known, if_pos wildcard]
  · simp only [reading, if_neg wildcard]
    cases found : registry.table request.tableId with
    | error error =>
        rw [on_onTable, found]
    | ok table => exact on_onTable_reading (table_eq_ok.mp found) request type sender

theorem read_eq (registry : Registry) (request : TableEntry) (type : ReadType) (sender : Sender) :
    registry.read request type sender =
      if request.tableId = 0 then readEach request type registry.tables.values sender
      else
        match registry.table request.tableId with
        | .ok table => table.read request type sender
        | .error error => (.error error, sender) := by
  rw [read, on_reading]

end Registry

end MatchAction
