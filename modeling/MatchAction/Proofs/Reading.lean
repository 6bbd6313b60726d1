import Mathlib.Algebra.Ring.Nat
import MatchAction.Proofs.Delivery
import MatchAction.Proofs.Maps
import MatchAction.Proofs.Reachability

/-!
# Reading

What a read makes of a sender, whatever the sender answers.  The entities of a table are divided into
batches, and these are offered until one is refused.  Several tables are read as if their batches were
those of one, so the first refusal ends the read of all of them.  The order of the tables does not
change what they deliver as a whole if nothing is refused.
-/

namespace MatchAction

namespace Buffer

/-- The batches hold the entities in order.  They are as long as the capacity, but for the last one,
which holds what is left. -/
structure Divides (capacity : Nat) (entities : List Entity) (batches : List (List Entity)) :
    Prop where
  flatten : batches.flatten = entities
  length : batches.length = entities.length / capacity + 1
  full : ∀ index < entities.length / capacity, batches[index]?.map List.length = some capacity
  last : batches.getLast?.map List.length = some (entities.length % capacity)

theorem divides_batches {capacity : Nat} (pos : 0 < capacity) (entities : List Entity) :
    Divides capacity entities (batches capacity entities) where
  flatten := flatten_batches pos entities
  length := length_batches capacity entities
  full := fun _ full => length_getElem?_batches full
  last := length_getLast?_batches pos entities

/-- If the capacity divides the number of entities, the last batch is empty. -/
example (entity : Entity) :
    (batches 2 [entity, entity, entity, entity]).map List.length = [2, 2, 0] := by cbv

end Buffer

namespace Sender

/-- What comes of offering batches to a sender.  If it takes them, all are handed over; else the first
that it refuses is the last, and its reason is the result. -/
structure Offered (sender : Sender) (batches : List (List Entity)) (result : Except Error Unit)
    (after : Sender) : Prop where
  taken : sender.Takes batches.length →
    result = .ok () ∧ after.batches = sender.batches ++ batches
  refused : ∀ earlier < batches.length, ∀ reason, sender.Takes earlier →
    sender.answer (sender.calls.size + earlier + 1) = some reason →
      result = .error (.send reason) ∧
        after.batches = sender.batches ++ batches.take (earlier + 1)

theorem offered_offer (sender : Sender) (batches : List (List Entity)) :
    sender.Offered batches (sender.offer batches).1 (sender.offer batches).2 := by
  constructor
  · intro takes
    rw [offer_of_taken takes]
    exact ⟨rfl, batches_handed sender batches⟩
  · intro earlier bound reason takes refused
    rw [offer_of_refused bound takes refused]
    exact ⟨rfl, batches_handed sender _⟩

/-- A sender takes all of its next calls, or there is a first one that it refuses. -/
theorem takes_or_refused (sender : Sender) (count : Nat) :
    sender.Takes count ∨ ∃ earlier < count, sender.Takes earlier ∧
      ∃ reason, sender.answer (sender.calls.size + earlier + 1) = some reason := by
  induction count with
  | zero => exact .inl fun call bound => absurd bound (Nat.not_lt_zero call)
  | succ count ih =>
      rcases ih with takes | ⟨earlier, bound, first⟩
      · cases answer : sender.answer (sender.calls.size + count + 1) with
        | none =>
            refine .inl fun call bound => ?_
            rcases Nat.lt_succ_iff_lt_or_eq.mp bound with before | rfl
            · exact takes call before
            · exact answer
        | some reason => exact .inr ⟨count, Nat.lt_succ_self count, takes, reason, answer⟩
      · exact .inr ⟨earlier, Nat.lt_succ_of_lt bound, first⟩

/-- Either all batches are taken, or the first that is refused ends the offer. -/
theorem offer_cases (sender : Sender) (offered : List (List Entity)) :
    (sender.Takes offered.length ∧ sender.offer offered = (.ok (), sender.handed offered)) ∨
    ∃ earlier < offered.length, ∃ reason, sender.Takes earlier ∧
      sender.answer (sender.calls.size + earlier + 1) = some reason ∧
      sender.offer offered = (.error (.send reason), sender.handed (offered.take (earlier + 1))) := by
  rcases sender.takes_or_refused offered.length with takes | ⟨earlier, bound, takes, reason, refused⟩
  · exact .inl ⟨takes, offer_of_taken takes⟩
  · exact .inr ⟨earlier, bound, reason, takes, refused, offer_of_refused bound takes refused⟩

theorem offer_of_ok {sender : Sender} {offered : List (List Entity)}
    (ok : (sender.offer offered).1 = .ok ()) :
    sender.Takes offered.length ∧ (sender.offer offered).2 = sender.handed offered := by
  rcases sender.offer_cases offered with ⟨takes, same⟩ | ⟨_, _, _, _, _, same⟩
  · exact ⟨takes, congrArg Prod.snd same⟩
  · rw [same] at ok
    cases ok

/-- Nothing is handed over but what is offered. -/
theorem mem_batches_offer {sender : Sender} {offered : List (List Entity)} {batch : List Entity}
    (handedOver : batch ∈ (sender.offer offered).2.batches) :
    batch ∈ sender.batches ∨ batch ∈ offered := by
  rcases sender.offer_cases offered with ⟨_, same⟩ | ⟨_, _, _, _, _, same⟩
  · rw [same, batches_handed, List.mem_append] at handedOver
    exact handedOver
  · rw [same, batches_handed, List.mem_append] at handedOver
    exact handedOver.imp_right List.mem_of_mem_take

theorem refusals_handed (sender : Sender) (offered : List (List Entity)) :
    (sender.handed offered).calls.toList.map Call.refusal =
      sender.calls.toList.map Call.refusal ++ (List.range offered.length).map fun call =>
        sender.answer (sender.calls.size + call + 1) := by
  induction offered generalizing sender with
  | nil => exact (List.append_nil _).symm
  | cons batch rest ih =>
      have next (call : Nat) : sender.calls.size + 1 + call + 1 =
          sender.calls.size + (call + 1) + 1 := by omega
      rw [handed, ih, List.length_cons, List.range_succ_eq_map, List.map_cons, List.map_map]
      simp only [answer_send, size_calls_send, next]
      rw [send, Array.toList_push, List.map_append, List.append_assoc]
      rfl

/-- Offering batches succeeds exactly if no call that it makes is refused. -/
theorem offer_eq_ok_iff (answer : Nat → Option String) (offered : List (List Entity)) :
    ((fresh answer).offer offered).1 = .ok () ↔
      ∀ call ∈ ((fresh answer).offer offered).2.calls.toList, call.refusal = none := by
  rcases (fresh answer).offer_cases offered with
    ⟨takes, same⟩ | ⟨earlier, bound, reason, takes, refused, same⟩
  · rw [same]
    refine iff_of_true rfl fun call made => ?_
    have among := List.mem_map_of_mem (f := Call.refusal) made
    rw [refusals_handed] at among
    obtain ⟨position, inside, same⟩ := List.mem_map.mp among
    rw [← same]
    exact takes position (List.mem_range.mp inside)
  · -- The call that was refused is among those that were made, as the last of them.
    rw [same]
    refine iff_of_false nofun fun unrefused => ?_
    have among : some reason ∈ ((fresh answer).handed (offered.take (earlier + 1))).calls.toList.map
        Call.refusal := by
      rw [refusals_handed, List.length_take_of_le bound]
      exact List.mem_map.mpr ⟨earlier, List.mem_range.mpr (Nat.lt_succ_self earlier), refused⟩
    obtain ⟨call, made, same⟩ := List.mem_map.mp among
    rw [unrefused call made] at same
    cases same

/-- What follows a batch that is refused does not matter. -/
theorem offer_append_of_refused {sender : Sender} {first : List (List Entity)} {earlier : Nat}
    {reason : String} (bound : earlier < first.length) (takes : sender.Takes earlier)
    (refused : sender.answer (sender.calls.size + earlier + 1) = some reason)
    (second : List (List Entity)) : sender.offer (first ++ second) = sender.offer first := by
  have boundBoth : earlier < (first ++ second).length := by
    rw [List.length_append]
    omega
  rw [offer_of_refused boundBoth takes refused, offer_of_refused bound takes refused,
    List.take_append_of_le_length bound]

end Sender

/-- A position in what several elements give lies in what one of them gives. -/
theorem exists_split_of_lt_length_flatMap {α β : Type} {image : α → List β} {elements : List α}
    {index : Nat} (bound : index < (elements.flatMap image).length) :
    ∃ before element later, elements = before ++ element :: later ∧
      (before.flatMap image).length ≤ index ∧
      index < ((before ++ [element]).flatMap image).length := by
  induction elements generalizing index with
  | nil => cases bound
  | cons first rest ih =>
      by_cases here : index < (image first).length
      · refine ⟨[], first, rest, rfl, Nat.zero_le index, ?_⟩
        rwa [List.nil_append, List.flatMap_singleton]
      · -- Further on, the position is counted from the end of what `first` gives.
        rw [List.flatMap_cons, List.length_append] at bound
        obtain ⟨before, element, later, rfl, low, high⟩ :=
          @ih (index - (image first).length) (by omega)
        refine ⟨first :: before, element, later, rfl, ?_, ?_⟩
        · rw [List.flatMap_cons, List.length_append]
          omega
        · rw [List.cons_append, List.flatMap_cons, List.length_append]
          omega

namespace Table

/-- A table hands over the entities of the keyed rows that its matcher accepts, in whatever order the
rows come, and last that of the default action, divided into batches, up to the first batch that is
refused.  Which entities these are does not depend on the order.  Neither the table nor the registry that
it belongs to is changed by a read. -/
theorem read_delivers_batches (table : Table) (request : TableEntry) (type : ReadType)
    {keyed : List Row} (enumerated : keyed.Perm table.rows.values) (sender : Sender) :
    let rows := (keyed.filter fun row => table.matcher request row.entry) ++
      table.defaultRow.toList
    let entities := rows.map fun row => row.entity type
    let batches := Buffer.batches (max table.batchSize 1) entities
    let outcome := table.readAmong keyed request type sender
    Buffer.Divides (max table.batchSize 1) entities batches ∧
    sender.Offered batches outcome.1 outcome.2 ∧
    entities.Perm (table.listing request type) ∧
    (reading request type).on table sender =
      ((table.read request type sender).1, table, (table.read request type sender).2) ∧
    ∀ registry : Registry, request.tableId ≠ 0 → registry.tables[request.tableId]? = some table →
      ∀ answer, registry.perform (.read request type answer) =
        (⟨(table.read request type (.fresh answer)).1,
          (table.read request type (.fresh answer)).2.calls.toList⟩, registry) := by
  intro rows entities batches outcome
  refine ⟨?_, ?_, ?_, table.on_reading request type sender, fun registry named known answer => ?_⟩
  · apply Buffer.divides_batches
    exact Nat.lt_of_lt_of_le Nat.zero_lt_one (Nat.le_max_right _ 1)
  · have same : outcome = sender.offer batches :=
      table.readAmong_eq_offer keyed request type sender
    rw [same]
    exact sender.offered_offer batches
  · have accepted := enumerated.filter fun row => table.matcher request row.entry
    exact (accepted.append_right table.defaultRow.toList).map _
  · rw [Registry.perform_read, Registry.read_eq, if_neg named, Registry.table_eq_ok.mpr known]

/-- Two hosts and a default action, read one entity at a time. -/
def pairOfHosts : Table :=
  let inserted := ((make accessList 1).perform (.mutate (.modifyEntry (host 1) true))).after
  let both := (inserted.perform (.mutate (.modifyEntry (host 2) true))).after
  (both.perform (.mutate (.modifyEntry { anyHost with isDefaultAction := true } false))).after

/-- The hosts are read in the opposite order.  The second of them is refused, so that the default action
is not even offered. -/
theorem second_host_refused :
    let answer (call : Nat) := if call = 2 then some "full" else none
    let keyed := pairOfHosts.rows.values.reverse
    let outcome := pairOfHosts.readAmong keyed .empty .tableEntry (.fresh answer)
    outcome.1 = .error (.send "full") ∧ outcome.2.batches =
      keyed.map fun row => [.tableEntry row.entry] := by
  intro answer keyed outcome
  have takes : (Sender.fresh answer).Takes 1 := by
    intro call bound
    rw [Nat.lt_one_iff.mp bound]
    rfl
  obtain ⟨-, offered, -⟩ := pairOfHosts.read_delivers_batches .empty .tableEntry
    (List.reverse_perm pairOfHosts.rows.values) (.fresh answer)
  obtain ⟨failed, handedOver⟩ := offered.refused 1 (by decide +kernel) "full" takes rfl
  refine ⟨failed, handedOver.trans ?_⟩
  decide +kernel

/-- What the table itself hands over, if it is read and nothing is refused. -/
theorem read_willing (table : Table) (request : TableEntry) (type : ReadType) :
    (table.read request type .willing).2 = Sender.willing.handed (table.batches request type) := by
  rw [read_eq_offer, Sender.offer_of_taken (Sender.willing_willing.takes _)]

theorem batches_read_willing (table : Table) (request : TableEntry) (type : ReadType) :
    (table.read request type .willing).2.batches = table.batches request type := by
  rw [read_willing, Sender.batches_handed]
  rfl

theorem delivered_read_willing (table : Table) (request : TableEntry) (type : ReadType) :
    (table.read request type .willing).2.delivered = table.batches request type := by
  rw [read_willing, Sender.delivered_handed (Sender.willing_willing.takes _)]
  rfl

end Table

namespace Registry

/-- What comes of reading tables in an order, with a sender that answers as given, is what comes of
reading each of them by itself with a sender that refuses nothing. -/
structure ReadInTurn (request : TableEntry) (type : ReadType) (capacity : Nat) (order : List Table)
    (answer : Nat → Option String) (outcome : Except Error Unit × Sender) : Prop where
  /-- The batches are those of the tables one after the other, up to the first that is refused. -/
  offered : (Sender.fresh answer).Offered
    (order.flatMap fun table => (table.read request type .willing).2.batches) outcome.1 outcome.2
  ok_iff : outcome.1 = .ok () ↔ ∀ call ∈ outcome.2.calls.toList, call.refusal = none
  /-- No batch mixes the entities of two tables. -/
  unmixed : ∀ batch ∈ outcome.2.batches, ∃ table ∈ order,
    ∀ entity ∈ batch, ∃ row ∈ table.answers request, entity = row.entity type
  /-- A read that fails does so at some table, and it does not matter which tables stand after it. -/
  unread : outcome.1 ≠ .ok () → ∃ before table later, order = before ++ table :: later ∧
    (readEach request type before (.fresh answer)).1 = .ok () ∧
    ∀ others, readEach request type (before ++ table :: others) (.fresh answer) = outcome
  counted : outcome.1 = .ok () → outcome.2.calls.size =
    (order.map fun table => (table.answers request).length / capacity + 1).sum
  delivered : outcome.1 = .ok () → outcome.2.delivered =
    order.flatMap fun table => (table.read request type .willing).2.delivered

variable {request : TableEntry} {type : ReadType} {order : List Table} {answer : Nat → Option String}

/-- What stands after the table at which a read fails is not read. -/
theorem exists_failing_table (failed : (readEach request type order (.fresh answer)).1 ≠ .ok ()) :
    ∃ before table later, order = before ++ table :: later ∧
      (readEach request type before (.fresh answer)).1 = .ok () ∧
      ∀ others, readEach request type (before ++ table :: others) (.fresh answer) =
        readEach request type order (.fresh answer) := by
  rw [readEach_eq_offer] at failed
  rcases (Sender.fresh answer).offer_cases (order.flatMap fun table => table.batches request type)
    with ⟨_, same⟩ | ⟨earlier, bound, reason, takes, refused, _⟩
  · rw [same] at failed
    exact absurd rfl failed
  · obtain ⟨before, table, later, rfl, low, high⟩ := exists_split_of_lt_length_flatMap bound
    refine ⟨before, table, later, rfl, ?_, fun others => ?_⟩
    · rw [readEach_eq_offer, Sender.offer_of_taken (takes.mono low)]
    · -- The refusal lies among the batches up to `table`, so the rest is never offered.
      have upTo (rest : List Table) :
          readEach request type (before ++ table :: rest) (.fresh answer) =
            (Sender.fresh answer).offer
              ((before ++ [table]).flatMap fun table => table.batches request type) := by
        rw [readEach_eq_offer, List.append_cons, List.flatMap_append,
          Sender.offer_append_of_refused high takes refused]
      rw [upTo others, upTo later]

theorem readInTurn {capacity : Nat} (sized : ∀ table ∈ order, max table.batchSize 1 = capacity)
    (type : ReadType) (answer : Nat → Option String) :
    ReadInTurn request type capacity order answer (readEach request type order (.fresh answer)) where
  offered := by
    simp only [Table.batches_read_willing]
    rw [readEach_eq_offer]
    exact Sender.offered_offer _ _
  ok_iff := by
    rw [readEach_eq_offer]
    exact Sender.offer_eq_ok_iff answer _
  unmixed := by
    intro batch handedOver
    rw [readEach_eq_offer] at handedOver
    rcases Sender.mem_batches_offer handedOver with before | offered
    · cases before
    · obtain ⟨table, inside, own⟩ := List.mem_flatMap.mp offered
      exact ⟨table, inside, fun entity => Table.exists_answer_of_mem_batches own⟩
  unread := exists_failing_table
  counted := by
    intro ok
    rw [readEach_eq_offer] at ok ⊢
    have sameLength : ∀ table ∈ order, (table.batches request type).length =
        (table.answers request).length / capacity + 1 := by
      intro table inside
      rw [Table.batches, Buffer.length_batches, List.length_map, sized table inside]
    rw [(Sender.offer_of_ok ok).2, Sender.size_calls_handed, List.length_flatMap,
      List.map_congr_left sameLength]
    exact Nat.zero_add _
  delivered := by
    intro ok
    simp only [Table.delivered_read_willing]
    rw [readEach_eq_offer] at ok ⊢
    obtain ⟨takes, same⟩ := Sender.offer_of_ok ok
    rw [same, Sender.delivered_handed takes]
    rfl

/-- A read of every table of a registry, in whatever order they come, is a read of each of them in
turn.  If it succeeds, what it delivers as a whole and in how many calls does not depend on the order.
The tables are locked one after the other and left as they are. -/
theorem wildcard_read_in_turn {schemas : List TableSchema} {config : Config} {registry : Registry}
    (reachable : registry.Reachable schemas config) {request : TableEntry}
    (wildcard : request.tableId = 0) (type : ReadType) {order : List Table}
    (enumerated : order.Perm registry.tables.values) (answer : Nat → Option String) :
    let capacity := max config.readBatchSize.toNat 1
    let outcome := readEach request type order (.fresh answer)
    ReadInTurn request type capacity order answer outcome ∧
    (outcome.1 = .ok () →
      outcome.2.calls.size = (registry.tables.values.map fun table =>
        (table.answers request).length / capacity + 1).sum ∧
      outcome.2.delivered.flatten.Perm (registry.tables.values.flatMap fun table =>
        (table.read request type .willing).2.delivered.flatten)) ∧
    registry.perform (.read request type answer) =
      (⟨(readEach request type registry.tables.values (.fresh answer)).1,
        (readEach request type registry.tables.values (.fresh answer)).2.calls.toList⟩,
        registry) ∧
    ∀ ids : List UInt32, ids.map (fun id => registry.tables[id]?) = order.map some →
      (readTables request type ids).on registry (.fresh answer) =
        (outcome.1, registry, outcome.2) := by
  intro capacity outcome
  have sized : ∀ table ∈ order, max table.batchSize 1 = capacity := by
    intro table inside
    obtain ⟨id, known⟩ := Maps.mem_values.mp (enumerated.mem_iff.mp inside)
    obtain ⟨schema, -, -, reachable⟩ := reachable.table known
    rw [reachable.batchSize_eq]
  have inTurn : ReadInTurn request type capacity order answer outcome :=
    readInTurn sized type answer
  refine ⟨inTurn, fun ok => ⟨?_, ?_⟩, ?_, fun ids known => ?_⟩
  · rw [inTurn.counted ok]
    exact (enumerated.map _).sum_nat
  · rw [inTurn.delivered ok, flatten_flatMap]
    exact enumerated.flatMap_right _
  · rw [perform_read, read_eq, if_pos wildcard]
  · exact on_readTables registry request type known (.fresh answer)

/-- Two tables that are read one entity at a time, the first of them with an entry for every host. -/
def twoTables : Registry :=
  ((make [accessList, .make 9 "routes" []] ⟨1⟩).1.perform (.mutate (.modifyEntry anyHost true))).2

/-- The second table is read first and has nothing to send.  The only entity of the first table is
refused, and what is left, nothing, is not handed over. -/
theorem only_entity_refused :
    let answer (call : Nat) := if call = 2 then some "full" else none
    let outcome := readEach .empty .tableEntry twoTables.tables.values.reverse (.fresh answer)
    outcome.1 = .error (.send "full") ∧ outcome.2.batches = [[], [.tableEntry anyHost]] := by
  intro answer outcome
  have reachable : twoTables.Reachable [accessList, .make 9 "routes" []] ⟨1⟩ :=
    Reachable.made.performed (.mutate (.modifyEntry anyHost true))
  have wildcard : TableEntry.empty.tableId = 0 := rfl
  have takes : (Sender.fresh answer).Takes 1 := by
    intro call bound
    rw [Nat.lt_one_iff.mp bound]
    rfl
  obtain ⟨inTurn, -, -⟩ :=
    wildcard_read_in_turn reachable wildcard .tableEntry (List.reverse_perm _) answer
  obtain ⟨failed, handedOver⟩ := inTurn.offered.refused 1 (by decide +kernel) "full" takes rfl
  refine ⟨failed, handedOver.trans ?_⟩
  decide +kernel

end Registry

end MatchAction
