import MatchAction.Proofs.Batching
import MatchAction.Proofs.Effect
import MatchAction.Proofs.Maps

/-!
# Delivery

A sender that takes every batch is handed, over all the batches of a read, exactly the entities that
answer the request, in their order.  How they are divided into batches does not matter here.  Whatever
the sender takes, a read depends only on the entities that it would deliver of the rows.
-/

namespace MatchAction

theorem flatten_flatMap {α β : Type} (image : α → List (List β)) (elements : List α) :
    (elements.flatMap image).flatten = elements.flatMap fun element => (image element).flatten := by
  rw [List.flatMap, List.flatten_flatten, List.map_map]
  rfl

namespace Sender

/-- The sender takes every batch. -/
def Willing (sender : Sender) : Prop := ∀ call, sender.answer call = none

/-- The sender after it took the entities, and no others, in any number of batches. -/
structure Took (before : Sender) (entities : List Entity) (after : Sender) : Prop where
  answer : after.answer = before.answer
  delivered : after.delivered.flatten = before.delivered.flatten ++ entities

@[simp] theorem delivered_fresh (answer : Nat → Option String) :
    (fresh answer).delivered = [] := rfl

theorem willing_willing : willing.Willing := fun _ => rfl

theorem Willing.takes {sender : Sender} (willing : sender.Willing) (count : Nat) :
    sender.Takes count := fun _ _ => willing _

theorem offer_of_willing {sender : Sender} (willing : sender.Willing)
    (offered : List (List Entity)) :
    (sender.offer offered).1 = .ok () ∧ sender.Took offered.flatten (sender.offer offered).2 := by
  rw [offer_of_taken (willing.takes offered.length)]
  refine ⟨rfl, answer_handed sender offered, ?_⟩
  rw [delivered_handed (willing.takes offered.length), List.flatten_append]

end Sender

@[simp] theorem Row.owner_entity (row : Row) (type : ReadType) :
    (row.entity type).owner = some row.entry := by
  cases type <;> rfl

namespace Table

/-- If the matcher lets every entry through, all rows answer, that of the default action last. -/
theorem answers_of_all {table : Table} (matchesAll : table.matcher = Matcher.all)
    (request : TableEntry) :
    table.answers request = table.rows.values ++ table.defaultRow.toList := by
  have unfiltered : (table.rows.values.filter fun row => table.matcher request row.entry) =
      table.rows.values := by
    rw [matchesAll]
    exact List.filter_eq_self.mpr fun _ _ => rfl
  rw [answers, answersAmong, unfiltered]

/-- What a read of the given type delivers for a request, if nothing is refused. -/
def listing (table : Table) (request : TableEntry) (type : ReadType) : List Entity :=
  (table.answers request).map fun row => row.entity type

/-- A matcher that lets every entry through makes of a read a list of all rows. -/
theorem listing_of_all {table : Table} (matchesAll : table.matcher = Matcher.all)
    (request : TableEntry) (type : ReadType) : table.listing request type =
      (table.rows.values ++ table.defaultRow.toList).map fun row => row.entity type := by
  rw [listing, answers_of_all matchesAll]

theorem listing_entries_of_all {table : Table} (matchesAll : table.matcher = Matcher.all)
    (request : TableEntry) :
    table.listing request .tableEntry = table.entries.map Entity.tableEntry := by
  rw [listing_of_all matchesAll, entries, List.map_map]
  rfl

@[simp] theorem flatten_batches (table : Table) (request : TableEntry) (type : ReadType) :
    (table.batches request type).flatten = table.listing request type :=
  Buffer.flatten_batches (Nat.lt_of_lt_of_le Nat.zero_lt_one (Nat.le_max_right _ 1)) _

/-- The listing tells of every row no more than the entity that is read of it. -/
theorem listing_eq (table : Table) (request : TableEntry) (type : ReadType) :
    table.listing request type =
      ((table.rows.values.map fun row => row.entity type).filter fun entity =>
        entity.owner.any (table.matcher request)) ++
      (table.defaultRow.map fun row => row.entity type).toList := by
  rw [listing, answers, answersAmong, List.map_append, List.filter_map, Option.toList_map]
  simp only [Function.comp_def, Row.owner_entity, Option.any_some]

theorem batches_congr {first second : Table} {type : ReadType}
    (batchSize : first.batchSize = second.batchSize) (matcher : first.matcher = second.matcher)
    (entities : ∀ place, (first.row place).map (fun row => row.entity type) =
      (second.row place).map fun row => row.entity type) (request : TableEntry) :
    first.batches request type = second.batches request type := by
  have keyed : (first.rows.values.map fun row => row.entity type) =
      second.rows.values.map fun row => row.entity type :=
    Maps.map_values_congr (fun row : Row => row.entity type) fun key => entities (.keyed key)
  have default : first.defaultRow.map (fun row => row.entity type) =
      second.defaultRow.map fun row => row.entity type := entities .default
  have listed : first.listing request type = second.listing request type := by
    rw [listing_eq, listing_eq, keyed, default, matcher]
  rw [batches, batches, batchSize]
  exact congrArg (Buffer.batches (max second.batchSize 1)) listed

theorem exists_answer_of_mem_batches {table : Table} {request : TableEntry} {type : ReadType}
    {batch : List Entity} (inside : batch ∈ table.batches request type) {entity : Entity}
    (among : entity ∈ batch) : ∃ row ∈ table.answers request, entity = row.entity type := by
  have listed : entity ∈ table.listing request type := by
    rw [← flatten_batches]
    exact List.mem_flatten_of_mem inside among
  obtain ⟨row, answered, same⟩ := List.mem_map.mp listed
  exact ⟨row, answered, same.symm⟩

theorem read_of_willing (table : Table) (request : TableEntry) (type : ReadType) {sender : Sender}
    (willing : sender.Willing) :
    (table.read request type sender).1 = .ok () ∧
      sender.Took (table.listing request type) (table.read request type sender).2 := by
  rw [read_eq_offer, ← flatten_batches]
  exact Sender.offer_of_willing willing (table.batches request type)

end Table

namespace Registry

theorem flatten_batches (tables : List Table) (request : TableEntry) (type : ReadType) :
    (tables.flatMap fun table => table.batches request type).flatten =
      tables.flatMap fun table => table.listing request type := by
  simp only [flatten_flatMap, Table.flatten_batches]

/-- The tables whose rows a request asks for: every table if its table id is zero. -/
def asked (registry : Registry) (request : TableEntry) : Except Error (List Table) :=
  if request.tableId = 0 then .ok registry.tables.values
  else (registry.table request.tableId).map fun table => [table]

/-- A read offers the batches of the tables that are asked, one table's after the other's. -/
theorem read_eq_offer (registry : Registry) (request : TableEntry) (type : ReadType)
    (sender : Sender) :
    registry.read request type sender =
      match registry.asked request with
      | .error error => (.error error, sender)
      | .ok tables => sender.offer (tables.flatMap fun table => table.batches request type) := by
  rw [read_eq, asked]
  split
  · exact readEach_eq_offer request type registry.tables.values sender
  · cases registry.table request.tableId with
    | error error => rfl
    | ok table =>
        simp only [Except.map, List.flatMap_singleton]
        exact table.read_eq_offer request type sender

/-- A willing sender gets the listings of the tables that are asked, in the order of the tables. -/
theorem read_of_willing {registry : Registry} {request : TableEntry} {tables : List Table}
    (asked : registry.asked request = .ok tables) (type : ReadType) {sender : Sender}
    (willing : sender.Willing) :
    (registry.read request type sender).1 = .ok () ∧
      sender.Took (tables.flatMap fun table => table.listing request type)
        (registry.read request type sender).2 := by
  rw [read_eq_offer, asked, ← flatten_batches]
  exact Sender.offer_of_willing willing _

theorem read_of_not_asked {registry : Registry} {request : TableEntry} {error : Error}
    (refused : registry.asked request = .error error) (type : ReadType) (sender : Sender) :
    registry.read request type sender = (.error error, sender) := by
  rw [read_eq_offer, refused]

/-- A read depends on what the registry is besides its rows, and of each row on the entity that is
read of it. -/
theorem read_congr {first second : Registry} {type : ReadType}
    (cleared : first.cleared = second.cleared)
    (entities : ∀ slot, (first.row slot).map (fun row => row.entity type) =
      (second.row slot).map fun row => row.entity type) (request : TableEntry) (sender : Sender) :
    first.read request type sender = second.read request type sender := by
  have batches (id : UInt32) : first.tables[id]?.map (fun table => table.batches request type) =
      second.tables[id]?.map fun table => table.batches request type := by
    have clearedAt := congrArg (fun registry => registry.tables[id]?) cleared
    simp only [getElem?_cleared] at clearedAt
    cases known : first.tables[id]? with
    | none =>
        rw [known] at clearedAt
        rw [Option.map_eq_none_iff.mp clearedAt.symm]
    | some table =>
        obtain ⟨table', known', -, batchSize, matcher⟩ := getElem?_of_cleared cleared known
        rw [known']
        refine congrArg some (Table.batches_congr batchSize.symm matcher.symm (fun place => ?_) request)
        rw [← row_of_getElem? known, ← row_of_getElem? known']
        exact entities ⟨id, place⟩
  by_cases wildcard : request.tableId = 0
  · rw [read_eq_offer, read_eq_offer, asked, asked, if_pos wildcard, if_pos wildcard]
    simp only [List.flatMap_def, Maps.map_values_congr _ batches]
  · have named := batches request.tableId
    rw [read_eq_offer, read_eq_offer, asked, asked, if_neg wildcard, if_neg wildcard, table_eq,
      table_eq]
    cases known : first.tables[request.tableId]? with
    | none =>
        rw [known] at named
        rw [Option.map_eq_none_iff.mp named.symm]
    | some table =>
        rw [known] at named
        obtain ⟨table', known', same⟩ := Option.map_eq_some_iff.mp named.symm
        simp only [known', Option.elim, Except.map, List.flatMap_singleton, same]

end Registry

end MatchAction
