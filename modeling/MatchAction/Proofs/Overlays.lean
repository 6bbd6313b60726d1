import MatchAction.Proofs.Delivery
import MatchAction.Proofs.Maps
import MatchAction.Proofs.Reachability

/-!
# Overlays

Counter data, a meter configuration and meter counter data that come with an entry are laid over its
row, where reads of direct resources find them.  What such a read returns for a row is said here by the
place of the row, since of the entities of one read at most one belongs to a place.  Of the overlays
that a modification supplies, the row of a default action takes all three.  A keyed row takes counter
data and the meter configuration, but keeps the meter counter data that it has.
-/

namespace MatchAction

/-- Of elements with different images just one has the image of a given one. -/
theorem filter_eq_singleton {α β : Type} [DecidableEq β] {image : α → β} {elements : List α}
    (distinct : elements.Pairwise fun first second => image first ≠ image second) {element : α}
    (inside : element ∈ elements) :
    (elements.filter fun other => image other = image element) = [element] := by
  induction elements with
  | nil => cases inside
  | cons first rest ih =>
      obtain ⟨apart, distinctRest⟩ := List.pairwise_cons.mp distinct
      rcases List.mem_cons.mp inside with rfl | later
      · have none : (rest.filter fun other => image other = image element) = [] := by
          refine List.filter_eq_nil_iff.mpr fun other among => ?_
          rw [decide_eq_true_eq]
          exact (apart other among).symm
        rw [List.filter_cons, if_pos (decide_eq_true rfl), none]
      · rw [List.filter_cons_of_neg, ih distinctRest later]
        rw [decide_eq_true_eq]
        exact apart element later

namespace Table

variable {table next : Table} {request : TableEntry} {place : Place} {row : Row} {type : ReadType}

/-- A request is answered by the rows that the matcher accepts, and by that of the default action. -/
theorem mem_answers :
    row ∈ table.answers request ↔ ∃ place, table.row place = some row ∧
      (place = .default ∨ table.matcher request row.entry = true) := by
  rw [answers, answersAmong, List.mem_append, List.mem_filter, Maps.mem_values, Option.mem_toList]
  constructor
  · rintro (⟨⟨key, held⟩, accepted⟩ | held)
    · exact ⟨.keyed key, held, .inr accepted⟩
    · exact ⟨.default, held, .inl rfl⟩
  · rintro ⟨place | _, held, isDefault | accepted⟩
    · cases isDefault
    · exact .inl ⟨⟨_, held⟩, accepted⟩
    · exact .inr held
    · exact .inr held

theorem OwnPlaces.distinct_values (own : table.OwnPlaces) :
    table.rows.values.Pairwise fun first second =>
      table.placeOf first.entry ≠ table.placeOf second.entry := by
  have keyed (pair : Key × Row) (inside : pair ∈ table.rows.toList) :
      table.placeOf pair.2.entry = .ok (.keyed pair.1) :=
    own (.keyed pair.1) pair.2 (Std.ExtTreeMap.mem_toList_iff_getElem?_eq_some.mp inside)
  rw [Maps.values_eq_map_toList, List.pairwise_map]
  refine Std.ExtTreeMap.distinct_keys_toList.imp_of_mem fun {first second} one two differ => ?_
  rw [keyed first one, keyed second two]
  intro same
  cases first
  cases second
  cases same
  exact differ Std.ReflCmp.compare_self

/-- Of the rows that answer a request no two lie at one place. -/
theorem OwnPlaces.distinct (own : table.OwnPlaces) (request : TableEntry) :
    (table.answers request).Pairwise fun first second =>
      table.placeOf first.entry ≠ table.placeOf second.entry := by
  refine List.pairwise_append.mpr ⟨own.distinct_values.filter _, ?_, ?_⟩
  · cases table.defaultRow with
    | none => exact List.Pairwise.nil
    | some row => exact List.pairwise_singleton _ row
  · -- A keyed row lies under its key, and the row of the default action apart from all keys.
    intro first inside second last
    obtain ⟨key, held⟩ := Maps.mem_values.mp (List.mem_filter.mp inside).1
    rw [own (.keyed key) first held, own .default second (Option.mem_toList.mp last)]
    exact nofun

/-- The entities that belong to the entry of a place. -/
def belonging (table : Table) (place : Place) (entities : List Entity) : List Entity :=
  entities.filter fun entity => entity.owner.any fun entry => table.placeOf entry = .ok place

/-- To every request that the row of the entity answers, a read delivers the entity for the place, and
no other one. -/
def Returns (table : Table) (place : Place) (type : ReadType) (entity : Entity) : Prop :=
  ∀ request : TableEntry, (place = .default ∨ entity.owner.any (table.matcher request)) →
    ∀ sender : Sender, sender.Willing →
      ∃ entities, (table.read request type sender).1 = .ok () ∧
        sender.Took entities (table.read request type sender).2 ∧
        table.belonging place entities = [entity]

theorem belonging_listing (own : table.OwnPlaces) (held : table.row place = some row)
    (answered : row ∈ table.answers request) (type : ReadType) :
    table.belonging place (table.listing request type) = [row.entity type] := by
  have only : (table.answers request).filter (fun other => table.placeOf other.entry = .ok place) =
      [row] := by
    rw [← own place row held]
    exact filter_eq_singleton (own.distinct request) answered
  have sameRows (other : Row) : ((other.entity type).owner.any fun entry =>
      decide (table.placeOf entry = .ok place)) =
        decide (table.placeOf other.entry = .ok place) := by
    rw [Row.owner_entity, Option.any_some]
  rw [belonging, listing, List.filter_map]
  simp only [Function.comp_def, sameRows, only, List.map_singleton]

theorem OwnPlaces.returns (own : table.OwnPlaces) (held : table.row place = some row)
    (type : ReadType) : table.Returns place type (row.entity type) := by
  intro request accepted sender willing
  rw [Row.owner_entity, Option.any_some] at accepted
  obtain ⟨done, took⟩ := table.read_of_willing request type willing
  have answered : row ∈ table.answers request := mem_answers.mpr ⟨place, held, accepted⟩
  exact ⟨table.listing request type, done, took, belonging_listing own held answered type⟩

/-- What a modification that succeeds leaves at the place of its entry. -/
theorem row_of_modified {entry : TableEntry}
    (done : table.mutate (.modifyEntry entry false) = .ok next) :
    (table.placeOf entry = .ok .default ∧ entry.sorted = entry ∧
      next.row .default = some (Row.defaultAction entry)) ∨
    ∃ key old, table.placeOf entry = .ok (.keyed key) ∧ table.row (.keyed key) = some old ∧
      next.row (.keyed key) = some (old.modified entry.sorted) := by
  obtain ⟨place, held, addressed, effect, rfl⟩ := mutate_eq_ok.mp done
  have placed := placeOf_of_modifyEntry addressed
  cases isDefault : entry.isDefaultAction with
  | true =>
      simp only [Table.place, isDefault, ↓reduceIte, Bool.false_eq_true] at addressed
      simp only [Mutation.effect, isDefault, ↓reduceIte, Except.ok.injEq] at effect
      cases bare : entry.fieldMatches with
      | cons first rest => rw [bare] at addressed; cases addressed
      | nil =>
          rw [bare] at addressed
          cases addressed
          refine .inl ⟨placed, entry.sorted_of_bare bare, ?_⟩
          rw [row_setRow, if_pos rfl, effect]
  | false =>
      simp only [Table.place, isDefault, ↓reduceIte, Bool.false_eq_true] at addressed
      obtain ⟨key, -, rfl⟩ := keyedPlace_eq_ok.mp addressed
      simp only [Mutation.effect, isDefault, ↓reduceIte, Bool.false_eq_true] at effect
      cases found : table.row (.keyed key) with
      | none => rw [found] at effect; cases effect
      | some old =>
          rw [found] at effect
          refine .inr ⟨key, old, placed, found, ?_⟩
          rw [row_setRow, if_pos rfl, Except.ok.inj effect]

/-- After a modification that succeeded, direct resources are read as it supplied them, but for the
meter counter data of a keyed row, which stays as it was.  A counter for which nothing was supplied
stays in a keyed row as well. -/
theorem overlays_after_modify {schema : TableSchema} {batchSize : Nat}
    (reachable : table.Reachable schema batchSize) {entry : TableEntry}
    (done : table.mutate (.modifyEntry entry false) = .ok next) :
    ∃ place counter meterCounter, table.placeOf entry = .ok place ∧
      next.Returns place .directCounter (.directCounter ⟨entry.sorted, counter⟩) ∧
      next.Returns place .directMeter
        (.directMeter ⟨entry.sorted, entry.meterConfig, meterCounter⟩) ∧
      (∀ data, entry.counterData = some data → counter = data) ∧
      (place = .default → meterCounter = entry.meterCounterData) ∧
      ∀ key, place = .keyed key → ∃ old, table.row place = some old ∧
        meterCounter = old.meterCounterData ∧
        (entry.counterData = none → counter = old.counterData) := by
  have own : next.OwnPlaces := (reachable.step (.mutated done)).ownPlaces
  rcases row_of_modified done with ⟨placed, bare, held⟩ | ⟨key, old, placed, found, held⟩
  · refine ⟨.default, entry.counterData.getD .zero, entry.meterCounterData, placed, ?_, ?_, ?_,
      fun _ => rfl, nofun⟩
    · rw [bare]
      exact own.returns held .directCounter
    · rw [bare]
      exact own.returns held .directMeter
    · intro data supplied
      rw [supplied]
      rfl
  · refine ⟨.keyed key, entry.counterData.getD old.counterData, old.meterCounterData, placed,
      own.returns held .directCounter, own.returns held .directMeter, ?_, nofun, ?_⟩
    · intro data supplied
      rw [supplied]
      rfl
    · intro _ _
      refine ⟨old, found, rfl, fun none => ?_⟩
      rw [none]
      rfl

end Table

/-- The entry for every host, with all three overlays. -/
def measuredAnyHost : TableEntry :=
  { anyHost with
    counterData := some ⟨640, 5⟩
    meterConfig := some ⟨1000, 100, 2000, 200⟩
    meterCounterData := some ⟨⟨640, 5⟩, .zero, .zero⟩ }

/-- The access list after the overlays were supplied. -/
def measuredTable : Table :=
  anyHostTable.setRow (.keyed Key.bare) (some ((Row.inserted anyHost).modified measuredAnyHost))

theorem mutate_anyHostTable :
    anyHostTable.mutate (.modifyEntry measuredAnyHost false) = .ok measuredTable := by
  have place : anyHostTable.place (.modifyEntry measuredAnyHost false) = .ok (.keyed Key.bare) :=
    Table.keyedPlace_eq_ok.mpr ⟨Key.bare, anyHostTable.keyOf_of_bare rfl, rfl⟩
  refine Table.mutate_eq_ok.mpr ⟨.keyed Key.bare, _, place, ?_, rfl⟩
  have stored : (Row.inserted anyHost).modified measuredAnyHost.sorted =
      (Row.inserted anyHost).modified measuredAnyHost :=
    congrArg (Row.inserted anyHost).modified (measuredAnyHost.sorted_of_bare rfl)
  rw [row_anyHostTable, ← stored]
  rfl

/-- The counter and the meter of the entry for every host are read as supplied. -/
theorem any_host_measured : ∃ meterCounter,
    measuredTable.Returns (.keyed Key.bare) .directCounter
      (.directCounter ⟨measuredAnyHost, ⟨640, 5⟩⟩) ∧
    measuredTable.Returns (.keyed Key.bare) .directMeter
      (.directMeter ⟨measuredAnyHost, some ⟨1000, 100, 2000, 200⟩, meterCounter⟩) := by
  obtain ⟨place, counter, meterCounter, placed, counted, metered, supplied, -, -⟩ :=
    Table.overlays_after_modify reachable_anyHostTable mutate_anyHostTable
  have bare : measuredAnyHost.sorted = measuredAnyHost := measuredAnyHost.sorted_of_bare rfl
  have keyed : anyHostTable.placeOf measuredAnyHost = .ok (.keyed Key.bare) :=
    Table.keyedPlace_eq_ok.mpr ⟨Key.bare, anyHostTable.keyOf_of_bare rfl, rfl⟩
  cases placed.symm.trans keyed
  rw [bare, supplied ⟨640, 5⟩ rfl] at counted
  rw [bare] at metered
  exact ⟨meterCounter, counted, metered⟩

/-- The meter counter data supplied for it are not: the read returns none, as before. -/
theorem meter_counter_not_overlaid :
    anyHostTable.Reachable accessList 64 ∧
    anyHostTable.mutate (.modifyEntry measuredAnyHost false) = .ok measuredTable ∧
    measuredAnyHost.meterCounterData = some ⟨⟨640, 5⟩, .zero, .zero⟩ ∧
    (measuredTable.read anyHost .directMeter .willing).2.delivered =
      [[.directMeter ⟨measuredAnyHost, some ⟨1000, 100, 2000, 200⟩, none⟩]] := by
  refine ⟨reachable_anyHostTable, mutate_anyHostTable, rfl, ?_⟩
  decide +kernel

end MatchAction
