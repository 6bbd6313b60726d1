import MatchAction.Proofs.KeyImage
import MatchAction.Proofs.Overlays
import MatchAction.Proofs.Reading

/-!
# Reading back

What a controller reads of a keyed row can be written back: it carries the entry of the row, and from
its field matches, which are stored in order, the key of the row is found again.  So an insertion of
the entry is refused, a modification of it leaves all entries as they are, a removal removes the row
and nothing else, and a direct resource written as it was read changes nothing at all.
-/

namespace MatchAction

/-- A keyed row lies at the home of its entry, whose field matches are in order. -/
theorem Row.Keyed.home_eq {tableId : UInt32} {fieldCount : Nat} {key : Key} {row : Row}
    (keyed : row.Keyed tableId fieldCount key) :
    row.entry.home = ⟨tableId, .keyed key⟩ ∧ row.entry.sorted = row.entry := by
  have inOrder := row.entry.sorted_of_pairwise keyed.sorted
  obtain ⟨-, digest⟩ := Key.derive_eq_ok.mp keyed.derived
  rw [TableEntry.home, FieldMatch.sort_of_pairwise keyed.sorted, digest, keyed.home]
  exact ⟨rfl, inOrder⟩

namespace Table

/-! ## Sizes -/

variable {table : Table} {key : Key} {old : Row}

theorem size_setRow_of_some (held : table.row (.keyed key) = some old) (row : Row) :
    (table.setRow (.keyed key) (some row)).size = table.size := by
  have there : table.rows.contains key = true := by
    rw [Std.ExtTreeMap.contains_eq_isSome_getElem?]
    exact congrArg Option.isSome held
  simp only [setRow, size, Std.ExtTreeMap.size_insert, there, ↓reduceIte]

theorem size_setRow_of_none (free : table.row (.keyed key) = none) (row : Row) :
    (table.setRow (.keyed key) (some row)).size = table.size + 1 := by
  have notThere : table.rows.contains key = false := by
    rw [Std.ExtTreeMap.contains_eq_isSome_getElem?]
    exact congrArg Option.isSome free
  simp only [setRow, size, Std.ExtTreeMap.size_insert, notThere, Bool.false_eq_true, ↓reduceIte]
  omega

/-- Putting the row back shows that taking it out made the table smaller by one. -/
theorem size_setRow_none (held : table.row (.keyed key) = some old) :
    (table.setRow (.keyed key) none).size + 1 = table.size := by
  have free : (table.setRow (.keyed key) none).row (.keyed key) = none := by
    rw [row_setRow, if_pos rfl]
  calc
    _ = ((table.setRow (.keyed key) none).setRow (.keyed key) (some old)).size :=
      (size_setRow_of_none free old).symm
    _ = table.size := by rw [setRow_setRow, ← held, setRow_row]

end Table

namespace Registry

/-- The registries that calls lead to: one is made, operations are performed, and a matcher is
installed in every table. -/
inductive Operated (schemas : List TableSchema) (config : Config) : Registry → Prop where
  | made : Operated schemas config (make schemas config).1
  | performed {registry : Registry} (operated : Operated schemas config registry)
      (operation : Operation) : Operated schemas config (registry.perform operation).2
  | matched {registry : Registry} (operated : Operated schemas config registry)
      (matcher : Matcher) : Operated schemas config (registry.setMatcher matcher)

theorem sound_setMatcher {registry : Registry} (sound : Sound registry) (matcher : Matcher) :
    Sound (registry.setMatcher matcher) := by
  intro slot table row known held
  rw [row_of_getElem? known] at held
  rw [setMatcher, Std.ExtTreeMap.getElem?_map] at known
  obtain ⟨old, knownOld, rfl⟩ := Option.map_eq_some_iff.mp known
  exact sound slot old row knownOld ((row_of_getElem? knownOld slot.place).trans held)

theorem Operated.sound {schemas : List TableSchema} {config : Config} {registry : Registry}
    (operated : registry.Operated schemas config) : Sound registry := by
  induction operated with
  | made => exact sound_make schemas config
  | performed operated operation ih => exact sound_perform _ operation ih
  | matched operated matcher ih => exact sound_setMatcher ih matcher

/-! ## Rows that are read -/

variable {registry : Registry} {request entry : TableEntry} {type : ReadType}

theorem known_of_asked {tables : List Table} (asked : registry.asked request = .ok tables)
    {table : Table} (among : table ∈ tables) : ∃ id : UInt32, registry.tables[id]? = some table := by
  unfold Registry.asked at asked
  split at asked
  · cases asked
    exact Maps.mem_values.mp among
  · cases found : registry.table request.tableId with
    | error error => rw [found] at asked; cases asked
    | ok named =>
        rw [found] at asked
        cases asked
        rw [List.mem_singleton.mp among]
        exact ⟨request.tableId, table_eq_ok.mp found⟩

/-- Whatever a read hands over, refused or not, it has read of some row. -/
theorem exists_row_of_read {answer : Nat → Option String} {call : Call}
    (made : call ∈ (registry.perform (.read request type answer)).1.calls) {entity : Entity}
    (among : entity ∈ call.batch) :
    ∃ slot table row, registry.tables[slot.tableId]? = some table ∧
      registry.row slot = some row ∧ entity = row.entity type := by
  have handedOver : call.batch.toList ∈ (registry.read request type (.fresh answer)).2.batches :=
    List.mem_map_of_mem (f := fun call : Call => call.batch.toList) made
  rw [read_eq_offer] at handedOver
  cases asked : registry.asked request with
  | error error =>
      rw [asked] at handedOver
      cases handedOver
  | ok tables =>
      rw [asked] at handedOver
      rcases Sender.mem_batches_offer handedOver with before | offered
      · cases before
      · obtain ⟨table, inside, own⟩ := List.mem_flatMap.mp offered
        obtain ⟨row, answered, same⟩ :=
          Table.exists_answer_of_mem_batches own (Array.mem_toList_iff.mpr among)
        obtain ⟨place, held, -⟩ := Table.mem_answers.mp answered
        obtain ⟨id, known⟩ := known_of_asked asked inside
        exact ⟨⟨id, place⟩, table, row, known, (row_of_getElem? known place).trans held, same⟩

/-- What is read of a keyed row shows where the row lies. -/
theorem home_of_read (sound : Sound registry) {answer : Nat → Option String} {call : Call}
    (made : call ∈ (registry.perform (.read request type answer)).1.calls) {entity : Entity}
    (among : entity ∈ call.batch) (owner : entity.owner = some entry)
    (ordinary : entry.isDefaultAction = false) :
    ∃ row, registry.row entry.home = some row ∧ entity = row.entity type ∧ row.entry = entry ∧
      entry.sorted = entry ∧ entry.Acceptable registry := by
  obtain ⟨⟨id, place⟩, table, row, known, held, rfl⟩ := exists_row_of_read made among
  rw [Row.owner_entity] at owner
  cases owner
  have fits := sound ⟨id, place⟩ table row known held
  cases place with
  | default => exact absurd (fits.isDefault.symm.trans ordinary) nofun
  | keyed key =>
      obtain ⟨home, inOrder⟩ := Row.Keyed.home_eq fits
      rw [home]
      refine ⟨row, held, rfl, rfl, inOrder, ordinary, table, ?_, fits.bounded⟩
      rw [fits.home]
      exact known

/-! ## Writing back -/

/-- A row was replaced by one of the same entry. -/
structure Overwrites (registry : Registry) (slot : Slot) (done : Outcome × Registry) : Prop where
  outcome : done.1 = ⟨.ok (), []⟩
  others : AgreeOn (· ≠ slot) done.2 registry
  sizes : ∀ id : UInt32, done.2.tables[id]?.map Table.size = registry.tables[id]?.map Table.size
  reads : ∀ request answer, (done.2.perform (.read request .tableEntry answer)).1 =
    (registry.perform (.read request .tableEntry answer)).1

/-- A row was taken out. -/
structure Removes (registry : Registry) (slot : Slot) (done : Outcome × Registry) : Prop where
  outcome : done.1 = ⟨.ok (), []⟩
  gone : done.2.row slot = none
  others : AgreeOn (· ≠ slot) done.2 registry
  size : ∃ table next, registry.tables[slot.tableId]? = some table ∧
    done.2.tables[slot.tableId]? = some next ∧ next.size + 1 = table.size

/-- What comes of writing back an entity that was read of a keyed row, or the entry of the row. -/
structure WritesBack (registry : Registry) (type : ReadType) (entity : Entity)
    (entry : TableEntry) : Prop where
  insert : registry.perform (.write ⟨.insert, .tableEntry entry⟩) =
    (⟨.error (.entryExists entry), []⟩, registry)
  modify : registry.Overwrites entry.home (registry.perform (.write ⟨.modify, .tableEntry entry⟩))
  delete : registry.Removes entry.home (registry.perform (.write ⟨.delete, .tableEntry entry⟩))
  direct : type ≠ .tableEntry →
    registry.perform (.write ⟨.modify, entity⟩) = (⟨.ok (), []⟩, registry)

variable {table : Table} {old : Row}

theorem overwrites_setRow {slot : Slot} {key : Key} (place : slot.place = .keyed key)
    (known : registry.tables[slot.tableId]? = some table) (held : registry.row slot = some old)
    {row : Row} (sameEntry : row.entry = old.entry) :
    registry.Overwrites slot (⟨.ok (), []⟩, registry.setRow slot (some row)) where
  outcome := rfl
  others := agreeOn_setRow registry slot (some row)
  sizes := by
    intro id
    rw [getElem?_setRow]
    split
    · next here =>
        rw [row_of_getElem? known, place] at held
        rw [here, known, place, Option.map_some, Option.map_some, Option.map_some,
          Table.size_setRow_of_some held]
    · rfl
  reads := by
    intro request answer
    have entities (other : Slot) :
        ((registry.setRow slot (some row)).row other).map (fun row => row.entity .tableEntry) =
          (registry.row other).map fun row => row.entity .tableEntry := by
      by_cases same : other = slot
      · rw [same, row_setRow_self known, held]
        exact congrArg (fun entry => some (Entity.tableEntry entry)) sameEntry
      · rw [row_setRow_of_ne registry _ same]
    simp only [perform_read, read_congr (cleared_setRow registry slot (some row)) entities]

theorem removes_setRow {slot : Slot} {key : Key} (place : slot.place = .keyed key)
    (known : registry.tables[slot.tableId]? = some table) (held : registry.row slot = some old) :
    registry.Removes slot (⟨.ok (), []⟩, registry.setRow slot none) where
  outcome := rfl
  gone := row_setRow_self known none
  others := agreeOn_setRow registry slot none
  size := by
    rw [row_of_getElem? known, place] at held
    refine ⟨table, table.setRow slot.place none, known, ?_, ?_⟩
    · rw [getElem?_setRow, if_pos rfl, known, Option.map_some]
    · rw [place]
      exact Table.size_setRow_none held

/-- What makes of a row the row that it was changes nothing. -/
theorem perform_of_same {mutation : Mutation} (acceptable : entry.Acceptable registry)
    (held : registry.row entry.home = some old) (keyed : mutation.keyedEntry = some entry)
    (same : mutation.effect (some old) = .ok (some old)) :
    registry.perform (.mutate mutation) = (⟨.ok (), []⟩, registry) := by
  obtain ⟨table, known, -⟩ := acceptable.bounded
  have unchanged : registry.setRow entry.home (some old) = registry := by
    rw [← held]
    exact setRow_row known
  rw [← held] at same
  rw [perform_of_done (slot_of_acceptable acceptable keyed) same, held, unchanged]

/-- A direct resource that is written as it was read stays as it is. -/
theorem write_direct (acceptable : old.entry.Acceptable registry)
    (held : registry.row old.entry.home = some old) (direct : type ≠ .tableEntry) :
    registry.perform (.write ⟨.modify, old.entity type⟩) = (⟨.ok (), []⟩, registry) := by
  cases type with
  | tableEntry => exact absurd rfl direct
  | directCounter => exact (perform_write_eq rfl).trans (perform_of_same acceptable held rfl rfl)
  | directMeter => exact (perform_write_eq rfl).trans (perform_of_same acceptable held rfl rfl)

theorem write_modify (acceptable : entry.Acceptable registry)
    (held : registry.row entry.home = some old) :
    registry.perform (.write ⟨.modify, .tableEntry entry⟩) =
      (⟨.ok (), []⟩, registry.setRow entry.home (some (old.modified entry.sorted))) := by
  refine (perform_write_eq rfl).trans (perform_of_done (slot_modifyEntry acceptable false) ?_)
  simp only [held, Mutation.effect, acceptable.ordinary, Bool.false_eq_true, ↓reduceIte]

theorem write_delete (acceptable : entry.Acceptable registry) :
    registry.perform (.write ⟨.delete, .tableEntry entry⟩) =
      (⟨.ok (), []⟩, registry.setRow entry.home none) := by
  have keyed : (Mutation.removeEntry entry).keyedEntry = some entry :=
    if_neg (Bool.eq_false_iff.mp acceptable.ordinary)
  exact (perform_write_eq rfl).trans (perform_of_done (slot_of_acceptable acceptable keyed) rfl)

/-- Every entity that a read hands over of a keyed row addresses the row that it was read of.  Its
entry cannot be inserted; modifying it keeps all other rows and what is read of entries; deleting it
takes out that row alone; and a direct resource can be written back without a trace. -/
theorem read_entities_write_back {schemas : List TableSchema} {config : Config}
    (operated : registry.Operated schemas config) {answer : Nat → Option String} {call : Call}
    (made : call ∈ (registry.perform (.read request type answer)).1.calls) {entity : Entity}
    (among : entity ∈ call.batch) (owner : entity.owner = some entry)
    (ordinary : entry.isDefaultAction = false) : registry.WritesBack type entity entry := by
  obtain ⟨row, held, rfl, rfl, inOrder, acceptable⟩ :=
    home_of_read operated.sound made among owner ordinary
  obtain ⟨table, known, -⟩ := acceptable.bounded
  refine ⟨?_, ?_, ?_, write_direct acceptable held⟩
  · have refused := insert_of_taken acceptable held
    rw [inOrder] at refused
    exact (perform_write_eq rfl).trans refused
  · rw [write_modify acceptable held]
    exact overwrites_setRow rfl known held inOrder
  · rw [write_delete acceptable]
    exact removes_setRow rfl known held

/-- A host of which one packet was counted. -/
def hostCounted : Registry :=
  (accessRegistry.run [.mutate (.modifyEntry (host 1) true),
    .mutate (.modifyCounter ⟨host 1, ⟨128, 1⟩⟩ false)]).2

/-- The counter is read as one of the host's row, and can be written back. -/
theorem host_counter_writes_back :
    ⟨#[.directCounter ⟨host 1, ⟨128, 1⟩⟩], none⟩ ∈
      (hostCounted.perform (.read (host 1) .directCounter fun _ => none)).1.calls ∧
    hostCounted.WritesBack .directCounter (.directCounter ⟨host 1, ⟨128, 1⟩⟩) (host 1) := by
  have operated : hostCounted.Operated [accessList] .standard :=
    (Operated.made.performed (.mutate (.modifyEntry (host 1) true))).performed
      (.mutate (.modifyCounter ⟨host 1, ⟨128, 1⟩⟩ false))
  have made : ⟨#[.directCounter ⟨host 1, ⟨128, 1⟩⟩], none⟩ ∈
      (hostCounted.perform (.read (host 1) .directCounter fun _ => none)).1.calls := by
    decide +kernel
  exact ⟨made, read_entities_write_back operated made (Array.mem_singleton.mpr rfl) rfl rfl⟩

end Registry

end MatchAction
