import MatchAction.Proofs.Reading
import MatchAction.Proofs.Refinement
import MatchAction.Proofs.Representation

/-!
# Snapshots

A read of all tables lists the entry of every row.  These entries can be stored in a new registry with
the same schemas, in whatever order: since a row lies where its own entry belongs, each of them finds
its slot again, and since no two rows share a slot, each of them finds it free.  Afterwards the tables
list what they listed before.
-/

namespace MatchAction

theorem exists_map_of_perm_map {α β : Type} {image : α → β} {order : List β} {elements : List α}
    (permuted : order.Perm (elements.map image)) :
    ∃ arranged : List α, order = arranged.map image ∧ arranged.Perm elements := by
  have composed := congrFun (congrFun (List.eq_map_comp_perm image) order) elements
  rw [← composed] at permuted
  exact permuted

/-- The call that stores an entry where there is no row yet. -/
def TableEntry.restoring (entry : TableEntry) : Mutation :=
  .modifyEntry entry (!entry.isDefaultAction)

/-- The calls that store the entries of a snapshot: a default action is modified, any other entry is
inserted. -/
def restoration (entities : List Entity) : List Operation :=
  (entities.filterMap Entity.owner).map fun entry => .mutate entry.restoring

/-! ## One entry -/

namespace Row.Fits

variable {slot : Slot} {row : Row}

/-- A slot that is free takes the entry of every row that belongs there. -/
theorem effect_restoring {fieldCount : Nat} (fits : row.Fits fieldCount slot) :
    ∃ stored, row.entry.restoring.effect none = .ok (some stored) ∧ stored.entry = row.entry := by
  obtain ⟨id, place⟩ := slot
  cases place with
  | default =>
      refine ⟨Row.defaultAction row.entry, ?_, rfl⟩
      simp only [TableEntry.restoring, Mutation.effect, fits.isDefault, ↓reduceIte]
  | keyed key =>
      refine ⟨Row.inserted row.entry.sorted, ?_, row.entry.sorted_of_pairwise fits.sorted⟩
      simp only [TableEntry.restoring, Mutation.effect, fits.ordinary, Bool.not_false,
        Bool.false_eq_true, ↓reduceIte]

/-- The entry of a row addresses the slot where the row belongs. -/
theorem slot_restoring {registry : Registry} {table : Table}
    (fits : row.Fits table.schema.matchFields.length slot)
    (known : registry.tables[slot.tableId]? = some table) :
    registry.slot row.entry.restoring = .ok slot := by
  obtain ⟨id, place⟩ := slot
  have found : registry.table id = .ok table := by rw [Registry.table_eq, known, Option.elim]
  cases place with
  | default =>
      simp only [TableEntry.restoring, Registry.slot, fits.isDefault, fits.home, found, fits.bare,
        ↓reduceIte]
      rfl
  | keyed key =>
      have derived : table.keyOf row.entry.fieldMatches = .ok key := by
        rw [Table.keyOf, Key.ofMatches, FieldMatch.sort_of_pairwise fits.sorted]
        exact fits.derived
      simp only [TableEntry.restoring, Registry.slot, fits.ordinary, Registry.keyedSlot, fits.home,
        found, bind, Except.bind, derived]
      rfl

end Row.Fits

namespace Registry

/-! ## Entries one after the other -/

/-- A slot is free, and the row belongs there. -/
structure Awaits (registry : Registry) (slot : Slot) (row : Row) : Prop where
  fits : ∃ table, registry.tables[slot.tableId]? = some table ∧
    row.Fits table.schema.matchFields.length slot
  free : registry.row slot = none

/-- The entries of some rows have come into their slots, and nothing else has changed. -/
structure Restores (rows : List (Slot × Row)) (before after : Registry) : Prop where
  stored : ∀ placed ∈ rows, (after.row placed.1).map Row.entry = some placed.2.entry
  others : ∀ slot, slot ∉ rows.map Prod.fst → after.row slot = before.row slot

variable {registry : Registry} {slot : Slot} {row : Row}

theorem Awaits.perform (awaits : registry.Awaits slot row) :
    ∃ stored, stored.entry = row.entry ∧ registry.perform (.mutate row.entry.restoring) =
      (⟨.ok (), []⟩, registry.setRow slot (some stored)) := by
  obtain ⟨table, known, fits⟩ := awaits.fits
  obtain ⟨stored, effect, sameEntry⟩ := fits.effect_restoring
  rw [← awaits.free] at effect
  exact ⟨stored, sameEntry, perform_of_done (fits.slot_restoring known) effect⟩

/-- Storing a row elsewhere does not matter. -/
theorem Awaits.setRow (awaits : registry.Awaits slot row) {other : Slot} (ne : slot ≠ other)
    (held : Option Row) : (registry.setRow other held).Awaits slot row := by
  obtain ⟨table, known, fits⟩ := awaits.fits
  obtain ⟨table', known', sameSchema, -, -⟩ :=
    getElem?_of_cleared (cleared_setRow registry other held).symm known
  rw [← sameSchema] at fits
  exact ⟨⟨table', known', fits⟩, (row_setRow_of_ne registry held ne).trans awaits.free⟩

/-- The entries of rows with different slots, all of them free, can be stored one after the other. -/
theorem run_restoring {rows : List (Slot × Row)} (apart : (rows.map Prod.fst).Nodup)
    (awaits : ∀ placed ∈ rows, registry.Awaits placed.1 placed.2) :
    (registry.run (rows.map fun placed => .mutate placed.2.entry.restoring)).1 =
      List.replicate rows.length ⟨.ok (), []⟩ ∧
    Restores rows registry
      (registry.run (rows.map fun placed => .mutate placed.2.entry.restoring)).2 := by
  induction rows generalizing registry with
  | nil =>
      rw [List.map_nil, run_nil]
      exact ⟨rfl, fun _ inside => absurd inside List.not_mem_nil, fun _ _ => rfl⟩
  | cons first rest ih =>
      obtain ⟨absent, apartRest⟩ := List.nodup_cons.mp apart
      have awaitsFirst := awaits first List.mem_cons_self
      obtain ⟨stored, sameEntry, performed⟩ := awaitsFirst.perform
      obtain ⟨table, known, -⟩ := awaitsFirst.fits
      have awaitsRest : ∀ placed ∈ rest,
          (registry.setRow first.1 (some stored)).Awaits placed.1 placed.2 := by
        intro placed inside
        have among : placed.1 ∈ rest.map Prod.fst := List.mem_map_of_mem inside
        have ne : placed.1 ≠ first.1 := fun same => absent (same ▸ among)
        exact (awaits placed (List.mem_cons_of_mem first inside)).setRow ne (some stored)
      obtain ⟨outcomes, restores⟩ := ih apartRest awaitsRest
      rw [List.map_cons, run_cons, performed]
      refine ⟨congrArg (_ :: ·) outcomes, ?_, ?_⟩
      · -- What the first entry left in its slot is still there after the others.
        intro placed inside
        rcases List.mem_cons.mp inside with rfl | later
        · rw [restores.others placed.1 absent, row_setRow_self known, Option.map_some, sameEntry]
        · exact restores.stored placed later
      · intro slot notThere
        obtain ⟨ne, notLater⟩ := not_or.mp (mt List.mem_cons.mpr notThere)
        rw [restores.others slot notLater, row_setRow_of_ne registry _ ne]

end Registry

/-! ## The rows with their places -/

namespace Table

variable {table : Table}

/-- The rows of a table, that of the default action last. -/
def placed (table : Table) : List (Place × Row) :=
  (table.rows.toList.map fun held => (.keyed held.1, held.2)) ++
    table.defaultRow.toList.map fun row => (.default, row)

theorem mem_placed {place : Place} {row : Row} :
    (place, row) ∈ table.placed ↔ table.row place = some row := by
  rw [placed, List.mem_append, List.mem_map, List.mem_map]
  constructor
  · rintro (⟨⟨key, held⟩, inside, same⟩ | ⟨held, inside, same⟩)
    · cases same
      exact Std.ExtTreeMap.mem_toList_iff_getElem?_eq_some.mp inside
    · cases same
      exact Option.mem_toList.mp inside
  · intro held
    cases place with
    | keyed key =>
        exact .inl ⟨(key, row), Std.ExtTreeMap.mem_toList_iff_getElem?_eq_some.mpr held, rfl⟩
    | default => exact .inr ⟨row, Option.mem_toList.mpr held, rfl⟩

theorem nodup_placed (table : Table) : (table.placed.map Prod.fst).Nodup := by
  rw [placed, List.map_append, List.map_map, List.map_map]
  refine List.nodup_append.mpr ⟨?_, ?_, ?_⟩
  · refine List.pairwise_map.mpr (Std.ExtTreeMap.distinct_keys_toList.imp ?_)
    intro first second differ same
    exact differ (Std.compare_eq_iff_eq.mpr (Place.keyed.inj same))
  · cases table.defaultRow with
    | none => exact List.nodup_nil
    | some row => exact List.nodup_singleton _
  · rintro _ keyed _ default rfl
    obtain ⟨held, -, rfl⟩ := List.mem_map.mp keyed
    obtain ⟨row, -, same⟩ := List.mem_map.mp default
    cases same

theorem map_entry_placed (table : Table) :
    table.placed.map (fun held => held.2.entry) = table.entries := by
  rw [placed, entries, Maps.values_eq_map_toList, List.map_append, List.map_append, List.map_map,
    List.map_map, List.map_map]
  rfl

/-- Tables that keep the same entries in the same places list the same entries. -/
theorem entries_congr {first second : Table}
    (same : ∀ place, (first.row place).map Row.entry = (second.row place).map Row.entry) :
    first.entries = second.entries := by
  have keyed : first.rows.values.map Row.entry = second.rows.values.map Row.entry :=
    Maps.map_values_congr Row.entry fun key => same (.keyed key)
  have default : first.defaultRow.toList.map Row.entry = second.defaultRow.toList.map Row.entry := by
    rw [← Option.toList_map, ← Option.toList_map]
    exact congrArg Option.toList (same .default)
  rw [entries, entries, List.map_append, List.map_append, keyed, default]

end Table

namespace Registry

variable {registry : Registry}

/-- The rows of a registry, one table's after the other's. -/
def placed (registry : Registry) : List (Slot × Row) :=
  registry.tables.toList.flatMap fun named =>
    named.2.placed.map fun held => (⟨named.1, held.1⟩, held.2)

theorem mem_placed {slot : Slot} {row : Row} :
    (slot, row) ∈ registry.placed ↔ registry.row slot = some row := by
  rw [placed, List.mem_flatMap]
  constructor
  · rintro ⟨⟨id, table⟩, inside, placed⟩
    have known := Std.ExtTreeMap.mem_toList_iff_getElem?_eq_some.mp inside
    obtain ⟨⟨place, held⟩, among, same⟩ := List.mem_map.mp placed
    cases same
    exact (row_of_getElem? known place).trans (Table.mem_placed.mp among)
  · intro held
    obtain ⟨table, known, inTable⟩ := Option.bind_eq_some_iff.mp held
    exact ⟨(slot.tableId, table), Std.ExtTreeMap.mem_toList_iff_getElem?_eq_some.mpr known,
      List.mem_map.mpr ⟨(slot.place, row), Table.mem_placed.mpr inTable, rfl⟩⟩

theorem nodup_placed (registry : Registry) : (registry.placed.map Prod.fst).Nodup := by
  rw [placed, List.map_flatMap]
  refine List.nodup_flatMap.mpr ⟨fun named _ => ?_, ?_⟩
  · have places := named.2.nodup_placed.map (f := Slot.mk named.1) fun _ _ same => (Slot.mk.inj same).2
    rw [List.map_map] at places ⊢
    exact places
  · refine Std.ExtTreeMap.distinct_keys_toList.imp fun {first second} differ => ?_
    intro slot inFirst inSecond
    simp only [List.map_map, List.mem_map, Function.comp_apply] at inFirst inSecond
    obtain ⟨_, -, rfl⟩ := inFirst
    obtain ⟨_, -, same⟩ := inSecond
    exact differ (Std.compare_eq_iff_eq.mpr (congrArg Slot.tableId same).symm)

theorem map_entry_placed (registry : Registry) :
    registry.placed.map (fun held => held.2.entry) = registry.tables.values.flatMap Table.entries := by
  rw [placed, List.map_flatMap, Maps.values_eq_map_toList, List.flatMap_map]
  refine congrArg (List.flatMap · _) (funext fun named => ?_)
  rw [List.map_map]
  exact named.2.map_entry_placed

/-! ## Reading and restoring -/

variable {schemas : List TableSchema} {config : Config} {operations : List Operation}

theorem ids_make (schemas : List TableSchema) (config fresh : Config) :
    (make schemas fresh).1.ids = (make schemas config).1.ids := by
  refine Maps.keys_congr fun id => ?_
  rw [getElem?_make, getElem?_make, Option.isSome_map, Option.isSome_map]

/-- The tables of a registry have the schemas of those of a new one, and let every entry through. -/
theorem getElem?_run_make (fresh : Config) {id : UInt32} {table : Table}
    (known : ((make schemas config).1.run operations).2.tables[id]? = some table) :
    table.matcher = Matcher.all ∧
      ∃ made, (make schemas fresh).1.tables[id]? = some made ∧ made.schema = table.schema := by
  obtain ⟨table', known', sameSchema, -, sameMatcher⟩ :=
    getElem?_of_cleared (cleared_run (make schemas config).1 operations) known
  rw [getElem?_make] at known'
  obtain ⟨schema, chosen, rfl⟩ := Option.map_eq_some_iff.mp known'
  refine ⟨sameMatcher.symm, Table.make schema fresh.readBatchSize.toNat, ?_, sameSchema⟩
  rw [getElem?_make, chosen, Option.map_some]

/-- A read of all tables that succeeds delivers the entry of every row. -/
theorem entities_of_ok
    (matchesAll : ∀ (id : UInt32) (table : Table),
      registry.tables[id]? = some table → table.matcher = Matcher.all)
    {request : TableEntry} (wildcard : request.tableId = 0) {answer : Nat → Option String}
    (ok : (registry.perform (.read request .tableEntry answer)).1.result = .ok ()) :
    (registry.perform (.read request .tableEntry answer)).1.entities =
      registry.placed.map fun held => .tableEntry held.2.entry := by
  have offered : registry.read request .tableEntry (.fresh answer) = (Sender.fresh answer).offer
      (registry.tables.values.flatMap fun table => table.batches request .tableEntry) := by
    rw [read_eq_offer, asked, if_pos wildcard]
  have taken : (registry.read request .tableEntry (.fresh answer)).1 = .ok () := ok
  rw [offered] at taken
  obtain ⟨takes, handed⟩ := Sender.offer_of_ok taken
  have listed : (registry.tables.values.flatMap fun table => table.listing request .tableEntry) =
      (registry.tables.values.flatMap Table.entries).map Entity.tableEntry := by
    rw [List.map_flatMap]
    refine List.flatMap_congr fun table inside => ?_
    obtain ⟨id, known⟩ := Maps.mem_values.mp inside
    exact Table.listing_entries_of_all (matchesAll id table known) request
  calc
    (registry.perform (.read request .tableEntry answer)).1.entities
      = (registry.read request .tableEntry (.fresh answer)).2.delivered.flatten := rfl
    _ = registry.tables.values.flatMap fun table => table.listing request .tableEntry := by
        rw [offered, handed, Sender.delivered_handed takes, Sender.delivered_fresh,
          List.nil_append, flatten_batches]
    _ = registry.placed.map fun held => .tableEntry held.2.entry := by
        rw [listed, ← map_entry_placed, List.map_map]
        rfl

theorem restoration_map (rows : List (Slot × Row)) :
    restoration (rows.map fun held => .tableEntry held.2.entry) =
      rows.map fun held => .mutate held.2.entry.restoring := by
  rw [restoration, List.filterMap_map, List.map_filterMap]
  exact congrFun List.filterMap_eq_map' rows

/-- Every row that a registry has come to hold is awaited by a new registry with the same schemas. -/
theorem awaits_make (fresh : Config) {slot : Slot} {row : Row}
    (held : ((make schemas config).1.run operations).2.row slot = some row) :
    (make schemas fresh).1.Awaits slot row := by
  obtain ⟨table, known, -⟩ := Option.bind_eq_some_iff.mp held
  obtain ⟨-, made, knownMade, sameSchema⟩ := getElem?_run_make fresh known
  have fits := sound_run schemas config operations slot table row known held
  rw [← sameSchema] at fits
  exact ⟨⟨made, knownMade, fits⟩, row_make schemas fresh slot⟩

/-- If the rows of a registry are restored in an empty one, each slot holds the entry that it held. -/
theorem Restores.entries {rows : List (Slot × Row)} {before after : Registry}
    (restores : Restores rows before after) (permuted : rows.Perm registry.placed)
    (empty : ∀ slot, before.row slot = none) (slot : Slot) :
    (after.row slot).map Row.entry = (registry.row slot).map Row.entry := by
  cases held : registry.row slot with
  | some row =>
      exact restores.stored (slot, row) (permuted.mem_iff.mpr (mem_placed.mpr held))
  | none =>
      have absent : slot ∉ rows.map Prod.fst := by
        intro inside
        obtain ⟨⟨_, row⟩, among, rfl⟩ := List.mem_map.mp inside
        have there := mem_placed.mp (permuted.mem_iff.mp among)
        rw [held] at there
        cases there
      rw [restores.others slot absent, empty]

/-- The entries that a successful read of all tables delivers can be stored, in any order, in a new
registry with the same schemas.  Every call succeeds, and after them every table lists the entries
that it listed in the old registry. -/
theorem snapshot_restores (schemas : List TableSchema) (config fresh : Config)
    (operations : List Operation) {request : TableEntry} (wildcard : request.tableId = 0)
    {answer : Nat → Option String} {snapshot : Outcome}
    (read : snapshot =
      (((make schemas config).1.run operations).2.perform (.read request .tableEntry answer)).1)
    (ok : snapshot.result = .ok ()) {order : List Entity}
    (reordered : order.Perm snapshot.entities) :
    let original := ((make schemas config).1.run operations).2
    let restored := (make schemas fresh).1.run (restoration order)
    restored.1 = List.replicate order.length ⟨.ok (), []⟩ ∧
    restored.2.ids = original.ids ∧
    ∀ (id : UInt32) (table table' : Table),
      original.tables[id]? = some table → restored.2.tables[id]? = some table' →
      ∀ other : TableEntry,
        (table'.read other .tableEntry .willing).2.delivered.flatten.Perm
          (table.read other .tableEntry .willing).2.delivered.flatten := by
  intro original restored
  have matchesAll (id : UInt32) (table : Table) (known : original.tables[id]? = some table) :
      table.matcher = Matcher.all := (getElem?_run_make fresh known).1
  rw [read] at ok reordered
  rw [entities_of_ok matchesAll wildcard ok] at reordered
  obtain ⟨rows, rfl, permuted⟩ := exists_map_of_perm_map reordered
  have apart : (rows.map Prod.fst).Nodup :=
    (permuted.map Prod.fst).nodup_iff.mpr original.nodup_placed
  have awaits (held : Slot × Row) (inside : held ∈ rows) :
      (make schemas fresh).1.Awaits held.1 held.2 :=
    awaits_make fresh (mem_placed.mp (permuted.mem_iff.mp inside))
  obtain ⟨outcomes, restores⟩ := run_restoring apart awaits
  rw [← restoration_map] at outcomes restores
  refine ⟨by rw [outcomes, List.length_map], ?_, fun id table table' known known' other => ?_⟩
  · rw [ids_eq_of_cleared (cleared_run _ _), ids_eq_of_cleared (cleared_run _ _), ids_make]
  · have sameEntries : table'.entries = table.entries := by
      refine Table.entries_congr fun place => ?_
      rw [← row_of_getElem? known, ← row_of_getElem? known']
      exact restores.entries permuted (row_make schemas fresh) ⟨id, place⟩
    have matchesAll' : table'.matcher = Matcher.all := (getElem?_run_make fresh known').1
    rw [Table.delivered_read_willing, Table.delivered_read_willing, Table.flatten_batches,
      Table.flatten_batches, Table.listing_entries_of_all (matchesAll id table known),
      Table.listing_entries_of_all matchesAll', sameEntries]

/-- Two hosts, one of them counted, and a default action. -/
def hostsWithDefault : List Operation :=
  [.mutate (.modifyEntry (host 1) true),
    .mutate (.modifyEntry (host 2) true),
    .mutate (.modifyCounter ⟨host 2, ⟨640, 5⟩⟩ false),
    .mutate (.modifyEntry (.defaultAction 7 (.action (.make 1))) false)]

/-- Their three entries can be restored from the last to the first. -/
theorem hosts_restored_in_reverse :
    let hosts := ((make [accessList] .standard).1.run hostsWithDefault).2
    let snapshot := (hosts.perform (.read .empty .tableEntry fun _ => none)).1
    snapshot.result = .ok () ∧ snapshot.entities.length = 3 ∧
    ((make [accessList] .standard).1.run (restoration snapshot.entities.reverse)).1 =
      List.replicate snapshot.entities.reverse.length ⟨.ok (), []⟩ := by
  intro hosts snapshot
  have asked : hosts.asked .empty = .ok hosts.tables.values := rfl
  have willing : snapshot.result = .ok () :=
    (read_of_willing asked .tableEntry Sender.willing_willing).1
  have length : snapshot.entities.length = 3 := by decide +kernel
  have restored := snapshot_restores [accessList] .standard .standard hostsWithDefault rfl rfl willing
    snapshot.entities.reverse_perm
  exact ⟨willing, length, restored.1⟩

end Registry

end MatchAction
