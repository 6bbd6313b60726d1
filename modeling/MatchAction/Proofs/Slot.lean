import MatchAction.Registry

/-!
# Slots

A registry holds its rows in slots: each table has one slot for every key and one for its default
action.  What a registry is besides its rows, the tables' schemas, batch sizes and matchers, is seen
by clearing it.  The two views together determine the registry.
-/

namespace MatchAction

/-- Where a table keeps a row: under a key, or apart from the keyed rows. -/
inductive Place where
  | keyed (key : Key)
  | default
  deriving DecidableEq

structure Slot where
  tableId : UInt32
  place : Place
  deriving DecidableEq

namespace Table

/-- What a place of the table holds. -/
def row (table : Table) : Place → Option Row
  | .keyed key => table.rows[key]?
  | .default => table.defaultRow

def setRow (table : Table) : Place → Option Row → Table
  | .keyed key, some row => { table with rows := table.rows.insert key row }
  | .keyed key, none => { table with rows := table.rows.erase key }
  | .default, held => { table with defaultRow := held }

/-- The table without rows. -/
def cleared (table : Table) : Table := { table with rows := ∅, defaultRow := none }

theorem row_setRow (table : Table) (place other : Place) (held : Option Row) :
    (table.setRow place held).row other = if other = place then held else table.row other := by
  cases place with
  | default => cases other <;> simp [setRow, row]
  | keyed key =>
      cases other with
      | default => cases held <;> simp [setRow, row]
      | keyed key' =>
          cases held with
          | none =>
              simp only [setRow, row, Place.keyed.injEq, Std.ExtTreeMap.getElem?_erase,
                Std.LawfulEqCmp.compare_eq_iff_eq, eq_comm (a := key')]
          | some row' =>
              simp only [setRow, row, Place.keyed.injEq, Std.ExtTreeMap.getElem?_insert,
                Std.LawfulEqCmp.compare_eq_iff_eq, eq_comm (a := key')]

@[simp] theorem cleared_setRow (table : Table) (place : Place) (held : Option Row) :
    (table.setRow place held).cleared = table.cleared := by
  cases place <;> cases held <;> rfl

/-- A table is known by its cleared form and by what its places hold. -/
theorem ext_row {first second : Table} (sameCleared : first.cleared = second.cleared)
    (sameRows : ∀ place, first.row place = second.row place) : first = second := by
  have rows : first.rows = second.rows :=
    Std.ExtTreeMap.ext_getElem? fun key => sameRows (.keyed key)
  have defaultRow : first.defaultRow = second.defaultRow := sameRows .default
  cases first
  cases second
  simp only [cleared, Table.mk.injEq] at sameCleared
  obtain ⟨schema, -, -, batchSize, matcher⟩ := sameCleared
  subst schema batchSize matcher
  cases rows
  cases defaultRow
  rfl

theorem setRow_row (table : Table) (place : Place) :
    table.setRow place (table.row place) = table := by
  refine ext_row (cleared_setRow table place _) fun other => ?_
  rw [row_setRow]
  split
  · next same => rw [same]
  · rfl

/-- What is set twice holds what was set last. -/
@[simp] theorem setRow_setRow (table : Table) (place : Place) (first second : Option Row) :
    (table.setRow place first).setRow place second = table.setRow place second := by
  refine ext_row (by simp only [cleared_setRow]) fun other => ?_
  simp only [row_setRow]
  split <;> rfl

@[simp] theorem row_make (schema : TableSchema) (batchSize : Nat) (place : Place) :
    (make schema batchSize).row place = none := by
  cases place with
  | keyed key => exact Std.ExtTreeMap.getElem?_empty
  | default => rfl

end Table

namespace Registry

theorem table_eq (registry : Registry) (id : UInt32) :
    registry.table id = (registry.tables[id]?).elim (.error (.tableNotFound id)) .ok := by
  unfold table
  cases registry.tables[id]? <;> rfl

theorem table_eq_ok {registry : Registry} {id : UInt32} {table : Table} :
    registry.table id = .ok table ↔ registry.tables[id]? = some table := by
  rw [table_eq]
  cases registry.tables[id]? with
  | none => exact iff_of_false nofun nofun
  | some found => rw [Option.elim, Except.ok.injEq, Option.some.injEq]

/-- What a slot of the registry holds; nothing if there is no such table. -/
def row (registry : Registry) (slot : Slot) : Option Row :=
  registry.tables[slot.tableId]?.bind fun table => table.row slot.place

def setRow (registry : Registry) (slot : Slot) (held : Option Row) : Registry :=
  ⟨registry.tables.modify slot.tableId fun table => table.setRow slot.place held⟩

/-- The registry with every table cleared. -/
def cleared (registry : Registry) : Registry := ⟨registry.tables.map fun _ table => table.cleared⟩

theorem getElem?_cleared (registry : Registry) (id : UInt32) :
    registry.cleared.tables[id]? = registry.tables[id]?.map Table.cleared :=
  Std.ExtTreeMap.getElem?_map

theorem getElem?_setRow (registry : Registry) (slot : Slot) (held : Option Row) (id : UInt32) :
    (registry.setRow slot held).tables[id]? =
      if id = slot.tableId then registry.tables[id]?.map fun table => table.setRow slot.place held
      else registry.tables[id]? := by
  simp only [setRow, Std.ExtTreeMap.getElem?_modify, Std.LawfulEqCmp.compare_eq_iff_eq,
    eq_comm (a := slot.tableId)]
  split
  · next same => rw [same]
  · rfl

theorem row_of_getElem? {registry : Registry} {id : UInt32} {table : Table}
    (known : registry.tables[id]? = some table) (place : Place) :
    registry.row ⟨id, place⟩ = table.row place := by
  simp only [row, known, Option.bind_some]

theorem row_setRow_self {registry : Registry} {slot : Slot} {table : Table}
    (known : registry.tables[slot.tableId]? = some table) (held : Option Row) :
    (registry.setRow slot held).row slot = held := by
  simp only [row, getElem?_setRow, ↓reduceIte, known, Option.map_some, Option.bind_some,
    Table.row_setRow]

theorem row_setRow_of_ne (registry : Registry) {slot other : Slot} (held : Option Row)
    (ne : other ≠ slot) : (registry.setRow slot held).row other = registry.row other := by
  simp only [row, getElem?_setRow]
  split
  · next sameTable =>
      have otherPlace : other.place ≠ slot.place := by
        intro samePlace
        cases other
        cases slot
        exact ne (congr (congrArg Slot.mk sameTable) samePlace)
      cases registry.tables[other.tableId]? with
      | none => rfl
      | some table =>
          simp only [Option.map_some, Option.bind_some, Table.row_setRow, if_neg otherPlace]
  · rfl

@[simp] theorem cleared_setRow (registry : Registry) (slot : Slot) (held : Option Row) :
    (registry.setRow slot held).cleared = registry.cleared := by
  have sameTables : (registry.setRow slot held).cleared.tables = registry.cleared.tables := by
    refine Std.ExtTreeMap.ext_getElem? fun id => ?_
    rw [getElem?_cleared, getElem?_cleared, getElem?_setRow]
    split
    · rw [Option.map_map]
      exact congrArg (Option.map · _) (funext fun table => Table.cleared_setRow table _ _)
    · rfl
  exact congrArg Registry.mk sameTables

theorem setRow_row {registry : Registry} {slot : Slot} {table : Table}
    (known : registry.tables[slot.tableId]? = some table) :
    registry.setRow slot (registry.row slot) = registry := by
  have sameTables : (registry.setRow slot (registry.row slot)).tables = registry.tables := by
    refine Std.ExtTreeMap.ext_getElem? fun id => ?_
    rw [getElem?_setRow]
    split
    · next here =>
        rw [here, known, Option.map_some, row_of_getElem? known, Table.setRow_row]
    · rfl
  exact congrArg Registry.mk sameTables

/-- Registries of one cleared form have tables of the same ids, which differ at most in their
rows. -/
theorem getElem?_of_cleared {first second : Registry} (sameCleared : first.cleared = second.cleared)
    {id : UInt32} {table : Table} (known : first.tables[id]? = some table) :
    ∃ table', second.tables[id]? = some table' ∧ table'.schema = table.schema ∧
      table'.batchSize = table.batchSize ∧ table'.matcher = table.matcher := by
  have clearedAt := congrArg (fun registry => registry.tables[id]?) sameCleared
  simp only [getElem?_cleared, known, Option.map_some] at clearedAt
  obtain ⟨table', known', sameTable⟩ := Option.map_eq_some_iff.mp clearedAt.symm
  obtain ⟨schema, -, -, batchSize, matcher⟩ := Table.mk.inj sameTable
  exact ⟨table', known', schema, batchSize, matcher⟩

theorem ids_eq_of_cleared {first second : Registry} (sameCleared : first.cleared = second.cleared) :
    first.ids = second.ids := by
  have idsCleared (registry : Registry) : registry.cleared.ids = registry.ids :=
    Std.ExtTreeMap.keys_map
  rw [← idsCleared first, sameCleared, idsCleared]

/-- A registry is known by its cleared form and by what its slots hold. -/
theorem ext_row {first second : Registry} (sameCleared : first.cleared = second.cleared)
    (sameRows : ∀ slot, first.row slot = second.row slot) : first = second := by
  have sameTables : first.tables = second.tables := by
    refine Std.ExtTreeMap.ext_getElem? fun id => ?_
    have clearedAt := congrArg (fun registry => registry.tables[id]?) sameCleared
    simp only [getElem?_cleared] at clearedAt
    cases one : first.tables[id]? with
    | none =>
        rw [one] at clearedAt
        exact (Option.map_eq_none_iff.mp clearedAt.symm).symm
    | some table =>
        rw [one, Option.map_some] at clearedAt
        obtain ⟨table', two, clearedTable⟩ := Option.map_eq_some_iff.mp clearedAt.symm
        rw [two]
        refine congrArg some (Table.ext_row clearedTable.symm fun place => ?_)
        rw [← row_of_getElem? one, ← row_of_getElem? two]
        exact sameRows ⟨id, place⟩
  cases first
  cases second
  exact congrArg Registry.mk sameTables

/-- Two registries that hold the same in the slots of interest. -/
structure AgreeOn (Own : Slot → Prop) (first second : Registry) : Prop where
  cleared : first.cleared = second.cleared
  rows : ∀ slot, Own slot → first.row slot = second.row slot

theorem AgreeOn.refl (Own : Slot → Prop) (registry : Registry) : AgreeOn Own registry registry :=
  ⟨rfl, fun _ _ => rfl⟩

/-- Setting a slot leaves every other one as it was. -/
theorem agreeOn_setRow (registry : Registry) (slot : Slot) (held : Option Row) :
    AgreeOn (· ≠ slot) (registry.setRow slot held) registry :=
  ⟨cleared_setRow registry slot held, fun _ ne => row_setRow_of_ne registry held ne⟩

/-- A table that is put back as it was changes nothing. -/
theorem withTable_of_getElem? {registry : Registry} {id : UInt32} {table : Table}
    (known : registry.tables[id]? = some table) : registry.withTable id table = registry := by
  have sameTables : (registry.withTable id table).tables = registry.tables := by
    refine Std.ExtTreeMap.ext_getElem? fun other => ?_
    simp only [withTable, Std.ExtTreeMap.getElem?_insert, Std.LawfulEqCmp.compare_eq_iff_eq]
    split
    · next same => rw [← same, known]
    · rfl
  exact congrArg Registry.mk sameTables

theorem withTable_setRow {registry : Registry} {id : UInt32} {table : Table}
    (known : registry.tables[id]? = some table) (place : Place) (held : Option Row) :
    registry.withTable id (table.setRow place held) = registry.setRow ⟨id, place⟩ held := by
  have sameTables : (registry.withTable id (table.setRow place held)).tables =
      (registry.setRow ⟨id, place⟩ held).tables := by
    refine Std.ExtTreeMap.ext_getElem? fun other => ?_
    rw [getElem?_setRow]
    simp only [withTable, Std.ExtTreeMap.getElem?_insert, Std.LawfulEqCmp.compare_eq_iff_eq,
      eq_comm (a := id)]
    split
    · next same => rw [same, known, Option.map_some]
    · rfl
  exact congrArg Registry.mk sameTables

end Registry

end MatchAction
