import MatchAction.Proofs.Construction
import MatchAction.Proofs.Effect

/-!
# Representation

In every registry that operations lead to, the tables are still those of the construction, and every
row lies where its own entry belongs: a keyed row under the key of its entry's field matches, which
are sorted, and a default row, which has none, in its own slot.
-/

namespace MatchAction

section SortBy

variable {α : Type} (number : α → UInt32)

theorem le_by_trans (a b c : α) (first : decide (number a ≤ number b) = true)
    (second : decide (number b ≤ number c) = true) : decide (number a ≤ number c) = true :=
  decide_eq_true (UInt32.le_trans (of_decide_eq_true first) (of_decide_eq_true second))

theorem le_by_total (a b : α) :
    (decide (number a ≤ number b) || decide (number b ≤ number a)) = true := by
  simpa using UInt32.le_total (number a) (number b)

/-- Sorting by numbers puts the numbers in order. -/
theorem pairwise_sort_by (list : List α) :
    (list.mergeSort fun a b => number a ≤ number b).Pairwise fun a b => number a ≤ number b :=
  (List.pairwise_mergeSort (le_by_trans number) (le_by_total number) list).imp of_decide_eq_true

/-- Sorting by numbers leaves what has one number in its order. -/
theorem filter_sort_by (n : UInt32) (list : List α) :
    (list.mergeSort fun a b => number a ≤ number b).filter (fun a => number a = n) =
      list.filter fun a => number a = n := by
  have together : (list.filter fun a => number a = n).Pairwise
      fun a b => decide (number a ≤ number b) := by
    refine List.pairwise_of_forall_mem_list fun a insideA b insideB => ?_
    have numberA := of_decide_eq_true (List.mem_filter.mp insideA).2
    have numberB := of_decide_eq_true (List.mem_filter.mp insideB).2
    rw [numberA, numberB]
    exact decide_eq_true (UInt32.le_refl n)
  have kept : (list.filter fun a => number a = n).Sublist
      (list.mergeSort fun a b => number a ≤ number b) :=
    List.sublist_mergeSort (le_by_trans number) (le_by_total number) together List.filter_sublist
  have inside := kept.filter fun a => number a = n
  rw [List.filter_filter] at inside
  simp only [Bool.and_self] at inside
  refine (inside.eq_of_length ?_).symm
  exact ((List.mergeSort_perm list _).filter _).length_eq.symm

end SortBy

theorem FieldMatch.pairwise_sort (fieldMatches : List FieldMatch) :
    (FieldMatch.sort fieldMatches).Pairwise fun a b => a.fieldId ≤ b.fieldId :=
  pairwise_sort_by FieldMatch.fieldId fieldMatches

theorem FieldMatch.sort_of_pairwise {fieldMatches : List FieldMatch}
    (sorted : fieldMatches.Pairwise fun a b => a.fieldId ≤ b.fieldId) :
    FieldMatch.sort fieldMatches = fieldMatches :=
  List.mergeSort_of_pairwise (sorted.imp decide_eq_true)

theorem TableEntry.sorted_of_pairwise (entry : TableEntry)
    (sorted : entry.fieldMatches.Pairwise fun a b => a.fieldId ≤ b.fieldId) :
    entry.sorted = entry := by
  rw [TableEntry.sorted, FieldMatch.sort_of_pairwise sorted]

theorem TableSchema.pairwise_sorted (schema : TableSchema) :
    schema.sorted.matchFields.Pairwise fun a b => a.id ≤ b.id :=
  pairwise_sort_by MatchField.id schema.matchFields

theorem Key.derive_eq_ok {fieldCount : Nat} {fieldMatches : List FieldMatch} {key : Key} :
    Key.derive fieldCount fieldMatches = .ok key ↔
      fieldMatches.length ≤ fieldCount ∧ Digest.ofBytes (Key.image fieldMatches) = key := by
  unfold derive
  cases extra : fieldMatches[fieldCount]? with
  | none =>
      simp only [Except.ok.injEq, List.getElem?_eq_none_iff.mp extra, true_and]
  | some fieldMatch =>
      obtain ⟨bound, -⟩ := List.getElem?_eq_some_iff.mp extra
      simp only [reduceCtorEq, false_iff, not_and]
      omega

/-- A row in its place, in a table of the given id and number of match fields. -/
structure Row.Keyed (tableId : UInt32) (fieldCount : Nat) (key : Key) (row : Row) : Prop where
  ordinary : row.entry.isDefaultAction = false
  home : row.entry.tableId = tableId
  sorted : row.entry.fieldMatches.Pairwise fun a b => a.fieldId ≤ b.fieldId
  bounded : row.entry.fieldMatches.length ≤ fieldCount
  derived : Key.derive fieldCount row.entry.fieldMatches = .ok key

structure Row.Default (tableId : UInt32) (row : Row) : Prop where
  isDefault : row.entry.isDefaultAction = true
  home : row.entry.tableId = tableId
  bare : row.entry.fieldMatches = []

/-- A row lies where its entry belongs. -/
def Row.Fits (fieldCount : Nat) (slot : Slot) (row : Row) : Prop :=
  match slot.place with
  | .keyed key => row.Keyed slot.tableId fieldCount key
  | .default => row.Default slot.tableId

/-- Where a row belongs depends on its entry alone. -/
theorem Row.Fits.congr {fieldCount : Nat} {slot : Slot} {old row : Row}
    (fits : old.Fits fieldCount slot) (sameEntry : row.entry = old.entry) :
    row.Fits fieldCount slot := by
  obtain ⟨id, place⟩ := slot
  cases place with
  | default =>
      obtain ⟨isDefault, home, bare⟩ := fits
      rw [← sameEntry] at isDefault home bare
      exact ⟨isDefault, home, bare⟩
  | keyed key =>
      obtain ⟨ordinary, home, sorted, bounded, derived⟩ := fits
      rw [← sameEntry] at ordinary home sorted bounded derived
      exact ⟨ordinary, home, sorted, bounded, derived⟩

namespace Registry

/-- An entry that is stored at its key with its field matches sorted lies where it belongs. -/
theorem fits_sorted {registry : Registry} {entry : TableEntry} {slot : Slot} {table : Table}
    (ordinary : entry.isDefaultAction = false) (addressed : registry.keyedSlot entry = .ok slot)
    (known : registry.tables[slot.tableId]? = some table) {row : Row}
    (stored : row.entry = entry.sorted) : row.Fits table.schema.matchFields.length slot := by
  obtain ⟨table', key, known', derived, rfl⟩ := keyedSlot_eq_ok addressed
  cases known.symm.trans known'
  have sortedDerived : Key.derive table.schema.matchFields.length entry.sorted.fieldMatches =
      .ok key := derived
  refine ⟨?_, ?_, ?_, ?_, ?_⟩
  · rw [stored]
    exact ordinary
  · rw [stored]
    rfl
  · rw [stored]
    exact FieldMatch.pairwise_sort entry.fieldMatches
  · rw [stored]
    exact (Key.derive_eq_ok.mp sortedDerived).1
  · rw [stored]
    exact sortedDerived

/-- What a mutation puts into its slot belongs there. -/
theorem fits_effect {registry : Registry} {mutation : Mutation} {slot : Slot} {table : Table}
    (addressed : registry.slot mutation = .ok slot)
    (known : registry.tables[slot.tableId]? = some table)
    (before : ∀ old, registry.row slot = some old → old.Fits table.schema.matchFields.length slot)
    {row : Row} (done : mutation.effect (registry.row slot) = .ok (some row)) :
    row.Fits table.schema.matchFields.length slot := by
  rcases Mutation.entry_of_effect done with ⟨entry, insert, rfl, stored⟩ | ⟨old, held, sameEntry⟩
  · cases isDefault : entry.isDefaultAction with
    | true =>
        have notKeyed : (Mutation.modifyEntry entry insert).keyedEntry = none := if_pos isDefault
        obtain ⟨entry', table', same, -, bare, -, rfl⟩ :=
          slot_eq_ok_of_not_keyed addressed notKeyed
        cases same
        rw [isDefault, if_pos rfl] at stored
        refine ⟨?_, ?_, ?_⟩ <;> rw [stored]
        · exact isDefault
        · exact bare
    | false =>
        have ordinary : ¬ entry.isDefaultAction = true := Bool.eq_false_iff.mp isDefault
        have keyed : (Mutation.modifyEntry entry insert).keyedEntry = some entry := if_neg ordinary
        rw [slot_of_keyedEntry registry keyed] at addressed
        rw [if_neg ordinary] at stored
        exact fits_sorted isDefault addressed known stored
  · exact (before old held).congr sameEntry

/-- Every row of the registry lies where its entry belongs. -/
def Sound (registry : Registry) : Prop :=
  ∀ slot table row, registry.tables[slot.tableId]? = some table → registry.row slot = some row →
    row.Fits table.schema.matchFields.length slot

theorem sound_make (schemas : List TableSchema) (config : Config) :
    Sound (make schemas config).1 := by
  intro slot table row known held
  rw [row_make] at held
  cases held

theorem sound_perform (registry : Registry) (operation : Operation) (sound : Sound registry) :
    Sound (registry.perform operation).2 := by
  rcases registry.perform_cases operation with
    unchanged | ⟨mutation, slot, held, addressed, done, performed⟩
  · rw [unchanged]
    exact sound
  · rw [performed]
    intro other table row known inside
    obtain ⟨table', known', sameSchema, -, -⟩ :=
      getElem?_of_cleared (cleared_setRow registry slot held) known
    rw [← sameSchema]
    by_cases same : other = slot
    · subst same
      rw [row_setRow_self known'] at inside
      subst inside
      exact fits_effect addressed known' (fun old => sound other table' old known') done
    · rw [row_setRow_of_ne registry held same] at inside
      exact sound other table' row known' inside

theorem sound_run (schemas : List TableSchema) (config : Config) (operations : List Operation) :
    Sound ((make schemas config).1.run operations).2 :=
  run_invariant sound_perform (sound_make schemas config) operations

/-- A table as the construction made it, but for rows that lie where they belong. -/
structure Represents (schemas : List TableSchema) (config : Config) (id : UInt32) (table : Table) :
    Prop where
  home : table.id = id
  /-- The construction chose one of the schemas for the id, and the table still has it. -/
  made : ∃ schema ∈ schemas, table.schema = schema.sorted ∧ (make schemas config).1.tables[id]? =
    some (Table.make schema config.readBatchSize.toNat)
  sortedFields : table.schema.matchFields.Pairwise fun a b => a.id ≤ b.id
  batchSize : table.batchSize = config.readBatchSize.toNat
  keyed : ∀ (key : Key) (row : Row), table.rows[key]? = some row →
    row.Keyed table.id table.schema.matchFields.length key
  default : ∀ row, table.defaultRow = some row → row.Default table.id
  distinct : ∀ (key key' : Key) (row row' : Row), table.rows[key]? = some row →
    table.rows[key']? = some row' → row.entry.fieldMatches = row'.entry.fieldMatches → key = key'

/-- Whatever operations are performed, a registry keeps the tables of its construction, and in each
table the keyed rows lie under the keys of their own field matches, so that no two have the same. -/
theorem run_represents (schemas : List TableSchema) (config : Config)
    (operations : List Operation) :
    ((make schemas config).1.run operations).2.ids = (make schemas config).1.ids ∧
    ∀ (id : UInt32) (table : Table),
      ((make schemas config).1.run operations).2.tables[id]? = some table →
      Represents schemas config id table := by
  have sameCleared := cleared_run (make schemas config).1 operations
  refine ⟨ids_eq_of_cleared sameCleared, fun id table known => ?_⟩
  obtain ⟨made, knownMade, sameSchema, sameBatchSize, -⟩ := getElem?_of_cleared sameCleared known
  obtain ⟨schema, isSchema, sameId, rfl⟩ := exists_schema_of_getElem?_make knownMade
  have home : table.id = id := (congrArg TableSchema.id sameSchema).symm.trans sameId
  have sound := sound_run schemas config operations
  have keyed (key : Key) (row : Row) (held : table.rows[key]? = some row) :
      row.Keyed table.id table.schema.matchFields.length key := by
    rw [home]
    exact sound ⟨id, .keyed key⟩ table row known ((row_of_getElem? known _).trans held)
  have default (row : Row) (held : table.defaultRow = some row) : row.Default table.id := by
    rw [home]
    exact sound ⟨id, .default⟩ table row known ((row_of_getElem? known _).trans held)
  refine ⟨home, ⟨schema, isSchema, sameSchema.symm, knownMade⟩, ?_, sameBatchSize.symm, keyed,
    default, ?_⟩
  · rw [← sameSchema]
    exact schema.pairwise_sorted
  · intro key key' row row' held held' sameMatches
    have derived := (keyed key row held).derived
    rw [sameMatches] at derived
    exact Except.ok.inj (derived.symm.trans (keyed key' row' held').derived)

/-- After a host was inserted, its table is as the construction made it, but for one row. -/
theorem access_list_represented :
    ∃ table, (accessRegistry.run [.mutate (.modifyEntry (host 1) true)]).2.tables[(7 : UInt32)]? =
      some table ∧ table.size = 1 ∧ Represents [accessList] .standard 7 table := by
  have sized : ((accessRegistry.run [.mutate (.modifyEntry (host 1) true)]).2.tables[
      (7 : UInt32)]?.map Table.size) = some 1 := by decide +kernel
  obtain ⟨table, known, size⟩ := Option.map_eq_some_iff.mp sized
  exact ⟨table, known, size,
    (run_represents [accessList] .standard [.mutate (.modifyEntry (host 1) true)]).2 7 table known⟩

end Registry

end MatchAction
