import MatchAction.Proofs.Construction
import MatchAction.Proofs.Delivery
import MatchAction.Proofs.Effect
import MatchAction.Proofs.Maps
import MatchAction.Proofs.PlainStore
import Mathlib.Data.Set.Function

/-!
# Refinement

The table store refines the plain store: as long as no two of the byte strings that a run looks for
have the same digest, every operation has the same result in both, and after every operation both
show the same.  What relates the two is that a table holds under a digest what the plain table holds
under the bytes of that digest.
-/

namespace MatchAction

/-! ## What the stores show -/

/-- The bytes by which the plain store looks for a keyed row, of a mutation that does. -/
def Mutation.image (mutation : Mutation) : Option Bytes := mutation.keyedEntry.map Plain.image

def Operation.image : Operation → Option Bytes
  | mutate mutation => mutation.image
  | write update => update.mutation.toOption.bind Mutation.image
  | read .. => none

/-- No two different byte strings among those that the operations look for have the same digest. -/
def Collisionless (operations : List Operation) : Prop :=
  ∀ first ∈ operations.filterMap Operation.image, ∀ second ∈ operations.filterMap Operation.image,
    Digest.ofBytes first = Digest.ofBytes second → first = second

/-- If the operation is a read, its sender refuses nothing. -/
def Operation.Willing : Operation → Prop
  | mutate _ | write _ => True
  | read _ _ answer => ∀ call, answer call = none

/-- All entities that the sender of a read took. -/
def Outcome.entities (outcome : Outcome) : List Entity :=
  (outcome.calls.filter fun call => call.refusal.isNone).flatMap fun call => call.batch.toList

/-- The entities are those of the listing, that of the default row last. -/
def Plain.Listing.Permits (listing : Plain.Listing) (entities : List Entity) : Prop :=
  ∃ keyed, keyed.Perm listing.keyed ∧ entities = keyed ++ listing.default.toList

/-- The results are equal, and what was delivered is one table's listing after the other's. -/
structure Outcome.Refines (outcome : Outcome) (plain : Plain.Outcome) : Prop where
  result : outcome.result = plain.result
  delivered : ∃ parts, List.Forall₂ Plain.Listing.Permits plain.listings parts ∧
    outcome.entities = parts.flatten

/-- The registries have tables of the same ids and sizes, and each read delivers the same. -/
structure Registry.ShowsSame (registry : Registry) (plain : Plain.Registry) : Prop where
  ids : registry.ids = plain.ids
  sizes : ∀ id : UInt32,
    registry.tables[id]?.map Table.size = plain.tables[id]?.map Plain.Table.size
  reads : ∀ request type answer, (Operation.read request type answer).Willing →
    (registry.perform (.read request type answer)).1.Refines
      (plain.perform (.read request type answer)).1

/-! ## The relation -/

/-- Two computations fail with the same error, or give related results. -/
inductive Agree {α β : Type} (Related : α → β → Prop) : Except Error α → Except Error β → Prop where
  | error (error : Error) : Agree Related (.error error) (.error error)
  | ok {first : α} {second : β} (related : Related first second) :
      Agree Related (.ok first) (.ok second)

/-- The table holds under a digest what the plain table holds under the bytes of that digest.  Every
byte string that the plain table holds a row under is one of those seen. -/
structure Table.Refines (Seen : Set Bytes) (table : Table) (plain : Plain.Table) : Prop where
  fieldCount : table.schema.matchFields.length = plain.fieldCount
  matcher : table.matcher = Matcher.all
  defaultRow : table.defaultRow = plain.defaultRow
  rows : ∀ (key : Key) (row : Row), table.rows[key]? = some row ↔
    ∃ bytes : Bytes, Digest.ofBytes bytes = key ∧ plain.rows[bytes]? = some row
  seen : ∀ (bytes : Bytes) (row : Row), plain.rows[bytes]? = some row → bytes ∈ Seen

def Registry.Refines (Seen : Set Bytes) (registry : Registry) (plain : Plain.Registry) : Prop :=
  ∀ id : UInt32, Option.Rel (Table.Refines Seen) registry.tables[id]? plain.tables[id]?

variable {Seen : Set Bytes}

/-! ## Tables -/

namespace Table

variable {table : Table} {plain : Plain.Table}

theorem refines_make (schema : TableSchema) (batchSize : Nat) :
    (make schema batchSize).Refines Seen (.make schema.matchFields.length) where
  fieldCount := List.length_mergeSort _
  matcher := rfl
  defaultRow := rfl
  rows := by
    intro key row
    simp only [make, Plain.Table.make, Std.ExtTreeMap.getElem?_empty, reduceCtorEq, and_false,
      exists_false]
  seen := by
    intro bytes row held
    simp only [Plain.Table.make, Std.ExtTreeMap.getElem?_empty, reduceCtorEq] at held

theorem Refines.row_eq (refines : table.Refines Seen plain) (apart : Set.InjOn Digest.ofBytes Seen)
    {bytes : Bytes} (seen : bytes ∈ Seen) :
    table.row (.keyed (Digest.ofBytes bytes)) = plain.rows[bytes]? := by
  refine Option.ext fun row => (refines.rows (Digest.ofBytes bytes) row).trans ?_
  constructor
  · rintro ⟨other, sameDigest, held⟩
    rw [← apart (refines.seen other row held) seen sameDigest]
    exact held
  · exact fun held => ⟨bytes, rfl, held⟩

theorem Refines.rows_setRow (refines : table.Refines Seen plain)
    (apart : Set.InjOn Digest.ofBytes Seen) {bytes : Bytes} (seen : bytes ∈ Seen)
    (held : Option Row) (key : Key) (row : Row) :
    (table.setRow (.keyed (Digest.ofBytes bytes)) held).rows[key]? = some row ↔
      ∃ other : Bytes, Digest.ofBytes other = key ∧
        (plain.setRow bytes held).rows[other]? = some row := by
  have tableAt := table.row_setRow (.keyed (Digest.ofBytes bytes)) (.keyed key) held
  simp only [Table.row, Place.keyed.injEq] at tableAt
  simp only [tableAt, Plain.Table.getElem?_setRow]
  by_cases same : key = Digest.ofBytes bytes
  · rw [if_pos same]
    constructor
    · intro inside
      refine ⟨bytes, same.symm, ?_⟩
      rw [if_pos rfl]
      exact inside
    · -- Other bytes of the same digest hold no row, since they would be among those seen.
      rintro ⟨other, digest, inside⟩
      by_cases sameBytes : bytes = other
      · rw [if_pos sameBytes] at inside
        exact inside
      · rw [if_neg sameBytes] at inside
        have seenOther := refines.seen other row inside
        exact absurd (apart seen seenOther (same.symm.trans digest.symm)) sameBytes
  · rw [if_neg same, refines.rows]
    refine exists_congr fun other => and_congr_right fun digest => ?_
    have differ : bytes ≠ other := by
      rintro rfl
      exact same digest.symm
    rw [if_neg differ]

/-- Related tables stay related when both hold something else for the same bytes. -/
theorem Refines.setRow (refines : table.Refines Seen plain) (apart : Set.InjOn Digest.ofBytes Seen)
    {bytes : Bytes} (seen : bytes ∈ Seen) (held : Option Row) :
    (table.setRow (.keyed (Digest.ofBytes bytes)) held).Refines Seen (plain.setRow bytes held) := by
  obtain ⟨schema, matcher, defaultRow⟩ :
      (table.setRow (.keyed (Digest.ofBytes bytes)) held).schema = table.schema ∧
      (table.setRow (.keyed (Digest.ofBytes bytes)) held).matcher = table.matcher ∧
      (table.setRow (.keyed (Digest.ofBytes bytes)) held).defaultRow = table.defaultRow := by
    cases held <;> exact ⟨rfl, rfl, rfl⟩
  refine ⟨?_, matcher.trans refines.matcher, defaultRow.trans refines.defaultRow,
    refines.rows_setRow apart seen held, ?_⟩
  · rw [schema]
    exact refines.fieldCount
  · intro other row inside
    rw [Plain.Table.getElem?_setRow] at inside
    by_cases sameBytes : bytes = other
    · rw [← sameBytes]
      exact seen
    · rw [if_neg sameBytes] at inside
      exact refines.seen other row inside

theorem Refines.keyOf_eq (refines : table.Refines Seen plain) (entry : TableEntry) :
    table.keyOf entry.fieldMatches = (plain.place entry).map Digest.ofBytes := by
  simp only [keyOf, Key.ofMatches, Key.derive, Plain.Table.place, refines.fieldCount]
  cases (FieldMatch.sort entry.fieldMatches)[plain.fieldCount]? <;> rfl

/-- A mutation that looks for the row of an entry has the same result in related tables. -/
theorem Refines.change (refines : table.Refines Seen plain) (apart : Set.InjOn Digest.ofBytes Seen)
    {mutation : Mutation} {entry : TableEntry} (keyed : mutation.keyedEntry = some entry)
    (seen : Plain.image entry ∈ Seen) :
    Agree (Table.Refines Seen) (table.applyEffect mutation) (plain.change entry mutation.effect) := by
  simp only [applyEffect, place_of_keyedEntry keyed, keyedPlace, Plain.Table.change,
    refines.keyOf_eq]
  cases place : plain.place entry with
  | error error => exact .error error
  | ok bytes =>
      have sameBytes : Plain.image entry = bytes := by
        unfold Plain.Table.place at place
        split at place
        · cases place
        · exact Except.ok.inj place
      rw [sameBytes] at seen
      simp only [Except.map, bind, Except.bind, refines.row_eq apart seen]
      cases mutation.effect plain.rows[bytes]? with
      | error error => exact .error error
      | ok held => exact .ok (refines.setRow apart seen held)

theorem Refines.setDefault (refines : table.Refines Seen plain) {entry : TableEntry}
    (isDefault : entry.isDefaultAction = true) :
    Agree (Table.Refines Seen) (table.applyEffect (.modifyEntry entry false))
      (plain.setDefault entry) := by
  simp only [applyEffect, Table.place, Mutation.effect, isDefault, Plain.Table.setDefault,
    ↓reduceIte, Bool.false_eq_true]
  by_cases bare : entry.fieldMatches = []
  · rw [if_pos (List.isEmpty_iff.mpr bare), if_pos bare]
    exact .ok ⟨refines.fieldCount, refines.matcher, rfl, refines.rows, refines.seen⟩
  · rw [if_neg (mt List.isEmpty_iff.mp bare), if_neg bare]
    exact .error _

/-- The rows of related tables are the same, those under a key in perhaps another order. -/
theorem Refines.values_perm (refines : table.Refines Seen plain)
    (apart : Set.InjOn Digest.ofBytes Seen) : table.rows.values.Perm plain.rows.values := by
  refine Maps.values_perm_of_renamed Digest.ofBytes ?_ refines.rows
  intro first second row row' held held' sameDigest
  exact apart (refines.seen first row held) (refines.seen second row' held') sameDigest

theorem Refines.size_eq (refines : table.Refines Seen plain)
    (apart : Set.InjOn Digest.ofBytes Seen) : table.size = plain.size := by
  have rows := (refines.values_perm apart).length_eq
  rw [Maps.length_values, Maps.length_values] at rows
  simp only [size, Plain.Table.size, rows, refines.defaultRow]

/-- Since the matcher lets every row through, a read delivers what the plain store lists. -/
theorem Refines.listing (refines : table.Refines Seen plain)
    (apart : Set.InjOn Digest.ofBytes Seen) (request : TableEntry) (type : ReadType) :
    (plain.listing type).Permits (table.listing request type) := by
  refine ⟨table.rows.values.map fun row => row.entity type, (refines.values_perm apart).map _, ?_⟩
  simp only [Table.listing, answers_of_all refines.matcher, List.map_append, refines.defaultRow,
    Plain.Table.listing, Option.toList_map]

end Table

/-! ## Registries -/

namespace Plain.Registry

/-- A mutation that looks for a keyed row changes, in the table that its entry names, what is kept
for the entry. -/
theorem mutate_of_keyed (plain : Registry) {mutation : Mutation} {entry : TableEntry}
    (keyed : mutation.keyedEntry = some entry) :
    plain.mutate mutation =
      plain.onTable entry.tableId fun table => table.change entry mutation.effect := by
  cases Mutation.keying_of_eq keyed with
  | modifyEntry ordinary insert =>
      refine congrArg (plain.onTable entry.tableId) (funext fun table => ?_)
      have notDefault := Bool.eq_false_iff.mp ordinary
      cases insert with
      | true =>
          refine (if_neg notDefault).trans (congrArg (table.change entry) (funext fun held => ?_))
          cases held <;> exact (if_neg notDefault).symm
      | false =>
          refine (if_neg notDefault).trans (congrArg (table.change entry) (funext fun held => ?_))
          cases held <;> exact (if_neg notDefault).symm
  | removeEntry ordinary =>
      refine congrArg (plain.onTable entry.tableId) (funext fun table => ?_)
      exact if_neg (Bool.eq_false_iff.mp ordinary)
  | modifyCounter counter =>
      refine congrArg (plain.onTable counter.tableEntry.tableId) (funext fun table => ?_)
      refine congrArg (table.change counter.tableEntry) (funext fun held => ?_)
      cases held <;> rfl
  | modifyMeter meter =>
      refine congrArg (plain.onTable meter.tableEntry.tableId) (funext fun table => ?_)
      refine congrArg (table.change meter.tableEntry) (funext fun held => ?_)
      cases held <;> rfl

end Plain.Registry

namespace Registry

variable {registry : Registry} {plain : Plain.Registry}

theorem Refines.withTable (refines : registry.Refines Seen plain) {id : UInt32} {table : Table}
    {plainTable : Plain.Table} (tables : table.Refines Seen plainTable) :
    (registry.withTable id table).Refines Seen ⟨plain.tables.insert id plainTable⟩ := by
  intro other
  simp only [Registry.withTable, Std.ExtTreeMap.getElem?_insert, Std.LawfulEqCmp.compare_eq_iff_eq]
  by_cases same : id = other
  · rw [if_pos same, if_pos same]
    exact .some tables
  · rw [if_neg same, if_neg same]
    exact refines other

theorem refines_make (schemas : List TableSchema) (config : Config) :
    (make schemas config).1.Refines Seen (.make schemas) := by
  have folded (made : Logged) (plain : Plain.Registry) (refines : made.1.Refines Seen plain) :
      (schemas.foldl (define config) made).1.Refines Seen (schemas.foldl .define plain) := by
    induction schemas generalizing made plain with
    | nil => exact refines
    | cons schema rest ih =>
        refine ih (define config made schema) (plain.define schema) ?_
        exact refines.withTable (Table.refines_make schema config.readBatchSize.toNat)
  refine folded (empty, []) ⟨∅⟩ fun id => ?_
  simp only [empty, Std.ExtTreeMap.getElem?_empty]
  exact .none

/-- Changes of tables that agree in related tables agree in related registries. -/
theorem Refines.onTable (refines : registry.Refines Seen plain) (id : UInt32)
    {change : Table → Except Error Table} {plainChange : Plain.Table → Except Error Plain.Table}
    (agree : ∀ table plainTable, table.Refines Seen plainTable →
      Agree (Table.Refines Seen) (change table) (plainChange plainTable)) :
    Agree (Registry.Refines Seen)
      (do
        let table ← registry.table id
        let changed ← change table
        return registry.withTable id changed)
      (plain.onTable id plainChange) := by
  have related := refines id
  simp only [table_eq, Plain.Registry.onTable]
  generalize registry.tables[id]? = found at related
  generalize plain.tables[id]? = plainFound at related
  cases related with
  | none => exact .error _
  | @some table plainTable tables =>
      have agreed := agree table plainTable tables
      simp only [Option.elim, bind, Except.bind]
      generalize change table = changed at agreed
      generalize plainChange plainTable = plainChanged at agreed
      cases agreed with
      | error error => exact .error error
      | ok changed => exact .ok (refines.withTable changed)

theorem Refines.mutate (refines : registry.Refines Seen plain)
    (apart : Set.InjOn Digest.ofBytes Seen) {mutation : Mutation}
    (seen : ∀ bytes, mutation.image = some bytes → bytes ∈ Seen) :
    Agree (Registry.Refines Seen) (registry.applyEffect mutation) (plain.mutate mutation) := by
  rw [applyEffect_eq]
  cases keyed : mutation.keyedEntry with
  | some entry =>
      have seenEntry : Plain.image entry ∈ Seen := by
        refine seen _ ?_
        rw [Mutation.image, keyed, Option.map_some]
      obtain ⟨admitted, sameEntry⟩ := Mutation.admitted_of_keyedEntry keyed
      rw [plain.mutate_of_keyed keyed, admitted, sameEntry]
      exact refines.onTable entry.tableId fun _ _ tables => tables.change apart keyed seenEntry
  | none =>
      cases Mutation.keying_of_eq keyed with
      | @modifyDefault entry isDefault insert =>
          refine refines.onTable entry.tableId fun table plainTable tables => ?_
          cases insert with
          | true =>
              simp only [Table.applyEffect, Table.place, isDefault, Plain.Table.insert, ↓reduceIte]
              exact .error _
          | false =>
              simp only [isDefault, Plain.Table.modify, ↓reduceIte]
              exact tables.setDefault isDefault
      | @removeDefault entry isDefault =>
          refine refines.onTable entry.tableId fun table plainTable tables => ?_
          simp only [Table.applyEffect, Table.place, isDefault, Plain.Table.remove, ↓reduceIte]
          exact .error _
      | insertCounter entry => exact .error _
      | insertMeter entry => exact .error _

theorem Refines.asked (refines : registry.Refines Seen plain) (request : TableEntry) :
    Agree (List.Forall₂ (Table.Refines Seen)) (registry.asked request) (plain.asked request) := by
  unfold Registry.asked Plain.Registry.asked
  by_cases wildcard : request.tableId = 0
  · rw [if_pos wildcard, if_pos wildcard]
    exact .ok (Maps.forall₂_values refines)
  · rw [if_neg wildcard, if_neg wildcard, table_eq]
    have related := refines request.tableId
    generalize registry.tables[request.tableId]? = found at related
    generalize plain.tables[request.tableId]? = plainFound at related
    cases related with
    | none => exact .error _
    | some tables => exact .ok (.cons tables .nil)

/-- The entities that a willing sender takes for tables are the listings of related tables. -/
theorem permits_of_tables {tables : List Table} {plainTables : List Plain.Table}
    (related : List.Forall₂ (Table.Refines Seen) tables plainTables)
    (apart : Set.InjOn Digest.ofBytes Seen) (request : TableEntry) (type : ReadType) :
    List.Forall₂ Plain.Listing.Permits (plainTables.map fun table => table.listing type)
      (tables.map fun table => table.listing request type) := by
  rw [List.forall₂_map_left_iff, List.forall₂_map_right_iff]
  exact related.flip.imp fun _ _ refines => refines.listing apart request type

theorem Refines.read (refines : registry.Refines Seen plain)
    (apart : Set.InjOn Digest.ofBytes Seen) (request : TableEntry) (type : ReadType)
    {answer : Nat → Option String} (willing : (Operation.read request type answer).Willing) :
    (registry.perform (.read request type answer)).1.Refines
      (plain.perform (.read request type answer)).1 := by
  have agreed := refines.asked request
  generalize asked : registry.asked request = tables at agreed
  generalize plainAsked : plain.asked request = plainTables at agreed
  rw [perform_read]
  cases agreed with
  | error error =>
      simp only [read_of_not_asked asked, Plain.Registry.perform, Plain.Registry.read, plainAsked]
      exact ⟨rfl, [], .nil, rfl⟩
  | @ok tables plainTables related =>
      have willingSender : (Sender.fresh answer).Willing := willing
      obtain ⟨readOk, took⟩ := read_of_willing asked type willingSender
      simp only [Plain.Registry.perform, Plain.Registry.read, plainAsked]
      refine ⟨readOk, _, permits_of_tables related apart request type, ?_⟩
      have delivered := took.delivered
      rw [Sender.delivered_fresh, List.flatten_nil, List.nil_append] at delivered
      exact delivered

theorem Refines.performMutation (refines : registry.Refines Seen plain)
    (apart : Set.InjOn Digest.ofBytes Seen) {mutation : Mutation}
    (seen : ∀ bytes, mutation.image = some bytes → bytes ∈ Seen) :
    (registry.perform (.mutate mutation)).1.Refines (plain.perform (.mutate mutation)).1 ∧
      (registry.perform (.mutate mutation)).2.Refines Seen
        (plain.perform (.mutate mutation)).2 := by
  have agreed := refines.mutate apart seen
  rw [perform_mutate, Plain.Registry.perform]
  generalize registry.applyEffect mutation = changed at agreed
  generalize plain.mutate mutation = plainChanged at agreed
  cases agreed with
  | error error => exact ⟨⟨rfl, [], .nil, rfl⟩, refines⟩
  | ok next => exact ⟨⟨rfl, [], .nil, rfl⟩, next⟩

/-- An operation has the same result in related registries and leaves them related. -/
theorem Refines.perform (refines : registry.Refines Seen plain)
    (apart : Set.InjOn Digest.ofBytes Seen) {operation : Operation}
    (willing : operation.Willing) (seen : ∀ bytes, operation.image = some bytes → bytes ∈ Seen) :
    (registry.perform operation).1.Refines (plain.perform operation).1 ∧
      (registry.perform operation).2.Refines Seen (plain.perform operation).2 := by
  cases operation with
  | mutate mutation => exact refines.performMutation apart seen
  | write update =>
      cases stands : update.mutation with
      | error error =>
          rw [perform_write_of_refused stands, Plain.Registry.perform, stands]
          exact ⟨⟨rfl, [], .nil, rfl⟩, refines⟩
      | ok mutation =>
          have plainStands : plain.perform (.write update) = plain.perform (.mutate mutation) := by
            simp only [Plain.Registry.perform, stands]
            rfl
          rw [perform_write_eq stands, plainStands]
          refine refines.performMutation apart fun bytes same => seen bytes ?_
          rw [Operation.image, stands]
          exact same
  | read request type answer =>
      refine ⟨refines.read apart request type willing, ?_⟩
      rw [perform_read]
      exact refines

theorem Refines.run (refines : registry.Refines Seen plain)
    (apart : Set.InjOn Digest.ofBytes Seen) {operations : List Operation}
    (willing : ∀ operation ∈ operations, operation.Willing)
    (seen : ∀ operation ∈ operations, ∀ bytes, operation.image = some bytes → bytes ∈ Seen) :
    List.Forall₂ Outcome.Refines (registry.run operations).1 (plain.run operations).1 ∧
      (registry.run operations).2.Refines Seen (plain.run operations).2 := by
  induction operations generalizing registry plain with
  | nil => exact ⟨.nil, refines⟩
  | cons operation rest ih =>
      obtain ⟨outcome, next⟩ := refines.perform apart (willing operation List.mem_cons_self)
        (seen operation List.mem_cons_self)
      obtain ⟨outcomes, last⟩ := ih next
        (fun later inside => willing later (List.mem_cons_of_mem _ inside))
        (fun later inside => seen later (List.mem_cons_of_mem _ inside))
      exact ⟨.cons outcome outcomes, last⟩

theorem Refines.showsSame (refines : registry.Refines Seen plain)
    (apart : Set.InjOn Digest.ofBytes Seen) : registry.ShowsSame plain where
  ids := Maps.keys_congr fun id => Maps.isSome_eq_of_rel (refines id)
  sizes := by
    intro id
    have related := refines id
    generalize registry.tables[id]? = found at related
    generalize plain.tables[id]? = plainFound at related
    cases related with
    | none => rfl
    | some tables => exact congrArg some (tables.size_eq apart)
  reads := fun request type _ willing => refines.read apart request type willing

/-- The table store and the plain store cannot be told apart.  In every run from construction, in
which reads are not refused and no two of the byte strings looked for have the same digest, every
operation has the same result in both, and after any number of operations both show the same. -/
theorem run_refines_plain (schemas : List TableSchema) (config : Config)
    (operations : List Operation) (willing : ∀ operation ∈ operations, operation.Willing)
    (collisionless : Collisionless operations) (count : Nat) :
    List.Forall₂ Outcome.Refines ((make schemas config).1.run (operations.take count)).1
        ((Plain.Registry.make schemas).run (operations.take count)).1 ∧
      ((make schemas config).1.run (operations.take count)).2.ShowsSame
        ((Plain.Registry.make schemas).run (operations.take count)).2 := by
  have apart : Set.InjOn Digest.ofBytes {bytes | bytes ∈ operations.filterMap Operation.image} :=
    fun first seen second seen' => collisionless first seen second seen'
  have seen : ∀ operation ∈ operations.take count, ∀ bytes, operation.image = some bytes →
      bytes ∈ {bytes | bytes ∈ operations.filterMap Operation.image} := by
    intro operation inside bytes same
    exact List.mem_filterMap.mpr ⟨operation, List.mem_of_mem_take inside, same⟩
  obtain ⟨outcomes, last⟩ := (refines_make schemas config).run apart
    (fun operation inside => willing operation (List.mem_of_mem_take inside)) seen
  exact ⟨outcomes, last.showsSame apart⟩

/-- Two hosts are inserted, and what is stored of them is read. -/
def twoHosts : List Operation :=
  [.mutate (.modifyEntry (host 1) true), .write ⟨.insert, .tableEntry (host 2)⟩,
    .read (host 1) .directCounter fun _ => none]

/-- The keys of the two hosts differ, so the plain store shows the same of them. -/
theorem two_hosts_refine_plain :
    Collisionless twoHosts ∧
    List.Forall₂ Outcome.Refines (accessRegistry.run twoHosts).1
      ((Plain.Registry.make [accessList]).run twoHosts).1 ∧
    (accessRegistry.run twoHosts).2.ShowsSame
      ((Plain.Registry.make [accessList]).run twoHosts).2 := by
  have collisionless : Collisionless twoHosts := by
    unfold Collisionless
    decide +kernel
  have willing : ∀ operation ∈ twoHosts, operation.Willing := by
    simp only [twoHosts, List.mem_cons, List.not_mem_nil, or_false]
    rintro operation (rfl | rfl | rfl)
    · trivial
    · trivial
    · exact fun _ => rfl
  exact ⟨collisionless, run_refines_plain [accessList] .standard twoHosts willing collisionless 3⟩

end Registry

end MatchAction
