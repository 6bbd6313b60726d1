import MatchAction.Proofs.Representation
import Mathlib.Data.List.Dedup
import Mathlib.Data.List.Induction
import Mathlib.Data.List.Perm.Basic

/-!
# Definitions of tables

Schemas define the tables of a registry one after the other, and a later schema replaces the table of an
earlier one with the same id.  So each id that occurs has one table, as the last schema of that id says,
and there is a warning for every schema whose id has occurred before it.
-/

namespace MatchAction

/-- A table as a schema defines it: without rows, and with the schema's match fields in the order of their
ids, those of one id in the order of the schema. -/
structure Table.DefinedBy (table : Table) (schema : TableSchema) (config : Config) : Prop where
  schema_eq : table.schema = { schema with matchFields := table.schema.matchFields }
  perm : table.schema.matchFields.Perm schema.matchFields
  increasing : table.schema.matchFields.Pairwise fun a b => a.id ≤ b.id
  stable : ∀ id, table.schema.matchFields.filter (fun field => field.id = id) =
    schema.matchFields.filter fun field => field.id = id
  rows : table.rows = ∅
  defaultRow : table.defaultRow = none
  batchSize : table.batchSize = config.readBatchSize.toNat

theorem Table.definedBy_make (schema : TableSchema) (config : Config) :
    (make schema config.readBatchSize.toNat).DefinedBy schema config where
  schema_eq := rfl
  perm := List.mergeSort_perm _ _
  increasing := schema.pairwise_sorted
  stable id := filter_sort_by MatchField.id id schema.matchFields
  rows := rfl
  defaultRow := rfl
  batchSize := rfl

/-- The schemas whose ids occur in front of them too, in their order. -/
def TableSchema.repeated (schemas : List TableSchema) : List TableSchema :=
  (schemas.zipIdx.filter fun numbered =>
    (schemas.take numbered.2).any fun earlier => earlier.id = numbered.1.id).map Prod.fst

theorem TableSchema.repeated_concat (schemas : List TableSchema) (schema : TableSchema) :
    repeated (schemas ++ [schema]) =
      repeated schemas ++
        if schemas.any (fun earlier => earlier.id = schema.id) then [schema] else [] := by
  have front : (schemas.zipIdx.filter fun numbered => ((schemas ++ [schema]).take numbered.2).any
      fun earlier => earlier.id = numbered.1.id) =
      schemas.zipIdx.filter fun numbered => (schemas.take numbered.2).any
        fun earlier => earlier.id = numbered.1.id := by
    refine List.filter_congr fun numbered inside => ?_
    have before : numbered.2 < schemas.length := List.snd_lt_of_mem_zipIdx inside
    rw [List.take_append_of_le_length (Nat.le_of_lt before)]
  rw [repeated, List.zipIdx_append, List.filter_append, List.map_append, front, repeated]
  congr 1
  simp only [List.zipIdx_singleton, Nat.zero_add, List.filter_singleton, List.take_left]
  cases schemas.any fun earlier => earlier.id = schema.id <;> rfl

namespace Registry

/-- What the construction of a registry from schemas comes to. -/
structure DefinedBy (made : Logged) (schemas : List TableSchema) (config : Config) : Prop where
  known : ∀ id, (∃ table, made.1.tables[id]? = some table) ↔ ∃ schema ∈ schemas, schema.id = id
  last : ∀ id table, made.1.tables[id]? = some table →
    ∃ before schema after, schemas = before ++ schema :: after ∧ schema.id = id ∧
      (∀ later ∈ after, later.id ≠ id) ∧ table.DefinedBy schema config
  ids : made.1.ids.Perm (schemas.map TableSchema.id).dedup
  size : made.1.size = (schemas.map TableSchema.id).dedup.length
  events : made.2 = (TableSchema.repeated schemas).map (fun schema => .duplicateTable schema.id) ++
    [.tablesCreated made.1.size]
  lines : made.2.map Event.shortLine =
    (TableSchema.repeated schemas).map (fun schema =>
      s!"WARN duplicate table id {schema.id.toNat}, keeping the last definition") ++
    [s!"DEBUG created {made.1.size} tables"]

theorem contains_foldl_define (config : Config) (schemas : List TableSchema) (id : UInt32) :
    (schemas.foldl (define config) (empty, [])).1.tables.contains id =
      schemas.any fun schema => schema.id = id := by
  have none : empty.tables[id]? = none := Std.ExtTreeMap.getElem?_empty
  rw [Std.ExtTreeMap.contains_eq_isSome_getElem?, getElem?_foldl_define, none, Option.or_none,
    Option.isSome_map, List.isSome_find?, List.any_reverse]

theorem events_define (config : Config) (made : Logged) (schema : TableSchema) :
    (define config made schema).2 = made.2 ++
      if made.1.tables.contains schema.id then [.duplicateTable schema.id] else [] := rfl

/-- Every schema whose id has occurred is warned of when it comes. -/
theorem events_foldl_define (config : Config) (schemas : List TableSchema) :
    (schemas.foldl (define config) (empty, [])).2 =
      (TableSchema.repeated schemas).map fun schema => .duplicateTable schema.id := by
  induction schemas using List.reverseRecOn with
  | nil => rfl
  | append_singleton schemas schema ih =>
      rw [List.foldl_append, List.foldl_cons, List.foldl_nil, events_define, contains_foldl_define,
        ih, TableSchema.repeated_concat, List.map_append]
      cases schemas.any fun earlier => earlier.id = schema.id <;> rfl

theorem exists_getElem?_make_iff {schemas : List TableSchema} {config : Config} {id : UInt32} :
    (∃ table, (make schemas config).1.tables[id]? = some table) ↔
      ∃ schema ∈ schemas, schema.id = id := by
  rw [← Option.isSome_iff_exists, getElem?_make, Option.isSome_map, List.isSome_find?,
    List.any_reverse, List.any_eq_true]
  simp only [decide_eq_true_eq]

theorem ids_make_perm (schemas : List TableSchema) (config : Config) :
    (make schemas config).1.ids.Perm (schemas.map TableSchema.id).dedup := by
  refine (List.perm_ext_iff_of_nodup Std.ExtTreeMap.nodup_keys (List.nodup_dedup _)).mpr fun id => ?_
  rw [Std.ExtTreeMap.mem_keys, Std.ExtTreeMap.mem_iff_isSome_getElem?, Option.isSome_iff_exists,
    exists_getElem?_make_iff, List.mem_dedup, List.mem_map]

theorem events_make (schemas : List TableSchema) (config : Config) :
    (make schemas config).2 =
      (TableSchema.repeated schemas).map (fun schema => .duplicateTable schema.id) ++
        [.tablesCreated (make schemas config).1.size] := by
  rw [← events_foldl_define config schemas]
  rfl

/-- Of the schemas of one id the last one defines the table.  The log warns of every schema that takes the
place of an earlier one, and then tells the number of tables. -/
theorem tables_of_last_schemas (schemas : List TableSchema) (config : Config) :
    DefinedBy (make schemas config) schemas config where
  known _ := exists_getElem?_make_iff
  last _ _ known := by
    obtain ⟨before, schema, after, split, sameId, last, rfl⟩ := exists_last_of_getElem?_make known
    exact ⟨before, schema, after, split, sameId, last, Table.definedBy_make schema config⟩
  ids := ids_make_perm schemas config
  size := by
    rw [← (ids_make_perm schemas config).length_eq]
    exact Std.ExtTreeMap.length_keys.symm
  events := events_make schemas config
  lines := by
    rw [events_make, List.map_append, List.map_map]
    rfl

/-- The second schema of table 7 is the one that is kept. -/
example :
    let made := make [.make 7 "acl" [], .make 8 "nat" [], .make 7 "filter" []] .standard
    made.2.map Event.shortLine =
      ["WARN duplicate table id 7, keeping the last definition", "DEBUG created 2 tables"] ∧
    made.1.tables.values.map Table.name = ["filter", "nat"] := by
  decide +kernel

end Registry

end MatchAction
