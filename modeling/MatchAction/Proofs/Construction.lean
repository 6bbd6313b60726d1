import MatchAction.Proofs.Slot

/-!
# Construction

A new registry has an empty table for each id of its schemas, made from the last schema of that id.
-/

namespace MatchAction

namespace Registry

theorem getElem?_define (config : Config) (made : Logged) (schema : TableSchema) (id : UInt32) :
    (define config made schema).1.tables[id]? =
      if schema.id = id then some (Table.make schema config.readBatchSize.toNat)
      else made.1.tables[id]? := by
  have sameId : (Table.make schema config.readBatchSize.toNat).id = schema.id := rfl
  simp only [define, Std.ExtTreeMap.getElem?_insert, Std.LawfulEqCmp.compare_eq_iff_eq, sameId]

/-- Of the schemas of one id the last one counts, and before all of them what was there already. -/
theorem getElem?_foldl_define (config : Config) (made : Logged) (schemas : List TableSchema)
    (id : UInt32) :
    (schemas.foldl (define config) made).1.tables[id]? =
      ((schemas.reverse.find? fun schema => schema.id = id).map
        fun schema => Table.make schema config.readBatchSize.toNat).or made.1.tables[id]? := by
  induction schemas generalizing made with
  | nil => rfl
  | cons schema rest ih =>
      rw [List.foldl_cons, ih, getElem?_define, List.reverse_cons, List.find?_append]
      cases rest.reverse.find? fun schema => schema.id = id with
      | some later => rfl
      | none => by_cases same : schema.id = id <;> simp [same]

theorem getElem?_make (schemas : List TableSchema) (config : Config) (id : UInt32) :
    (make schemas config).1.tables[id]? =
      (schemas.reverse.find? fun schema => schema.id = id).map
        fun schema => Table.make schema config.readBatchSize.toNat := by
  have folded := getElem?_foldl_define config (empty, []) schemas id
  simp only [empty, Std.ExtTreeMap.getElem?_empty, Option.or_none] at folded
  exact folded

/-- A table is made from a schema that none of the same id follows. -/
theorem exists_last_of_getElem?_make {schemas : List TableSchema} {config : Config} {id : UInt32}
    {table : Table} (known : (make schemas config).1.tables[id]? = some table) :
    ∃ before schema after, schemas = before ++ schema :: after ∧ schema.id = id ∧
      (∀ later ∈ after, later.id ≠ id) ∧ table = Table.make schema config.readBatchSize.toNat := by
  rw [getElem?_make] at known
  obtain ⟨schema, found, same⟩ := Option.map_eq_some_iff.mp known
  obtain ⟨sameId, after, before, reversed, others⟩ := List.find?_eq_some_iff_append.mp found
  refine ⟨before.reverse, schema, after.reverse, ?_, of_decide_eq_true sameId, ?_, same.symm⟩
  · rw [← List.reverse_reverse schemas, reversed, List.reverse_append, List.reverse_cons,
      List.append_assoc, List.singleton_append]
  · intro later inside
    simpa using others later (List.mem_reverse.mp inside)

theorem exists_schema_of_getElem?_make {schemas : List TableSchema} {config : Config} {id : UInt32}
    {table : Table} (known : (make schemas config).1.tables[id]? = some table) :
    ∃ schema ∈ schemas, schema.id = id ∧ table = Table.make schema config.readBatchSize.toNat := by
  obtain ⟨before, schema, after, rfl, sameId, -, same⟩ := exists_last_of_getElem?_make known
  exact ⟨schema, List.mem_append_right before List.mem_cons_self, sameId, same⟩

theorem row_make (schemas : List TableSchema) (config : Config) (slot : Slot) :
    (make schemas config).1.row slot = none := by
  unfold row
  cases known : (make schemas config).1.tables[slot.tableId]? with
  | none => rfl
  | some table =>
      obtain ⟨schema, -, -, rfl⟩ := exists_schema_of_getElem?_make known
      exact Table.row_make schema _ _

end Registry

end MatchAction
