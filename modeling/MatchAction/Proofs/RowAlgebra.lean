import MatchAction.Proofs.MatchOrder
import MatchAction.Proofs.Overlays

/-!
# Algebra of one row

Insertions, modifications and removals under one key see and set only the row there.  So what calls do
one after the other is what they make of that row in turn: a removal undoes an insertion, a call made
twice does what it does once, the last modification counts, and after a removal nothing is left of the
row that was there.  Only a counter outlasts a modification, if the next one brings none.
-/

namespace MatchAction

/-- Of two modifications only the last is seen, but for a counter that it leaves as it was set. -/
theorem Row.modified_modified_iff (row : Row) (first second : TableEntry) :
    (row.modified first).modified second = row.modified second ↔
      second.counterData.isSome ∨ first.counterData = none ∨
        first.counterData = some row.counterData := by
  simp only [modified, Row.mk.injEq, true_and, and_true]
  cases second.counterData with
  | some data => simp
  | none => cases first.counterData <;> simp

namespace Table

theorem setRow_inj {table : Table} {place : Place} {first second : Option Row} :
    table.setRow place first = table.setRow place second ↔ first = second := by
  refine ⟨fun same => ?_, congrArg _⟩
  have sameAt := congrArg (fun table => table.row place) same
  simpa only [row_setRow, ↓reduceIte] using sameAt

namespace Command

def insert (entry : TableEntry) : Command := .mutate (.modifyEntry entry true)

def modify (entry : TableEntry) : Command := .mutate (.modifyEntry entry false)

def remove (entry : TableEntry) : Command := .mutate (.removeEntry entry)

end Command

/-- An ordinary entry with not too many field matches, by its key. -/
structure Keys (table : Table) (key : Key) (entry : TableEntry) : Prop where
  ordinary : entry.isDefaultAction = false
  keyed : table.keyOf entry.fieldMatches = .ok key

variable {table other : Table} {key : Key} {entry first second : TableEntry} {row : Row}

theorem Keys.congr (keys : table.Keys key entry) (same : other.schema = table.schema) :
    other.Keys key entry :=
  ⟨keys.ordinary, by rw [keyOf, same]; exact keys.keyed⟩

theorem Keys.setRow (keys : table.Keys key entry) (place : Place) (held : Option Row) :
    (table.setRow place held).Keys key entry :=
  keys.congr (schema_setRow table place held)

/-! ## Single calls -/

theorem Keys.place_modifyEntry (keys : table.Keys key entry) (insert : Bool) :
    table.place (.modifyEntry entry insert) = .ok (.keyed key) :=
  place_of_keyOf (if_neg (Bool.eq_false_iff.mp keys.ordinary)) keys.keyed

theorem Keys.insert (keys : table.Keys key entry) (free : table.row (.keyed key) = none) :
    table.perform (.insert entry) = ⟨.insert entry, ⟨.ok (), []⟩,
      table.setRow (.keyed key) (some (Row.inserted entry.sorted))⟩ :=
  perform_insert_of_none keys.ordinary keys.keyed free

theorem Keys.modify (keys : table.Keys key entry) (held : table.row (.keyed key) = some row) :
    table.perform (.modify entry) = ⟨.modify entry, ⟨.ok (), []⟩,
      table.setRow (.keyed key) (some (row.modified entry.sorted))⟩ := by
  refine perform_of_done (keys.place_modifyEntry false) ?_
  simp only [Mutation.effect, keys.ordinary, held, Bool.false_eq_true, ↓reduceIte]

theorem Keys.modify_of_none (keys : table.Keys key entry) (free : table.row (.keyed key) = none) :
    table.perform (.modify entry) =
      ⟨.modify entry, ⟨.error (.entryNotFound entry.sorted), []⟩, table⟩ := by
  refine perform_of_failed (keys.place_modifyEntry false) ?_
  simp only [Mutation.effect, keys.ordinary, free, Bool.false_eq_true, ↓reduceIte]

theorem Keys.remove (keys : table.Keys key entry) :
    table.perform (.remove entry) = ⟨.remove entry, ⟨.ok (), []⟩, table.setRow (.keyed key) none⟩ :=
  perform_of_done (place_of_keyOf (if_neg (Bool.eq_false_iff.mp keys.ordinary)) keys.keyed) rfl

/-! ## Calls one after the other -/

theorem remove_insert (keys : table.Keys key entry) (free : table.row (.keyed key) = none) :
    (table.perform (.insert entry)).after.perform (.remove entry) =
      ⟨.remove entry, ⟨.ok (), []⟩, table⟩ := by
  have unchanged : table.setRow (.keyed key) none = table := by
    rw [← free, setRow_row]
  rw [keys.insert free, (keys.setRow _ _).remove, setRow_setRow, unchanged]

theorem remove_remove (keys : table.Keys key entry) :
    (table.perform (.remove entry)).after.perform (.remove entry) =
      table.perform (.remove entry) := by
  rw [keys.remove, (keys.setRow _ _).remove, setRow_setRow]

theorem modify_modify_iff (keys : table.Keys key first) (keys' : table.Keys key second) :
    (table.perform (.modify first)).after.perform (.modify second) =
        table.perform (.modify second) ↔
      second.counterData.isSome ∨ first.counterData = none ∨
        ∀ row, table.row (.keyed key) = some row → first.counterData = some row.counterData := by
  cases held : table.row (.keyed key) with
  | none =>
      have unheld (row : Row) (held : none = some row) :
          first.counterData = some row.counterData := by cases held
      rw [keys.modify_of_none held]
      exact iff_of_true rfl (.inr (.inr unheld))
  | some row =>
      have next : (table.setRow (.keyed key) (some (row.modified first.sorted))).row (.keyed key) =
          some (row.modified first.sorted) := by
        rw [row_setRow, if_pos rfl]
      rw [keys.modify held, (keys'.setRow _ _).modify next, keys'.modify held, setRow_setRow,
        Done.mk.injEq]
      simp only [true_and, setRow_inj, Option.some.injEq, forall_eq']
      exact row.modified_modified_iff first.sorted second.sorted

/-- After a removal it does not show what was removed. -/
theorem remove_congr (keys : table.Keys key entry) (sameCleared : other.cleared = table.cleared)
    (sameRows : ∀ place, place ≠ .keyed key → other.row place = table.row place) :
    other.perform (.remove entry) = table.perform (.remove entry) := by
  have sameSchema : other.schema = table.schema := (Table.mk.inj sameCleared).1
  have sameAfter : other.setRow (.keyed key) none = table.setRow (.keyed key) none := by
    refine ext_row ?_ fun place => ?_
    · rw [cleared_setRow, cleared_setRow, sameCleared]
    · rw [row_setRow, row_setRow]
      split
      · rfl
      · next apart => exact sameRows place apart
  rw [keys.remove, (keys.congr sameSchema).remove, sameAfter]

theorem insert_remove (keys : table.Keys key first) (keys' : table.Keys key second) :
    (table.perform (.remove first)).after.perform (.insert second) =
      ⟨.insert second, ⟨.ok (), []⟩,
        table.setRow (.keyed key) (some (Row.inserted second.sorted))⟩ := by
  have free : (table.setRow (.keyed key) none).row (.keyed key) = none := by
    rw [row_setRow, if_pos rfl]
  rw [keys.remove, (keys'.setRow _ _).insert free, setRow_setRow]

/-- How calls under one key combine. -/
structure RowLaws (table : Table) (key : Key) (entry first second : TableEntry) : Prop where
  insert_remove : table.row (.keyed key) = none →
    (table.perform (.insert entry)).outcome = ⟨.ok (), []⟩ ∧
    (table.perform (.insert entry)).after.perform (.remove entry) =
      ⟨.remove entry, ⟨.ok (), []⟩, table⟩
  remove_remove : (table.perform (.remove entry)).after.perform (.remove entry) =
    table.perform (.remove entry)
  modify_modify : (table.perform (.modify entry)).after.perform (.modify entry) =
    table.perform (.modify entry)
  /-- The last modification counts, except that a counter which it does not bring stays as the one
  before it set it. -/
  absorbs : (table.perform (.modify first)).after.perform (.modify second) =
      table.perform (.modify second) ↔
    second.counterData.isSome ∨ first.counterData = none ∨
      ∀ row, table.row (.keyed key) = some row → first.counterData = some row.counterData
  /-- Whatever the row was, after a removal and an insertion it is that of the entry inserted. -/
  forgets : ∀ other : Table, other.cleared = table.cleared →
    (∀ place, place ≠ .keyed key → other.row place = table.row place) →
    let removed := table.perform (.remove first)
    let removed' := other.perform (.remove first)
    removed.outcome = ⟨.ok (), []⟩ ∧ removed'.outcome = ⟨.ok (), []⟩ ∧
    removed'.after.perform (.insert second) = removed.after.perform (.insert second) ∧
    (removed.after.perform (.insert second)).outcome = ⟨.ok (), []⟩ ∧
    (removed.after.perform (.insert second)).after.row (.keyed key) =
      some (Row.inserted second.sorted)

/-- Calls for entries of one key combine as calls for one row do, in every table. -/
theorem calls_under_key_combine (keys : table.Keys key entry) (keysFirst : table.Keys key first)
    (keysSecond : table.Keys key second) : table.RowLaws key entry first second where
  insert_remove free := by
    refine ⟨?_, remove_insert keys free⟩
    rw [keys.insert free]
  remove_remove := remove_remove keys
  modify_modify := by
    refine (modify_modify_iff keys keys).mpr ?_
    cases entry.counterData with
    | none => exact .inr (.inl rfl)
    | some data => exact .inl rfl
  absorbs := modify_modify_iff keysFirst keysSecond
  forgets := by
    intro other sameCleared sameRows removed removed'
    have sameRemoval : removed' = removed := remove_congr keysFirst sameCleared sameRows
    have ok : removed.outcome = ⟨.ok (), []⟩ := congrArg Done.outcome keysFirst.remove
    refine ⟨ok, ?_, ?_, ?_, ?_⟩
    · rw [sameRemoval, ok]
    · rw [sameRemoval]
    · rw [insert_remove keysFirst keysSecond]
    · rw [insert_remove keysFirst keysSecond, row_setRow, if_pos rfl]

/-- The entry for every host can be modified, and its counter set by this outlasts a modification
that brings none. -/
theorem any_host_counter_outlasts :
    anyHostTable.RowLaws Key.bare anyHost measuredAnyHost anyHost ∧
    (anyHostTable.perform (.modify measuredAnyHost)).after.perform (.modify anyHost) ≠
      anyHostTable.perform (.modify anyHost) := by
  have laws : anyHostTable.RowLaws Key.bare anyHost measuredAnyHost anyHost :=
    calls_under_key_combine ⟨rfl, anyHostTable.keyOf_of_bare rfl⟩
      ⟨rfl, anyHostTable.keyOf_of_bare rfl⟩ ⟨rfl, anyHostTable.keyOf_of_bare rfl⟩
  refine ⟨laws, laws.absorbs.not.mpr ?_⟩
  rintro (brought | notSet | asBefore)
  · cases brought
  · cases notSet
  · exact absurd (asBefore _ row_anyHostTable) (by decide)

end Table

end MatchAction
