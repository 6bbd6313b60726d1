import MatchAction.Proofs.BigEndian
import MatchAction.Proofs.Representation
import Mathlib.Data.List.Forall2

/-!
# What key bytes tell

The bytes that field matches are written as hold neither field ids nor lengths.  They tell the
patterns as long as the lengths of the patterns' parts are known; otherwise a byte may belong to one
part or to the next one.  Which fields are matched they never tell, except that there are some.
-/

namespace MatchAction

/-! ## Reading patterns -/

namespace Pattern

/-- Patterns of one type have parts of the same lengths. -/
def SameLengths : Pattern → Pattern → Prop
  | exact value, exact other => value.length = other.length
  | lpm value _, lpm other _ => value.length = other.length
  | ternary value mask, ternary other otherMask =>
      value.length = other.length ∧ mask.length = otherMask.length
  | range low high, range otherLow otherHigh =>
      low.length = otherLow.length ∧ high.length = otherHigh.length
  | optional value, optional other => value.length = other.length
  | _, _ => True

theorem SameLengths.refl (pattern : Pattern) : pattern.SameLengths pattern := by
  cases pattern <;> simp only [SameLengths, and_self]

theorem keyBytes_ne_nil (pattern : Pattern) : pattern.keyBytes ≠ [] := by
  cases pattern <;> exact List.cons_ne_nil _ _

/-- Four bytes hold a prefix length. -/
theorem prefixBytes_inj {length other : Int32}
    (same : Bytes.bigEndian 4 length.toBitVec.toNat = Bytes.bigEndian 4 other.toBitVec.toNat) :
    length = other := by
  have fits (length : Int32) : length.toBitVec.toNat < 256 ^ 4 := length.toBitVec.isLt
  exact Int32.toBitVec_inj.mp (BitVec.eq_of_toNat_eq
    ((Bytes.bigEndian_inj (fits length) (fits other)).mp same))

/-- The first byte tells the type, and the lengths tell where the parts end. -/
theorem keyBytes_append_inj {pattern other : Pattern} (sameLengths : pattern.SameLengths other)
    {rest otherRest : Bytes} (same : pattern.keyBytes ++ rest = other.keyBytes ++ otherRest) :
    pattern = other ∧ rest = otherRest := by
  cases pattern with
  | exact value =>
      cases other with
      | exact value' =>
          have sameParts := (List.cons.inj same).2
          obtain ⟨rfl, sameRest⟩ := List.append_inj sameParts sameLengths
          exact ⟨rfl, sameRest⟩
      | _ => cases same
  | lpm value length =>
      cases other with
      | lpm value' length' =>
          simp only [keyBytes, List.cons_append, List.append_assoc, List.cons.injEq,
            true_and] at same
          obtain ⟨sameLength, sameParts⟩ :=
            List.append_inj same (by simp only [Bytes.length_bigEndian])
          obtain ⟨rfl, sameRest⟩ := List.append_inj sameParts sameLengths
          exact ⟨congrArg _ (prefixBytes_inj sameLength), sameRest⟩
      | _ => cases same
  | ternary value mask =>
      cases other with
      | ternary value' mask' =>
          obtain ⟨sameValues, sameMasks⟩ := sameLengths
          simp only [keyBytes, List.cons_append, List.append_assoc, List.cons.injEq,
            true_and] at same
          obtain ⟨rfl, sameParts⟩ := List.append_inj same sameMasks
          obtain ⟨rfl, sameRest⟩ := List.append_inj sameParts sameValues
          exact ⟨rfl, sameRest⟩
      | _ => cases same
  | range low high =>
      cases other with
      | range low' high' =>
          obtain ⟨sameLows, sameHighs⟩ := sameLengths
          simp only [keyBytes, List.cons_append, List.append_assoc, List.cons.injEq,
            true_and] at same
          obtain ⟨rfl, sameParts⟩ := List.append_inj same sameLows
          obtain ⟨rfl, sameRest⟩ := List.append_inj sameParts sameHighs
          exact ⟨rfl, sameRest⟩
      | _ => cases same
  | optional value =>
      cases other with
      | optional value' =>
          have sameParts := (List.cons.inj same).2
          obtain ⟨rfl, sameRest⟩ := List.append_inj sameParts sameLengths
          exact ⟨rfl, sameRest⟩
      | _ => cases same

/-- Patterns whose parts have known lengths can be read off the bytes, one after the other. -/
theorem flatMap_keyBytes_inj {patterns others : List Pattern}
    (sameLengths : List.Forall₂ SameLengths patterns others) :
    patterns.flatMap keyBytes = others.flatMap keyBytes ↔ patterns = others := by
  refine ⟨fun same => ?_, congrArg _⟩
  induction sameLengths with
  | nil => rfl
  | cons sameLengths _ ih =>
      obtain ⟨samePattern, sameRest⟩ := keyBytes_append_inj sameLengths same
      rw [samePattern, ih sameRest]

end Pattern

namespace FieldMatch

/-- The fields that are matched, each as often as it is, in order. -/
def fields (fieldMatches : List FieldMatch) : List UInt32 := (sort fieldMatches).map fieldId

theorem length_sort (fieldMatches : List FieldMatch) :
    (sort fieldMatches).length = fieldMatches.length := List.length_mergeSort _

theorem length_fields (fieldMatches : List FieldMatch) :
    (fields fieldMatches).length = fieldMatches.length := by
  rw [fields, List.length_map, length_sort]

theorem sort_of_increasing {fieldMatches : List FieldMatch}
    (increasing : (fieldMatches.map fieldId).Pairwise (· < ·)) :
    sort fieldMatches = fieldMatches := by
  refine List.mergeSort_of_pairwise ((List.pairwise_map.mp increasing).imp fun less => ?_)
  exact decide_eq_true (UInt32.le_of_lt less)

/-- Field matches are known by their fields and patterns. -/
theorem eq_of_fields_of_patterns {first second : List FieldMatch}
    (sameFields : first.map fieldId = second.map fieldId)
    (samePatterns : first.map pattern = second.map pattern) : first = second := by
  induction first generalizing second with
  | nil => exact (List.map_eq_nil_iff.mp samePatterns.symm).symm
  | cons fieldMatch rest ih =>
      cases second with
      | nil => cases samePatterns
      | cons fieldMatch' rest' =>
          obtain ⟨sameField, sameFields⟩ := List.cons.inj sameFields
          obtain ⟨samePattern, samePatterns⟩ := List.cons.inj samePatterns
          rw [ih sameFields samePatterns]
          cases fieldMatch
          cases fieldMatch'
          cases sameField
          cases samePattern
          rfl

end FieldMatch

namespace Key

theorem image_eq_patterns (fieldMatches : List FieldMatch) :
    image fieldMatches = (fieldMatches.map FieldMatch.pattern).flatMap Pattern.keyBytes :=
  (List.flatMap_map _ _ _).symm

theorem image_eq_nil {fieldMatches : List FieldMatch} :
    image fieldMatches = [] ↔ fieldMatches = [] := by
  cases fieldMatches with
  | nil => simp only [image, List.flatMap_nil]
  | cons fieldMatch rest =>
      simp only [image, List.flatMap_cons, List.append_eq_nil_iff, reduceCtorEq, iff_false,
        not_and]
      exact fun none => absurd none fieldMatch.pattern.keyBytes_ne_nil

theorem ofMatches_eq_ok {fieldCount : Nat} {fieldMatches : List FieldMatch}
    (bounded : fieldMatches.length ≤ fieldCount) :
    ofMatches fieldCount fieldMatches =
      .ok (Digest.ofBytes (image (FieldMatch.sort fieldMatches))) :=
  derive_eq_ok.mpr ⟨(FieldMatch.length_sort fieldMatches).le.trans bounded, rfl⟩

end Key

/-! ## Entries that share a row -/

/-- Where an entry belongs, unless it has too many field matches or is a default action. -/
def TableEntry.home (entry : TableEntry) : Slot :=
  ⟨entry.tableId, .keyed (Digest.ofBytes (Key.image (FieldMatch.sort entry.fieldMatches)))⟩

/-- An ordinary entry that names a table and has at most as many field matches as the table has
match fields. -/
structure TableEntry.Acceptable (registry : Registry) (entry : TableEntry) : Prop where
  ordinary : entry.isDefaultAction = false
  bounded : ∃ table, registry.tables[entry.tableId]? = some table ∧
    entry.fieldMatches.length ≤ table.schema.matchFields.length

namespace Registry

variable {registry : Registry} {entry : TableEntry}

theorem keyedSlot_of_acceptable (acceptable : entry.Acceptable registry) :
    registry.keyedSlot entry = .ok entry.home := by
  obtain ⟨table, known, bounded⟩ := acceptable.bounded
  simp only [keyedSlot, table_eq, known, Option.elim, bind, Except.bind, Table.keyOf,
    Key.ofMatches_eq_ok bounded]
  rfl

theorem slot_of_acceptable {mutation : Mutation} (acceptable : entry.Acceptable registry)
    (keyed : mutation.keyedEntry = some entry) : registry.slot mutation = .ok entry.home := by
  rw [slot_of_keyedEntry registry keyed, keyedSlot_of_acceptable acceptable]

theorem slot_modifyEntry (acceptable : entry.Acceptable registry) (insert : Bool) :
    registry.slot (.modifyEntry entry insert) = .ok entry.home :=
  slot_of_acceptable acceptable (if_neg (Bool.eq_false_iff.mp acceptable.ordinary))

theorem insert_of_free (acceptable : entry.Acceptable registry)
    (free : registry.row entry.home = none) :
    registry.perform (.mutate (.modifyEntry entry true)) =
      (⟨.ok (), []⟩, registry.setRow entry.home (some (Row.inserted entry.sorted))) := by
  refine perform_of_done (slot_modifyEntry acceptable true) ?_
  simp only [free, Mutation.effect, acceptable.ordinary, Bool.false_eq_true, ↓reduceIte]

theorem insert_of_taken (acceptable : entry.Acceptable registry) {row : Row}
    (taken : registry.row entry.home = some row) :
    registry.perform (.mutate (.modifyEntry entry true)) =
      (⟨.error (.entryExists entry.sorted), []⟩, registry) := by
  refine perform_of_failed (slot_modifyEntry acceptable true) ?_
  simp only [taken, Mutation.effect, acceptable.ordinary, Bool.false_eq_true, ↓reduceIte]

/-- Of two entries of a table that are written as the same bytes only the first can be inserted. -/
theorem second_insert_refused {other : TableEntry} (acceptable : entry.Acceptable registry)
    (otherAcceptable : other.Acceptable registry) (sameTable : other.tableId = entry.tableId)
    (sameImage : Key.image (FieldMatch.sort entry.fieldMatches) =
      Key.image (FieldMatch.sort other.fieldMatches))
    (free : registry.row entry.home = none) :
    (registry.run [.mutate (.modifyEntry entry true), .mutate (.modifyEntry other true)]).1 =
      [⟨.ok (), []⟩, ⟨.error (.entryExists other.sorted), []⟩] := by
  have sameHome : other.home = entry.home := by
    rw [TableEntry.home, TableEntry.home, sameTable, sameImage]
  obtain ⟨table, known, bounded⟩ := otherAcceptable.bounded
  obtain ⟨table', known', sameSchema, -, -⟩ := getElem?_of_cleared
    (cleared_setRow registry entry.home (some (Row.inserted entry.sorted))).symm known
  have acceptableNext : other.Acceptable
      (registry.setRow entry.home (some (Row.inserted entry.sorted))) :=
    ⟨otherAcceptable.ordinary, table', known', sameSchema ▸ bounded⟩
  have taken : (registry.setRow entry.home (some (Row.inserted entry.sorted))).row other.home =
      some (Row.inserted entry.sorted) := by
    rw [sameHome]
    exact row_setRow_self (sameTable ▸ known) _
  simp only [run_cons, run_nil, insert_of_free acceptable free,
    insert_of_taken acceptableNext taken]

/-- In a new registry an entry is acceptable by the last schema of its table. -/
theorem acceptable_make {schemas : List TableSchema} {config : Config} {schema : TableSchema}
    (ordinary : entry.isDefaultAction = false)
    (last : (schemas.reverse.find? fun schema => schema.id = entry.tableId) = some schema)
    (bounded : entry.fieldMatches.length ≤ schema.matchFields.length) :
    entry.Acceptable (make schemas config).1 := by
  refine ⟨ordinary, Table.make schema config.readBatchSize.toNat, ?_, ?_⟩
  · rw [getElem?_make, last]
    rfl
  · exact bounded.trans (List.length_mergeSort _).ge

end Registry

/-! ## Matches on the same fields -/

/-- Field matches on the same fields that are written as the same bytes are the same exactly when
at every position patterns of one type have parts of the same lengths. -/
theorem FieldMatch.eq_iff_sameLengths {first second : List FieldMatch}
    (sameFields : first.map fieldId = second.map fieldId)
    (sameImage : Key.image first = Key.image second) :
    first = second ↔
      List.Forall₂ Pattern.SameLengths (first.map pattern) (second.map pattern) := by
  constructor
  · rintro rfl
    exact List.forall₂_same.mpr fun pattern _ => .refl pattern
  · intro sameLengths
    rw [Key.image_eq_patterns, Key.image_eq_patterns] at sameImage
    exact eq_of_fields_of_patterns sameFields
      ((Pattern.flatMap_keyBytes_inj sameLengths).mp sameImage)

/-- A table of ports, each known by a range of numbers. -/
def portList : TableSchema := .make 7 "acl" [.make 1 "port" 32 .range]

def portRegistry : Registry := (Registry.make [portList] .standard).1

/-- The ports from 0x0102 to 0x0304. -/
def narrowRange : TableEntry := .make 7 [⟨1, .range [1, 2] [3, 4]⟩] none

/-- The ports from 0x01 to 0x020304, written as the same bytes. -/
def wideRange : TableEntry := .make 7 [⟨1, .range [1] [2, 3, 4]⟩] none

/-- What tells the two ranges apart is where the low end stops. -/
theorem ranges_differ_in_lengths :
    ¬ List.Forall₂ Pattern.SameLengths [.range [1, 2] [3, 4]] [.range [1] [2, 3, 4]] := by
  have apart : narrowRange.fieldMatches ≠ wideRange.fieldMatches := by decide
  have toldByLengths : narrowRange.fieldMatches = wideRange.fieldMatches ↔
      List.Forall₂ Pattern.SameLengths [.range [1, 2] [3, 4]] [.range [1] [2, 3, 4]] :=
    FieldMatch.eq_iff_sameLengths rfl rfl
  exact toldByLengths.not.mp apart

/-- Two ranges of one field are different and yet written as the same bytes, so that a table cannot
hold both. -/
theorem ranges_confused :
    narrowRange.fieldMatches ≠ wideRange.fieldMatches ∧
    FieldMatch.fields narrowRange.fieldMatches = FieldMatch.fields wideRange.fieldMatches ∧
    Key.image (FieldMatch.sort narrowRange.fieldMatches) =
      Key.image (FieldMatch.sort wideRange.fieldMatches) ∧
    (portRegistry.run
      [.mutate (.modifyEntry narrowRange true), .mutate (.modifyEntry wideRange true)]).1 =
      [⟨.ok (), []⟩, ⟨.error (.entryExists wideRange.sorted), []⟩] := by
  have sameImage : Key.image (FieldMatch.sort narrowRange.fieldMatches) =
      Key.image (FieldMatch.sort wideRange.fieldMatches) := by decide +kernel
  refine ⟨by decide, by decide +kernel, sameImage, ?_⟩
  exact Registry.second_insert_refused (Registry.acceptable_make rfl rfl (by decide))
    (Registry.acceptable_make rfl rfl (by decide)) rfl sameImage (Registry.row_make _ _ _)

/-! ## Matches on different fields -/

namespace FieldMatch

/-- Exact matches that are written as ones only: on the first field the given number of them, on the
other fields the empty value. -/
def ones (id : UInt32) (rest : List UInt32) (count : Nat) : List FieldMatch :=
  ⟨id, .exact (List.replicate count 1)⟩ :: rest.map fun id => ⟨id, .exact []⟩

theorem map_fieldId_ones (id : UInt32) (rest : List UInt32) (count : Nat) :
    (ones id rest count).map fieldId = id :: rest := by
  simp only [ones, List.map_cons, List.map_map, Function.comp_def, List.map_id']

theorem image_ones (id : UInt32) (rest : List UInt32) (count : Nat) :
    Key.image (ones id rest count) = List.replicate (count + 1 + rest.length) 1 := by
  have others : Key.image (rest.map fun id => ⟨id, .exact []⟩) = List.replicate rest.length 1 := by
    induction rest with
    | nil => rfl
    | cons id rest ih => exact congrArg (1 :: ·) ih
  calc
    _ = List.replicate (count + 1) 1 ++ Key.image (rest.map fun id => ⟨id, .exact []⟩) := rfl
    _ = List.replicate (count + 1) 1 ++ List.replicate rest.length 1 := by rw [others]
    _ = _ := List.replicate_append_replicate

end FieldMatch

namespace Key

theorem image_sort_eq_nil {fieldMatches : List FieldMatch} :
    image (FieldMatch.sort fieldMatches) = [] ↔ FieldMatch.fields fieldMatches = [] :=
  image_eq_nil.trans List.map_eq_nil_iff.symm

/-- Matches on two lists of fields that are written as the same bytes: there are some, unless just
one of the lists is empty. -/
theorem exists_image_eq {ids others : List UInt32} (increasing : ids.Pairwise (· < ·))
    (othersIncreasing : others.Pairwise (· < ·)) (empty : ids = [] ↔ others = []) :
    ∃ first second, FieldMatch.fields first = ids ∧ FieldMatch.fields second = others ∧
      image (FieldMatch.sort first) = image (FieldMatch.sort second) := by
  have sortOnes {id : UInt32} {rest : List UInt32} (count : Nat)
      (increasing : (id :: rest).Pairwise (· < ·)) :
      FieldMatch.sort (FieldMatch.ones id rest count) = FieldMatch.ones id rest count :=
    FieldMatch.sort_of_increasing (by rwa [FieldMatch.map_fieldId_ones])
  cases ids with
  | nil =>
      cases empty.mp rfl
      have none : FieldMatch.fields [] = [] := by rw [FieldMatch.fields, FieldMatch.sort,
        List.mergeSort_nil, List.map_nil]
      exact ⟨[], [], none, none, rfl⟩
  | cons id rest =>
      cases others with
      | nil => cases empty.mpr rfl
      | cons id' rest' =>
          -- Each list makes up in its first value for what the other one has in further fields.
          refine ⟨FieldMatch.ones id rest rest'.length, FieldMatch.ones id' rest' rest.length,
            ?_, ?_, ?_⟩
          · rw [FieldMatch.fields, sortOnes _ increasing, FieldMatch.map_fieldId_ones]
          · rw [FieldMatch.fields, sortOnes _ othersIncreasing, FieldMatch.map_fieldId_ones]
          · rw [sortOnes _ increasing, sortOnes _ othersIncreasing, FieldMatch.image_ones,
              FieldMatch.image_ones]
            exact congrArg (List.replicate · 1) (by omega)

/-- Of the entries that match on the one list of fields and on the other, some have one key for lack
of different bytes, unless just one of the lists is empty. -/
theorem fields_confused_iff {fieldCount : Nat} {ids others : List UInt32}
    (increasing : ids.Pairwise (· < ·)) (othersIncreasing : others.Pairwise (· < ·))
    (bounded : ids.length ≤ fieldCount) (othersBounded : others.length ≤ fieldCount) :
    (∃ first second key, FieldMatch.fields first = ids ∧ FieldMatch.fields second = others ∧
      image (FieldMatch.sort first) = image (FieldMatch.sort second) ∧
      ofMatches fieldCount first = .ok key ∧ ofMatches fieldCount second = .ok key) ↔
    (ids = [] ↔ others = []) := by
  constructor
  · rintro ⟨first, second, key, rfl, rfl, same, -, -⟩
    rw [← image_sort_eq_nil, same, image_sort_eq_nil]
  · intro empty
    obtain ⟨first, second, rfl, rfl, same⟩ := exists_image_eq increasing othersIncreasing empty
    rw [FieldMatch.length_fields] at bounded othersBounded
    refine ⟨first, second, _, rfl, rfl, same, ofMatches_eq_ok bounded, ?_⟩
    rw [same]
    exact ofMatches_eq_ok othersBounded

/-- Matches on one field are written as matches on another one. -/
theorem single_fields_confused :
    ∃ first second key, FieldMatch.fields first = [1] ∧ FieldMatch.fields second = [2] ∧
      image (FieldMatch.sort first) = image (FieldMatch.sort second) ∧
      ofMatches 2 first = .ok key ∧ ofMatches 2 second = .ok key :=
  (fields_confused_iff (by decide) (by decide) (by decide) (by decide)).mpr (by decide)

end Key

/-- A table of flows, each known by its source, by its destination or by both. -/
def flowList : TableSchema := .make 7 "acl" [.make 1 "src" 8 .optional, .make 2 "dst" 8 .optional]

def flowRegistry : Registry := (Registry.make [flowList] .standard).1

def flowFrom (source : UInt8) : TableEntry := .make 7 [⟨1, .optional [source]⟩] none

def flowTo (destination : UInt8) : TableEntry := .make 7 [⟨2, .optional [destination]⟩] none

/-- The flows from a host and the flows to it match on different fields and yet are written as the
same bytes, so that a table cannot hold both. -/
theorem directions_confused :
    FieldMatch.fields (flowFrom 10).fieldMatches = [1] ∧
    FieldMatch.fields (flowTo 10).fieldMatches = [2] ∧
    Key.image (FieldMatch.sort (flowFrom 10).fieldMatches) =
      Key.image (FieldMatch.sort (flowTo 10).fieldMatches) ∧
    (flowRegistry.run
      [.mutate (.modifyEntry (flowFrom 10) true), .mutate (.modifyEntry (flowTo 10) true)]).1 =
      [⟨.ok (), []⟩, ⟨.error (.entryExists (flowTo 10).sorted), []⟩] := by
  have sameImage : Key.image (FieldMatch.sort (flowFrom 10).fieldMatches) =
      Key.image (FieldMatch.sort (flowTo 10).fieldMatches) := by decide +kernel
  refine ⟨by decide +kernel, by decide +kernel, sameImage, ?_⟩
  exact Registry.second_insert_refused (Registry.acceptable_make rfl rfl (by decide))
    (Registry.acceptable_make rfl rfl (by decide)) rfl sameImage (Registry.row_make _ _ _)

end MatchAction
