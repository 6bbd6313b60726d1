import MatchAction.Encoding
import MatchAction.Proofs.KeyImage
import Mathlib.Data.List.FinRange
import Mathlib.Data.Nat.ModEq
import Mathlib.Tactic.Choose

/-!
# Field values

The field matches that are made for one value of each match field have the widths of the fields, so
that their key bytes tell the values: all that can be told of a value in a field of its width is its
remainder by a power of two.
-/

namespace MatchAction

/-- Match types with a pattern for a single value. -/
def MatchType.standard : List MatchType := [exact, lpm, ternary, range, optional]

namespace MatchField

/-- The field's width, if it is not negative. -/
def width (field : MatchField) : Nat := field.bitWidth.toInt.toNat

/-- A field of 1 to 64 bits. -/
structure Sized (field : MatchField) : Prop where
  wide : 1 ≤ field.bitWidth.toInt
  narrow : field.bitWidth.toInt ≤ 64

instance (field : MatchField) : Decidable field.Sized :=
  decidable_of_iff (1 ≤ field.bitWidth.toInt ∧ field.bitWidth.toInt ≤ 64)
    ⟨fun ⟨wide, narrow⟩ => ⟨wide, narrow⟩, fun sized => ⟨sized.wide, sized.narrow⟩⟩

/-- A field of 1 to 64 bits that is matched in a standard way. -/
structure Standard (field : MatchField) : Prop where
  wide : 1 ≤ field.bitWidth.toInt
  narrow : field.bitWidth.toInt ≤ 64
  type : field.matchType ∈ MatchType.standard

instance (field : MatchField) : Decidable field.Standard :=
  decidable_of_iff (1 ≤ field.bitWidth.toInt ∧ field.bitWidth.toInt ≤ 64 ∧
      field.matchType ∈ MatchType.standard)
    ⟨fun ⟨wide, narrow, type⟩ => ⟨wide, narrow, type⟩,
      fun standard => ⟨standard.wide, standard.narrow, standard.type⟩⟩

theorem Standard.sized {field : MatchField} (standard : field.Standard) : field.Sized :=
  ⟨standard.wide, standard.narrow⟩

/-- The bytes of a value in the field's width. -/
def encoded (field : MatchField) (value : UInt64) : Bytes :=
  .bigEndian (byteCount field.bitWidth) (value.toNat % 2 ^ field.width)

theorem length_encoded (field : MatchField) (value : UInt64) :
    (field.encoded value).length = byteCount field.bitWidth := Bytes.length_bigEndian _ _

variable {field : MatchField}

namespace Sized

theorem clearAbove_eq (sized : field.Sized) (value : UInt64) :
    clearAbove value field.bitWidth = value.toNat % 2 ^ field.width := by
  have wide := sized.wide
  have narrow := sized.narrow
  by_cases narrower : field.bitWidth.toInt < 64
  · rw [clearAbove, if_pos ⟨wide, narrower⟩, Nat.one_shiftLeft]
    rfl
  · have full : field.width = 64 := by
      unfold width
      omega
    rw [clearAbove, if_neg (fun both => narrower both.2), full,
      Nat.mod_eq_of_lt value.toNat_lt]

theorem encodeValue_eq (sized : field.Sized) (value : UInt64) :
    encodeValue value field.bitWidth = .ok (field.encoded value) := by
  have narrow := sized.narrow
  have inRange : field.bitWidth.toInt + 7 < 2147483648 := by omega
  rw [encodeValue, if_pos inRange, sized.clearAbove_eq]
  rfl

/-- The bytes of the field hold all numbers of its width. -/
theorem width_fits (sized : field.Sized) :
    2 ^ field.width ≤ 256 ^ byteCount field.bitWidth := by
  have narrow := sized.narrow
  have enough : field.width ≤ 8 * byteCount field.bitWidth := by
    unfold width byteCount
    omega
  calc
    2 ^ field.width ≤ 2 ^ (8 * byteCount field.bitWidth) := Nat.pow_le_pow_right (by decide) enough
    _ = 256 ^ byteCount field.bitWidth := Nat.pow_mul 2 8 _

theorem fits (sized : field.Sized) (value : UInt64) :
    value.toNat % 2 ^ field.width < 256 ^ byteCount field.bitWidth :=
  (Nat.mod_lt _ (Nat.two_pow_pos _)).trans_le sized.width_fits

theorem encoded_eq_iff (sized : field.Sized) (value other : UInt64) :
    field.encoded value = field.encoded other ↔
      value.toNat ≡ other.toNat [MOD 2 ^ field.width] :=
  Bytes.bigEndian_inj (sized.fits value) (sized.fits other)

theorem fieldMatch_eq (sized : field.Sized) (value : UInt64) :
    field.fieldMatch value =
      .ok ((field.patternFor (field.encoded value) (field.encoded 18446744073709551615)).map
        (⟨field.id, ·⟩)) := by
  simp only [fieldMatch, sized.encodeValue_eq, bind, Except.bind]
  rfl

theorem fieldMatch_of_patternFor (sized : field.Sized) {value : UInt64} {pattern : Pattern}
    (chosen : field.patternFor (field.encoded value) (field.encoded 18446744073709551615) =
      some pattern) : field.fieldMatch value = .ok (some ⟨field.id, pattern⟩) := by
  rw [sized.fieldMatch_eq, chosen, Option.map_some]

end Sized

/-- The field writes values as patterns of fixed lengths, and so that they tell the values as far as
the field's width goes. -/
structure Writes (field : MatchField) (pattern : UInt64 → Pattern) : Prop where
  fieldMatch : ∀ value, field.fieldMatch value = .ok (some ⟨field.id, pattern value⟩)
  sameLengths : ∀ value other, (pattern value).SameLengths (pattern other)
  pattern_eq_iff : ∀ value other,
    pattern value = pattern other ↔ value.toNat ≡ other.toNat [MOD 2 ^ field.width]

theorem Standard.writes (standard : field.Standard) : ∃ pattern, field.Writes pattern := by
  have sameLength (value other : UInt64) :
      (field.encoded value).length = (field.encoded other).length := by
    rw [length_encoded, length_encoded]
  have sized := standard.sized
  have eqIff := sized.encoded_eq_iff
  have type := standard.type
  cases typed : field.matchType with
  | exact =>
      refine ⟨fun value => .exact (field.encoded value), fun value => ?_, sameLength, ?_⟩
      · exact sized.fieldMatch_of_patternFor (by rw [patternFor, typed])
      · intro value other
        rw [Pattern.exact.injEq, eqIff]
  | lpm =>
      refine ⟨fun value => .lpm (field.encoded value) field.bitWidth, fun value => ?_,
        sameLength, ?_⟩
      · exact sized.fieldMatch_of_patternFor (by rw [patternFor, typed])
      · intro value other
        rw [Pattern.lpm.injEq, eqIff, eq_self, and_true]
  | ternary =>
      refine ⟨fun value => .ternary (field.encoded value) (field.encoded 18446744073709551615),
        fun value => ?_, fun value other => ⟨sameLength value other, rfl⟩, ?_⟩
      · exact sized.fieldMatch_of_patternFor (by rw [patternFor, typed])
      · intro value other
        rw [Pattern.ternary.injEq, eqIff, eq_self, and_true]
  | range =>
      refine ⟨fun value => .range (field.encoded value) (field.encoded value), fun value => ?_,
        fun value other => ⟨sameLength value other, sameLength value other⟩, ?_⟩
      · exact sized.fieldMatch_of_patternFor (by rw [patternFor, typed])
      · intro value other
        rw [Pattern.range.injEq, eqIff, and_self]
  | optional =>
      refine ⟨fun value => .optional (field.encoded value), fun value => ?_, sameLength, ?_⟩
      · exact sized.fieldMatch_of_patternFor (by rw [patternFor, typed])
      · intro value other
        rw [Pattern.optional.injEq, eqIff]
  | unspecified =>
      rw [typed] at type
      exact absurd type (by decide)
  | other name =>
      rw [typed] at type
      simp [MatchType.standard] at type

end MatchField

/-- Sorting field matches that are made of other things is sorting those things. -/
theorem FieldMatch.sort_map {α : Type} {fieldMatch : α → FieldMatch} {id : α → UInt32}
    (sameId : ∀ a, (fieldMatch a).fieldId = id a) (list : List α) :
    sort (list.map fieldMatch) = (list.mergeSort fun a b => id a ≤ id b).map fieldMatch := by
  refine (List.map_mergeSort fun a _ b _ => ?_).symm
  rw [sameId, sameId]

/-- Patterns made in two ways of the same things, of known lengths, are written as the same bytes
exactly when they are all the same. -/
theorem Pattern.flatMap_keyBytes_map_inj {α : Type} {pattern other : α → Pattern}
    (sameLengths : ∀ a, (pattern a).SameLengths (other a)) (list : List α) :
    (list.map pattern).flatMap keyBytes = (list.map other).flatMap keyBytes ↔
      ∀ a ∈ list, pattern a = other a := by
  have allSame : List.Forall₂ SameLengths (list.map pattern) (list.map other) := by
    rw [List.forall₂_map_left_iff, List.forall₂_map_right_iff, List.forall₂_same]
    exact fun a _ => sameLengths a
  rw [flatMap_keyBytes_inj allSame, List.map_inj_left]

namespace TableSchema

/-- The field matches for one value of each match field, in the order of the match fields. -/
def matchAll (schema : TableSchema) (values : Fin schema.matchFields.length → UInt64) :
    Except WidthOverflow (List (Option FieldMatch)) :=
  (List.finRange schema.matchFields.length).mapM fun i =>
    schema.matchFields[i].fieldMatch (values i)

/-- The field matches of given patterns, one on each match field. -/
def withPatterns (schema : TableSchema) (patterns : Fin schema.matchFields.length → Pattern) :
    List FieldMatch :=
  (List.finRange schema.matchFields.length).map fun i => ⟨schema.matchFields[i].id, patterns i⟩

theorem length_withPatterns (schema : TableSchema)
    (patterns : Fin schema.matchFields.length → Pattern) :
    (schema.withPatterns patterns).length = schema.matchFields.length := by
  rw [withPatterns, List.length_map, List.length_finRange]

/-- On the same fields, field matches of known lengths are written as the same bytes exactly when
they have the same patterns, in whatever order the fields are. -/
theorem image_withPatterns_eq_iff (schema : TableSchema)
    {patterns others : Fin schema.matchFields.length → Pattern}
    (sameLengths : ∀ i, (patterns i).SameLengths (others i)) :
    Key.image (FieldMatch.sort (schema.withPatterns patterns)) =
      Key.image (FieldMatch.sort (schema.withPatterns others)) ↔ ∀ i, patterns i = others i := by
  have imageOf (patterns : Fin schema.matchFields.length → Pattern) :
      Key.image (FieldMatch.sort (schema.withPatterns patterns)) =
        (((List.finRange schema.matchFields.length).mergeSort fun i j =>
          schema.matchFields[i].id ≤ schema.matchFields[j].id).map patterns).flatMap
            Pattern.keyBytes := by
    rw [withPatterns, FieldMatch.sort_map (fun _ => rfl), Key.image_eq_patterns, List.map_map]
    rfl
  rw [imageOf, imageOf, Pattern.flatMap_keyBytes_map_inj sameLengths]
  simp only [List.mem_mergeSort, List.mem_finRange, forall_const]

/-- In a table whose match fields all have 1 to 64 bits and a standard match type, the field matches
for one value of each field have a key, and are written as the same bytes exactly for values that
are the same in the fields' widths. -/
theorem image_matchAll_eq_iff (schema : TableSchema)
    (standard : ∀ field ∈ schema.matchFields, field.Standard)
    (values others : Fin schema.matchFields.length → UInt64) :
    ∃ first second : List FieldMatch,
      schema.matchAll values = .ok (first.map some) ∧
      schema.matchAll others = .ok (second.map some) ∧
      Key.ofMatches schema.matchFields.length first =
        .ok (Digest.ofBytes (Key.image (FieldMatch.sort first))) ∧
      Key.ofMatches schema.matchFields.length second =
        .ok (Digest.ofBytes (Key.image (FieldMatch.sort second))) ∧
      (Key.image (FieldMatch.sort first) = Key.image (FieldMatch.sort second) ↔
        ∀ i, (values i).toNat ≡ (others i).toNat [MOD 2 ^ schema.matchFields[i].width]) := by
  choose pattern writes using fun i : Fin schema.matchFields.length =>
    (standard schema.matchFields[i] (List.getElem_mem _)).writes
  have matchAll_eq (values : Fin schema.matchFields.length → UInt64) :
      schema.matchAll values =
        .ok ((schema.withPatterns fun i => pattern i (values i)).map some) := by
    simp only [matchAll, (writes _).fieldMatch, withPatterns, List.map_map]
    exact List.mapM_pure
  have derived (values : Fin schema.matchFields.length → UInt64) :=
    Key.ofMatches_eq_ok (schema.length_withPatterns fun i => pattern i (values i)).le
  refine ⟨_, _, matchAll_eq values, matchAll_eq others, derived values, derived others, ?_⟩
  rw [schema.image_withPatterns_eq_iff fun i => (writes i).sameLengths (values i) (others i)]
  exact forall_congr' fun i => (writes i).pattern_eq_iff (values i) (others i)

/-- Hosts by their addresses, each in a network with a number of twelve bits. -/
def networkList : TableSchema := .make 7 "acl" [.make 2 "vlan" 12 .exact, .make 1 "dst" 32 .lpm]

def networkValues (number address : UInt64) : Fin networkList.matchFields.length → UInt64 :=
  fun i => [number, address].getD i 0

/-- A network's number counts without what lies above its twelve bits, an address does not. -/
theorem network_values_identified :
    (∃ wrapped plain : List FieldMatch,
      networkList.matchAll (networkValues 4097 10) = .ok (wrapped.map some) ∧
      networkList.matchAll (networkValues 1 10) = .ok (plain.map some) ∧
      Key.image (FieldMatch.sort wrapped) = Key.image (FieldMatch.sort plain)) ∧
    ∃ distant plain : List FieldMatch,
      networkList.matchAll (networkValues 1 4106) = .ok (distant.map some) ∧
      networkList.matchAll (networkValues 1 10) = .ok (plain.map some) ∧
      Key.image (FieldMatch.sort distant) ≠ Key.image (FieldMatch.sort plain) := by
  have standard : ∀ field ∈ networkList.matchFields, field.Standard := by decide
  constructor
  · obtain ⟨wrapped, plain, made, madePlain, -, -, identified⟩ :=
      image_matchAll_eq_iff networkList standard (networkValues 4097 10) (networkValues 1 10)
    exact ⟨wrapped, plain, made, madePlain, identified.mpr (by decide +kernel)⟩
  · obtain ⟨distant, plain, made, madePlain, -, -, identified⟩ :=
      image_matchAll_eq_iff networkList standard (networkValues 1 4106) (networkValues 1 10)
    exact ⟨distant, plain, made, madePlain, identified.not.mpr (by decide +kernel)⟩

end TableSchema

end MatchAction
