import MatchAction.Proofs.Formats
import MatchAction.Proofs.Json.Rigid

/-!
# Flattened field matches

A field match is given by an object in which its id and its pattern are members among others.  The id
is read wherever it stands, and of the members named after a type of pattern the first one gives the
pattern; what else the object holds is never looked at.  So two objects with the same id and the same
first such member are read as the same field match or refused with the same error.
-/

namespace MatchAction

open Json

namespace Pattern

/-- The names of the members that can give a pattern. -/
def typeNames : List String := ["exact", "lpm", "ternary", "range", "optional"]

theorem ofMember_eq_none_iff {name : String} {reading : Reading} :
    ofMember (name, reading) = none ↔ name ∉ typeNames := by
  unfold ofMember
  split <;> simp_all [typeNames]

theorem valueFields_rigid : valueFields.Rigid := ⟨.list .byte, trivial⟩

theorem lpmFields_rigid : lpmFields.Rigid := ⟨.list .byte, .signed32, trivial⟩

theorem ternaryFields_rigid : ternaryFields.Rigid := ⟨.list .byte, .list .byte, trivial⟩

theorem rangeFields_rigid : rangeFields.Rigid := ⟨.list .byte, .list .byte, trivial⟩

theorem map_decode_eq_ok_iff {τ : Type} {fields : Fields τ} (lawful : fields.Lawful 1)
    (rigid : fields.Rigid) {payload : Json} (within : payload.Within 65) {make : τ → Pattern}
    {pattern : Pattern} :
    (fields.decode true .value payload.reading).map make = .ok pattern ↔
      ∃ xs, Presents (fields.encode xs) fields.defaults payload ∧ make xs = pattern := by
  simp only [map_eq_ok, Fields.decode_eq_ok_iff lawful rigid .value within]

/-- A member gives a pattern if it has the name of the pattern's type and presents its parts. -/
theorem ofMember_eq_ok_iff {name : String} {payload : Json} (within : payload.Within 65)
    {pattern : Pattern} :
    ofMember (name, payload.reading) = some (.ok pattern) ↔
      pattern.encode.1 = name ∧ Presents pattern.encode.2.members [] payload := by
  have value {make : Bytes × Unit → Pattern} :=
    @map_decode_eq_ok_iff _ _ valueFields_lawful valueFields_rigid _ within make pattern
  have lpm := @map_decode_eq_ok_iff _ _ lpmFields_lawful lpmFields_rigid _ within
    (fun xs => .lpm xs.1 xs.2.1) pattern
  have ternary := @map_decode_eq_ok_iff _ _ ternaryFields_lawful ternaryFields_rigid _ within
    (fun xs => .ternary xs.1 xs.2.1) pattern
  have range := @map_decode_eq_ok_iff _ _ rangeFields_lawful rangeFields_rigid _ within
    (fun xs => .range xs.1 xs.2.1) pattern
  constructor
  · intro given
    unfold ofMember at given
    split at given
    · next same =>
        cases same
        obtain ⟨xs, presents, rfl⟩ := value.mp (Option.some.inj given)
        exact ⟨rfl, presents⟩
    · next same =>
        cases same
        obtain ⟨xs, presents, rfl⟩ := lpm.mp (Option.some.inj given)
        exact ⟨rfl, presents⟩
    · next same =>
        cases same
        obtain ⟨xs, presents, rfl⟩ := ternary.mp (Option.some.inj given)
        exact ⟨rfl, presents⟩
    · next same =>
        cases same
        obtain ⟨xs, presents, rfl⟩ := range.mp (Option.some.inj given)
        exact ⟨rfl, presents⟩
    · next same =>
        cases same
        obtain ⟨xs, presents, rfl⟩ := value.mp (Option.some.inj given)
        exact ⟨rfl, presents⟩
    · cases given
  · rintro ⟨rfl, presents⟩
    cases pattern with
    | exact bytes => exact congrArg some (value.mpr ⟨(bytes, ()), presents, rfl⟩)
    | lpm bytes length => exact congrArg some (lpm.mpr ⟨(bytes, length, ()), presents, rfl⟩)
    | ternary bytes mask => exact congrArg some (ternary.mpr ⟨(bytes, mask, ()), presents, rfl⟩)
    | range low high => exact congrArg some (range.mpr ⟨(low, high, ()), presents, rfl⟩)
    | optional bytes => exact congrArg some (value.mpr ⟨(bytes, ()), presents, rfl⟩)

end Pattern

namespace FieldMatch

/-- The members give the id once. -/
def Identified (members : List (String × Json)) (id : UInt32) : Prop :=
  members.filter (fun member => member.1 = "field_id") = [("field_id", .number id.toNat)]

/-- The first member that is named after a type of pattern. -/
def firstTyped (members : List (String × Json)) : Option (String × Json) :=
  members.find? fun member => member.1 ∈ Pattern.typeNames

/-! ## Going through the members -/

theorem takeMember_other (source : Source) (parts : Parts) {member : String × Json}
    (other : member.1 ≠ "field_id") :
    takeMember source parts (member.1, member.2.reading) =
      .ok { parts with others := (member.1, member.2.reading) :: parts.others } := by
  rw [takeMember, if_neg other, if_pos (usable_reading member.2).1]

theorem takeMember_id (source : Source) {parts : Parts} (unread : parts.fieldId = none)
    (id : UInt32) :
    takeMember source parts ("field_id", (Json.number id.toNat).reading) =
      .ok { parts with fieldId := some id } := by
  have decoded : Codec.unsigned32.decode source (Json.number id.toNat).reading = .ok id :=
    (@Codec.Lawful.unsigned32 0).decode_encode source id
  rw [takeMember, if_pos rfl, unread, decoded]
  rfl

/-- Members that do not give the id are put aside, last first. -/
theorem foldlM_others (source : Source) (parts : Parts) {members : List (String × Json)}
    (others : ∀ member ∈ members, member.1 ≠ "field_id") :
    (memberReadings members).foldlM (takeMember source) parts =
      .ok { parts with others := (memberReadings members).reverse ++ parts.others } := by
  induction members generalizing parts with
  | nil => rfl
  | cons member rest ih =>
      obtain ⟨other, othersRest⟩ := List.forall_mem_cons.mp others
      have taken := takeMember_other source parts other
      rw [memberReadings, List.foldlM_cons, taken, List.reverse_cons, List.append_assoc]
      exact ih _ othersRest

theorem foldlM_identified (source : Source) {parts : Parts} (unread : parts.fieldId = none)
    {members : List (String × Json)} {id : UInt32} (identified : Identified members id) :
    (memberReadings members).foldlM (takeMember source) parts =
      .ok ⟨some id, (memberReadings (members.filter fun member => member.1 ≠ "field_id")).reverse ++
        parts.others⟩ := by
  induction members generalizing parts with
  | nil => cases identified
  | cons member rest ih =>
      by_cases isId : member.1 = "field_id"
      · -- The rest holds no further id, so from here on members are only put aside.
        simp only [Identified, List.filter_cons, isId, decide_true, ↓reduceIte] at identified
        obtain ⟨rfl, noOther⟩ := List.cons.inj identified
        have others : ∀ member ∈ rest, member.1 ≠ "field_id" := by
          intro member inside same
          exact List.filter_eq_nil_iff.mp noOther member inside (decide_eq_true same)
        have keptAll : rest.filter (fun member => member.1 ≠ "field_id") = rest :=
          List.filter_eq_self.mpr fun member inside => decide_eq_true (others member inside)
        have taken := takeMember_id source unread id
        rw [memberReadings, List.foldlM_cons, taken, List.filter_cons_of_neg (by simp), keptAll]
        exact foldlM_others source { parts with fieldId := some id } others
      · have identifiedRest : Identified rest id := by
          rwa [Identified, List.filter_cons_of_neg] at identified
          rwa [decide_eq_true_eq]
        have taken := takeMember_other source parts isId
        have unreadNext : ({ parts with
            others := (member.1, member.2.reading) :: parts.others } : Parts).fieldId = none := unread
        rw [memberReadings, List.foldlM_cons, taken, List.filter_cons_of_pos (by simpa using isId),
          memberReadings, List.reverse_cons, List.append_assoc]
        exact ih unreadNext identifiedRest

/-- Only a member that is named after a type gives a pattern. -/
theorem findSome?_ofMember (members : List (String × Json)) :
    (memberReadings members).findSome? Pattern.ofMember =
      (firstTyped members).bind fun member => Pattern.ofMember (member.1, member.2.reading) := by
  induction members with
  | nil => rfl
  | cons member rest ih =>
      rw [memberReadings, List.findSome?_cons, firstTyped, List.find?_cons]
      by_cases typed : member.1 ∈ Pattern.typeNames
      · rw [decide_eq_true typed]
        cases given : Pattern.ofMember (member.1, member.2.reading) with
        | none => exact absurd typed (Pattern.ofMember_eq_none_iff.mp given)
        | some pattern => exact given.symm
      · rw [Pattern.ofMember_eq_none_iff.mpr typed, decide_eq_false typed]
        exact ih

/-- The member that gives the id does not count among those named after a type. -/
theorem firstTyped_filter (members : List (String × Json)) :
    firstTyped (members.filter fun member => member.1 ≠ "field_id") = firstTyped members := by
  rw [firstTyped, firstTyped, List.find?_filter]
  refine congrArg (fun select => List.find? select members) (funext fun member => ?_)
  have apart : member.1 ∈ Pattern.typeNames → member.1 ≠ "field_id" := by
    intro typed same
    rw [same] at typed
    exact absurd typed (by decide)
  simpa using apart

/-- What is read of an object depends on the id and on the first member named after a type. -/
theorem decode_of_identified (source : Source) {members : List (String × Json)} {id : UInt32}
    (identified : Identified members id) :
    codec.decode source (Json.object members).reading =
      ((firstTyped members).bind fun member =>
        Pattern.ofMember (member.1, member.2.reading)).elim (.error (.noVariant "FieldMatchType"))
          fun pattern => pattern.map (⟨id, ·⟩) := by
  have unread : (⟨none, []⟩ : Parts).fieldId = none := rfl
  have taken := foldlM_identified source unread identified
  have first := findSome?_ofMember (members.filter fun member => member.1 ≠ "field_id")
  rw [firstTyped_filter] at first
  simp only [codec, reading, taken, bind, Except.bind, ↓reduceIte, ofParts, List.append_nil,
    List.reverse_reverse, first]
  cases (firstTyped members).bind fun member => Pattern.ofMember (member.1, member.2.reading) <;> rfl

theorem decode_of_unidentified (source : Source) {members : List (String × Json)}
    (unidentified : ∀ member ∈ members, member.1 ≠ "field_id") :
    codec.decode source (Json.object members).reading = .error (.missingField "field_id") := by
  have taken := foldlM_others source ⟨none, []⟩ unidentified
  simp only [codec, reading, taken, bind, Except.bind, ↓reduceIte, ofParts]

/-! ## Texts -/

/-- What a text says of a field match if it is an object with the given members. -/
structure Flattened (members : List (String × Json)) (text : String) : Prop where
  /-- It is read as a field match exactly if the first member named after a type presents a pattern of
  that type, and then as that pattern under the id. -/
  decodes : ∀ id name payload, Identified members id → firstTyped members = some (name, payload) →
    ∀ m : FieldMatch, codec.ofText text = .ok m ↔
      m.fieldId = id ∧ m.pattern.encode.1 = name ∧ Presents m.pattern.encode.2.members [] payload
  /-- Another object with the same id and the same first member named after a type says the same, be it
  a field match or an error. -/
  unaffected : ∀ id others (other : String), Identified members id → Identified others id →
    firstTyped others = firstTyped members → (∀ member ∈ others, member.2.Within 64) →
      Token.Layout (Json.object others).tokens other.toList →
        codec.ofText other = codec.ofText text
  untyped : ∀ id, Identified members id → firstTyped members = none →
    (codec.ofText text).mapError DecodeError.message =
      .error "no variant of enum FieldMatchType found in flattened data"
  /-- Without an id it does not matter whether a member is named after a type. -/
  unidentified : (∀ member ∈ members, member.1 ≠ "field_id") →
    (codec.ofText text).mapError DecodeError.message = .error "missing field \x60field_id\x60"

theorem ofText_eq_decode {members : List (String × Json)}
    (within : ∀ member ∈ members, member.2.Within 64) {text : String}
    (layout : Token.Layout (Json.object members).tokens text.toList) :
    codec.ofText text = codec.decode .text (Json.object members).reading :=
  Codec.ofText_eq_decode codec (.object within) (by decide) layout

/-- The result of reading a pattern under an id is a field match just if the pattern is read. -/
theorem elim_map_eq_ok {read : Option (Except DecodeError Pattern)} {id : UInt32}
    {m : FieldMatch} :
    read.elim (.error (.noVariant "FieldMatchType")) (fun pattern => pattern.map (⟨id, ·⟩)) = .ok m ↔
      m.fieldId = id ∧ read = some (.ok m.pattern) := by
  cases read with
  | none =>
      constructor
      · intro done
        cases done
      · rintro ⟨-, unread⟩
        cases unread
  | some result =>
      rw [Option.elim_some, map_eq_ok]
      constructor
      · rintro ⟨pattern, rfl, rfl⟩
        exact ⟨rfl, rfl⟩
      · rintro ⟨rfl, same⟩
        exact ⟨m.pattern, Option.some.inj same, rfl⟩

/-- How an object is read as a field match, whatever its members are, as long as their values do not
nest too deep: its id and its first member named after a type decide. -/
theorem flattened_of_layout {members : List (String × Json)}
    (within : ∀ member ∈ members, member.2.Within 64) {text : String}
    (layout : Token.Layout (Json.object members).tokens text.toList) : Flattened members text where
  decodes := by
    intro id name payload identified first m
    have inside : (name, payload) ∈ members := List.mem_of_find?_eq_some first
    have payloadWithin : payload.Within 65 := (within _ inside).mono (by decide)
    rw [ofText_eq_decode within layout, decode_of_identified .text identified, first,
      elim_map_eq_ok, Option.bind_some, Pattern.ofMember_eq_ok_iff payloadWithin]
  unaffected := by
    intro id others other identified identifiedOthers sameFirst withinOthers layoutOther
    rw [ofText_eq_decode within layout, ofText_eq_decode withinOthers layoutOther,
      decode_of_identified .text identified, decode_of_identified .text identifiedOthers, sameFirst]
  untyped := by
    intro id identified none
    rw [ofText_eq_decode within layout, decode_of_identified .text identified, none]
    rfl
  unidentified := by
    intro unidentified
    rw [ofText_eq_decode within layout, decode_of_unidentified .text unidentified]
    rfl

/-- A field match with its type in front, given as an array, and behind its id a member that is named
after another type but gives no pattern. -/
def crowded : List (String × Json) :=
  [("note", .object []), ("lpm", .array [.array [.number 10], .number 8]), ("field_id", .number 3),
    ("exact", .null)]

/-- The member behind the id does no harm. -/
theorem crowded_read :
    (∀ member ∈ crowded, member.2.Within 64) ∧
    Token.Layout (Json.object crowded).tokens (Json.object crowded).text.toList ∧
    codec.ofText (Json.object crowded).text = .ok ⟨3, .lpm [10] 8⟩ := by
  have each : ∀ member ∈ crowded, member.2.Within 64 := by
    have payload : (Json.array [.array [.number 10], .number 8]).Within 64 := by
      refine .array (List.forall_mem_cons.mpr ⟨.array ?_, List.forall_mem_singleton.mpr ?_⟩)
      · exact List.forall_mem_singleton.mpr (.number ⟨by decide, by decide⟩)
      · exact .number ⟨by decide, by decide⟩
    refine List.forall_mem_cons.mpr ⟨.object (List.forall_mem_nil _),
      List.forall_mem_cons.mpr ⟨payload, List.forall_mem_cons.mpr ⟨.number ⟨by decide, by decide⟩,
        List.forall_mem_singleton.mpr .null⟩⟩⟩
  have layout : Token.Layout (Json.object crowded).tokens (Json.object crowded).text.toList :=
    (Json.Within.object each).layout_text
  have presents : Presents (Pattern.lpm [10] 8).encode.2.members []
      (.array [.array [.number 10], .number 8]) :=
    .array (List.append_nil _).symm (List.forall_mem_nil _)
  refine ⟨each, layout, ?_⟩
  refine ((flattened_of_layout each layout).decodes 3 "lpm" _ ?_ ?_ ⟨3, .lpm [10] 8⟩).mpr
    ⟨rfl, rfl, presents⟩
  · rfl
  · rfl

end FieldMatch

end MatchAction
