import MatchAction.Format.Entity
import MatchAction.Format.Schema
import MatchAction.Proofs.Json.Record

/-!
# The JSON forms

Every type that a schema file, an update file or an output line is made of has a lawful codec.  The
main statements are `Format.rewriting_settles`, that a value is read back from its own text, and
`RecordFormat.presentation_immaterial`, that a record is read from every text that presents it.
-/

namespace MatchAction

open Json

variable {depth : Nat}

/-! ## Schemas -/

theorem Preamble.fields_lawful : Preamble.fields.Lawful depth :=
  .cons .unsigned32 (by decide) <|
  .cons .string (by decide) <|
  .cons .string (by decide) trivial

theorem Preamble.lawful : Preamble.codec.Lawful (depth + 1) := .record fields_lawful fun _ => rfl

theorem MatchType.lawful : MatchType.codec.Lawful (depth + 1) where
  decode_encode source x := by
    cases x with
    | other name =>
        exact Variant.decode_object rfl source
          (Variant.withContent_of (@Codec.Lawful.string depth) _ source _)
    | unspecified | exact | lpm | ternary | range | optional =>
        exact Variant.decode_string rfl source
  within x := by
    cases x with
    | other name => exact .single (.string name) _
    | unspecified | exact | lpm | ternary | range | optional => exact .string _

theorem MatchField.fields_lawful : MatchField.fields.Lawful (depth + 1) :=
  .cons Preamble.lawful (by decide) <|
  .cons .signed32 (by decide) <|
  .cons MatchType.lawful (by decide) trivial

theorem MatchField.lawful : MatchField.codec.Lawful (depth + 2) := .record fields_lawful fun _ => rfl

theorem TableSchema.fields_lawful : TableSchema.fields.Lawful (depth + 3) :=
  .cons Preamble.lawful (by decide) <|
  .cons (.list MatchField.lawful) (by decide) <|
  .cons (.option .unsigned64 nofun) (by decide) <|
  .cons .bool (by decide) trivial

theorem TableSchema.lawful : TableSchema.codec.Lawful (depth + 4) := .record fields_lawful fun _ => rfl

/-! ## Entries -/

theorem Bytes.lawful : Bytes.codec.Lawful (depth + 1) := .list .byte

namespace Pattern

theorem valueFields_lawful : valueFields.Lawful (depth + 1) :=
  .cons Bytes.lawful (by decide) trivial

theorem lpmFields_lawful : lpmFields.Lawful (depth + 1) :=
  .cons Bytes.lawful (by decide) <| .cons .signed32 (by decide) trivial

theorem ternaryFields_lawful : ternaryFields.Lawful (depth + 1) :=
  .cons Bytes.lawful (by decide) <| .cons Bytes.lawful (by decide) trivial

theorem rangeFields_lawful : rangeFields.Lawful (depth + 1) :=
  .cons Bytes.lawful (by decide) <| .cons Bytes.lawful (by decide) trivial

theorem decode_encode {τ : Type} {fields : Fields τ} (lawful : fields.Lawful depth) (xs : τ) :
    fields.decode true .value (Json.object (fields.encode xs)).reading = .ok xs :=
  Fields.decode_of_presents lawful .value (fields.presents_encode xs)

theorem ofMember_encode (pattern : Pattern) :
    ofMember (pattern.encode.1, pattern.encode.2.reading) = some (.ok pattern) := by
  cases pattern with
  | exact value => simp [encode, ofMember, decode_encode (@valueFields_lawful 0), Except.map]
  | lpm value length => simp [encode, ofMember, decode_encode (@lpmFields_lawful 0), Except.map]
  | ternary value mask => simp [encode, ofMember, decode_encode (@ternaryFields_lawful 0), Except.map]
  | range low high => simp [encode, ofMember, decode_encode (@rangeFields_lawful 0), Except.map]
  | optional value => simp [encode, ofMember, decode_encode (@valueFields_lawful 0), Except.map]

theorem encode_ne_fieldId (pattern : Pattern) : pattern.encode.1 ≠ "field_id" := by
  cases pattern <;> simp [encode]

theorem within_encode (pattern : Pattern) : pattern.encode.2.Within (depth + 2) := by
  cases pattern with
  | exact value => exact .object (valueFields_lawful.within (value, ()))
  | lpm value length => exact .object (lpmFields_lawful.within (value, length, ()))
  | ternary value mask => exact .object (ternaryFields_lawful.within (value, mask, ()))
  | range low high => exact .object (rangeFields_lawful.within (low, high, ()))
  | optional value => exact .object (valueFields_lawful.within (value, ()))

end Pattern

theorem FieldMatch.lawful : FieldMatch.codec.Lawful (depth + 3) where
  decode_encode source m := by
    have idTaken (parts : Parts) (unread : parts.fieldId = none) :
        takeMember source parts ("field_id", (Codec.unsigned32.encode m.fieldId).reading) =
          .ok { parts with fieldId := some m.fieldId } := by
      rw [takeMember, if_pos rfl, unread, (@Codec.Lawful.unsigned32 depth).decode_encode]
      rfl
    have patternTaken (parts : Parts) :
        takeMember source parts (m.pattern.encode.1, m.pattern.encode.2.reading) =
          .ok { parts with
            others := (m.pattern.encode.1, m.pattern.encode.2.reading) :: parts.others } := by
      rw [takeMember, if_neg m.pattern.encode_ne_fieldId, if_pos (usable_reading _).1]
    simp only [codec, reading, memberReadings, List.foldlM_cons, List.foldlM_nil, idTaken,
      patternTaken, bind, Except.bind, pure, Except.pure, if_true, ofParts, List.reverse_singleton,
      List.findSome?_cons, Pattern.ofMember_encode, Except.map]
  within m := by
    refine .object fun member inside => ?_
    rcases List.mem_cons.mp inside with rfl | second
    · exact Codec.Lawful.unsigned32.within _
    · exact List.mem_singleton.mp second ▸ m.pattern.within_encode

theorem ActionParam.fields_lawful : ActionParam.fields.Lawful (depth + 1) :=
  .cons .unsigned32 (by decide) <| .cons Bytes.lawful (by decide) trivial

theorem ActionParam.lawful : ActionParam.codec.Lawful (depth + 2) := .record fields_lawful fun _ => rfl

theorem Action.fields_lawful : Action.fields.Lawful (depth + 3) :=
  .cons .unsigned32 (by decide) <|
  .cons (.list ActionParam.lawful) (by decide) trivial

theorem Action.lawful : Action.codec.Lawful (depth + 4) := .record fields_lawful fun _ => rfl

theorem TableAction.lawful : TableAction.codec.Lawful (depth + 5) where
  decode_encode source x := by
    cases x with
    | action own =>
        exact Variant.decode_object rfl source
          (Variant.withContent_of (@Action.lawful depth) _ source _)
    | profileMember id | profileGroup id =>
        exact Variant.decode_object rfl source
          (Variant.withContent_of (@Codec.Lawful.unsigned32 depth) _ source _)
  within x := by
    cases x with
    | action own => exact .single (Action.lawful.within own) _
    | profileMember id | profileGroup id =>
        exact .single (Codec.Lawful.unsigned32.within id) _

theorem CounterData.fields_lawful : CounterData.fields.Lawful depth :=
  .cons .signed64 (by decide) <| .cons .signed64 (by decide) trivial

theorem CounterData.lawful : CounterData.codec.Lawful (depth + 1) := .record fields_lawful fun _ => rfl

theorem MeterConfig.fields_lawful : MeterConfig.fields.Lawful depth :=
  .cons .signed64 (by decide) <|
  .cons .signed64 (by decide) <|
  .cons .signed64 (by decide) <|
  .cons .signed64 (by decide) trivial

theorem MeterConfig.lawful : MeterConfig.codec.Lawful (depth + 1) := .record fields_lawful fun _ => rfl

theorem MeterCounterData.fields_lawful : MeterCounterData.fields.Lawful (depth + 1) :=
  .cons CounterData.lawful (by decide) <|
  .cons CounterData.lawful (by decide) <|
  .cons CounterData.lawful (by decide) trivial

theorem MeterCounterData.lawful : MeterCounterData.codec.Lawful (depth + 2) :=
  .record fields_lawful fun _ => rfl

theorem TableEntry.fields_lawful : TableEntry.fields.Lawful (depth + 5) :=
  .cons .unsigned32 (by decide) <|
  .cons (.list FieldMatch.lawful) (by decide) <|
  .cons (.option TableAction.lawful (by rintro (_ | _ | _) <;> nofun)) (by decide) <|
  .cons .signed32 (by decide) <|
  .cons .unsigned64 (by decide) <|
  .cons Bytes.lawful (by decide) <|
  .cons .bool (by decide) <|
  .cons (.option CounterData.lawful nofun) (by decide) <|
  .cons (.option MeterConfig.lawful nofun) (by decide) <|
  .cons (.option MeterCounterData.lawful nofun) (by decide) trivial

theorem TableEntry.lawful : TableEntry.codec.Lawful (depth + 6) := .record fields_lawful fun _ => rfl

/-! ## Entities and updates -/

theorem DirectCounterEntry.fields_lawful : DirectCounterEntry.fields.Lawful (depth + 6) :=
  .cons TableEntry.lawful (by decide) <|
  .cons CounterData.lawful (by decide) trivial

theorem DirectCounterEntry.lawful : DirectCounterEntry.codec.Lawful (depth + 7) :=
  .record fields_lawful fun _ => rfl

theorem DirectMeterEntry.fields_lawful : DirectMeterEntry.fields.Lawful (depth + 6) :=
  .cons TableEntry.lawful (by decide) <|
  .cons (.option MeterConfig.lawful nofun) (by decide) <|
  .cons (.option MeterCounterData.lawful nofun) (by decide) trivial

theorem DirectMeterEntry.lawful : DirectMeterEntry.codec.Lawful (depth + 7) :=
  .record fields_lawful fun _ => rfl

theorem Replica.fields_lawful : Replica.fields.Lawful depth :=
  .cons .unsigned32 (by decide) <| .cons .unsigned32 (by decide) trivial

theorem Replica.lawful : Replica.codec.Lawful (depth + 1) := .record fields_lawful fun _ => rfl

theorem MulticastGroupEntry.fields_lawful : MulticastGroupEntry.fields.Lawful (depth + 2) :=
  .cons .unsigned32 (by decide) <|
  .cons (.list Replica.lawful) (by decide) trivial

theorem MulticastGroupEntry.lawful : MulticastGroupEntry.codec.Lawful (depth + 3) :=
  .record fields_lawful fun _ => rfl

theorem Entity.lawful : Entity.codec.Lawful (depth + 8) where
  decode_encode source x := by
    cases x with
    | tableEntry entry =>
        exact Variant.decode_object rfl source
          (Variant.withContent_of (@TableEntry.lawful depth) _ source _)
    | directCounter entry =>
        exact Variant.decode_object rfl source
          (Variant.withContent_of (@DirectCounterEntry.lawful depth) _ source _)
    | directMeter entry =>
        exact Variant.decode_object rfl source
          (Variant.withContent_of (@DirectMeterEntry.lawful depth) _ source _)
    | multicastGroup entry =>
        exact Variant.decode_object rfl source
          (Variant.withContent_of (@MulticastGroupEntry.lawful depth) _ source _)
  within x := by
    cases x with
    | tableEntry entry => exact .single (TableEntry.lawful.within entry) _
    | directCounter entry => exact .single (DirectCounterEntry.lawful.within entry) _
    | directMeter entry => exact .single (DirectMeterEntry.lawful.within entry) _
    | multicastGroup entry =>
        exact .single (MulticastGroupEntry.lawful.within entry) _

theorem UpdateType.lawful : UpdateType.codec.Lawful depth where
  decode_encode source x := by cases x <;> exact Variant.decode_string rfl source
  within x := by cases x <;> exact .string _

theorem Update.fields_lawful : Update.fields.Lawful (depth + 8) :=
  .cons UpdateType.lawful (by decide) <|
  .cons Entity.lawful (by decide) trivial

theorem Update.lawful : Update.codec.Lawful (depth + 9) := .record fields_lawful fun _ => rfl

theorem ReadType.lawful : ReadType.codec.Lawful depth where
  decode_encode source x := by cases x <;> exact Variant.decode_string rfl source
  within x := by cases x <;> exact .string _

/-! ## All forms -/

/-- The records, each with its fields. -/
inductive RecordFormat : {α τ : Type} → Codec α → Fields τ → Prop where
  | preamble : RecordFormat Preamble.codec Preamble.fields
  | matchField : RecordFormat MatchField.codec MatchField.fields
  | tableSchema : RecordFormat TableSchema.codec TableSchema.fields
  | actionParam : RecordFormat ActionParam.codec ActionParam.fields
  | action : RecordFormat Action.codec Action.fields
  | counterData : RecordFormat CounterData.codec CounterData.fields
  | meterConfig : RecordFormat MeterConfig.codec MeterConfig.fields
  | meterCounterData : RecordFormat MeterCounterData.codec MeterCounterData.fields
  | tableEntry : RecordFormat TableEntry.codec TableEntry.fields
  | directCounter : RecordFormat DirectCounterEntry.codec DirectCounterEntry.fields
  | directMeter : RecordFormat DirectMeterEntry.codec DirectMeterEntry.fields
  | replica : RecordFormat Replica.codec Replica.fields
  | multicastGroup : RecordFormat MulticastGroupEntry.codec MulticastGroupEntry.fields
  | update : RecordFormat Update.codec Update.fields

/-- The codecs of what schema files and update files hold and of the parts of which it consists. -/
inductive Format : {α : Type} → Codec α → Prop where
  | record {α τ : Type} {codec : Codec α} {fields : Fields τ} (format : RecordFormat codec fields) :
      Format codec
  | matchType : Format MatchType.codec
  | fieldMatch : Format FieldMatch.codec
  | tableAction : Format TableAction.codec
  | entity : Format Entity.codec
  | updateType : Format UpdateType.codec
  | readType : Format ReadType.codec
  | schemas : Format (.list TableSchema.codec)
  | updates : Format (.list Update.codec)

theorem RecordFormat.exists_record {α τ : Type} {codec : Codec α} {fields : Fields τ}
    (format : RecordFormat codec fields) : ∃ (toTuple : α → τ) (ofTuple : τ → α),
      codec = .record fields toTuple ofTuple ∧ (∀ x, ofTuple (toTuple x) = x) ∧
        fields.Lawful 64 := by
  cases format with
  | preamble => exact ⟨_, _, rfl, fun _ => rfl, Preamble.fields_lawful⟩
  | matchField => exact ⟨_, _, rfl, fun _ => rfl, MatchField.fields_lawful⟩
  | tableSchema => exact ⟨_, _, rfl, fun _ => rfl, TableSchema.fields_lawful⟩
  | actionParam => exact ⟨_, _, rfl, fun _ => rfl, ActionParam.fields_lawful⟩
  | action => exact ⟨_, _, rfl, fun _ => rfl, Action.fields_lawful⟩
  | counterData => exact ⟨_, _, rfl, fun _ => rfl, CounterData.fields_lawful⟩
  | meterConfig => exact ⟨_, _, rfl, fun _ => rfl, MeterConfig.fields_lawful⟩
  | meterCounterData =>
      exact ⟨_, _, rfl, fun _ => rfl, MeterCounterData.fields_lawful⟩
  | tableEntry => exact ⟨_, _, rfl, fun _ => rfl, TableEntry.fields_lawful⟩
  | directCounter =>
      exact ⟨_, _, rfl, fun _ => rfl, DirectCounterEntry.fields_lawful⟩
  | directMeter => exact ⟨_, _, rfl, fun _ => rfl, DirectMeterEntry.fields_lawful⟩
  | replica => exact ⟨_, _, rfl, fun _ => rfl, Replica.fields_lawful⟩
  | multicastGroup =>
      exact ⟨_, _, rfl, fun _ => rfl, MulticastGroupEntry.fields_lawful⟩
  | update => exact ⟨_, _, rfl, fun _ => rfl, Update.fields_lawful⟩

theorem Format.lawful {α : Type} {codec : Codec α} (format : Format codec) : codec.Lawful 65 := by
  cases format with
  | record format =>
      obtain ⟨toTuple, ofTuple, rfl, ofTuple_toTuple, lawful⟩ := format.exists_record
      exact Codec.Lawful.record lawful ofTuple_toTuple
  | matchType => exact MatchType.lawful
  | fieldMatch => exact FieldMatch.lawful
  | tableAction => exact TableAction.lawful
  | entity => exact Entity.lawful
  | updateType => exact UpdateType.lawful
  | readType => exact ReadType.lawful
  | schemas => exact Codec.Lawful.list TableSchema.lawful
  | updates => exact Codec.Lawful.list Update.lawful

/-- The compact text of the value that a text encodes. -/
def Json.Codec.rewrite {α : Type} (codec : Codec α) (text : String) : Except DecodeError String :=
  (codec.ofText text).map codec.toText

/-- Every value is read back from its own text.  So a text that decodes at all is rewritten as a text
of the same value, and rewriting that one changes nothing. -/
theorem Format.rewriting_settles {α : Type} {codec : Codec α} (format : Format codec) :
    (∀ x, codec.ofText (codec.toText x) = .ok x) ∧
      ∀ text x, codec.ofText text = .ok x → ∃ again, codec.rewrite text = .ok again ∧
        codec.ofText again = .ok x ∧ codec.rewrite again = .ok again := by
  have readBack : ∀ x, codec.ofText (codec.toText x) = .ok x :=
    format.lawful.ofText_toText (by decide)
  refine ⟨readBack, fun text x decoded => ⟨codec.toText x, ?_, readBack x, ?_⟩⟩
  · rw [Codec.rewrite, decoded, Except.map]
  · rw [Codec.rewrite, readBack, Except.map]

/-- A preamble with its members in another order, blanks, and escapes that are not written. -/
def escapedPreamble : String :=
  "\x7b \"name\" : \"\\u0009\\/\\ud83d\\ude00\", \"id\" : 4294967295 \x7d"

theorem escaped_preamble_settles :
    Format Preamble.codec ∧
      Preamble.codec.ofText escapedPreamble = .ok ⟨4294967295, "\t/😀", ""⟩ ∧
      ∃ again, Preamble.codec.rewrite escapedPreamble = .ok again ∧
        Preamble.codec.ofText again = .ok ⟨4294967295, "\t/😀", ""⟩ ∧
        Preamble.codec.rewrite again = .ok again := by
  have decoded : Preamble.codec.ofText escapedPreamble = .ok ⟨4294967295, "\t/😀", ""⟩ := rfl
  exact ⟨.record .preamble, decoded,
    (Format.rewriting_settles (.record .preamble)).2 escapedPreamble _ decoded⟩

/-- A record is read from every text that presents it: its fields as members in any order, among
unknown ones, or as items of an array, less those that have their defaults. -/
theorem RecordFormat.presentation_immaterial {α τ : Type} {codec : Codec α} {fields : Fields τ}
    (format : RecordFormat codec fields) (x : α) {json : Json}
    (presents : Presents (codec.encode x).members fields.defaults json) :
    codec.ofText json.text = .ok x ∧
      ∀ text : String, Token.Layout json.tokens text.toList → codec.ofText text = .ok x := by
  obtain ⟨toTuple, ofTuple, rfl, ofTuple_toTuple, lawful⟩ := format.exists_record
  have within : json.Within 65 := presents.within (lawful.within (toTuple x))
  have readAs (text : String) (layout : Token.Layout json.tokens text.toList) :
      (Codec.record fields toTuple ofTuple).ofText text = .ok x := by
    rw [Codec.ofText_eq_decode _ within (by decide) layout]
    exact Codec.decode_record_of_presents lawful ofTuple_toTuple .text presents
  exact ⟨readAs _ within.layout_text, readAs⟩

/-- A member that no record knows. -/
def note : String × Json := ("note", .array [.null, .object [("deep", .number (-1))]])

/-- A multicast group behind an unknown member, with its replicas left out. -/
def notedGroup : Json := .object [note, ("multicast_group_id", .number 7)]

theorem noted_group_read :
    RecordFormat MulticastGroupEntry.codec MulticastGroupEntry.fields ∧
      Presents (MulticastGroupEntry.codec.encode ⟨7, []⟩).members
        MulticastGroupEntry.fields.defaults notedGroup ∧
      MulticastGroupEntry.codec.ofText notedGroup.text = .ok ⟨7, []⟩ ∧
      ∀ text : String, Token.Layout notedGroup.tokens text.toList →
        MulticastGroupEntry.codec.ofText text = .ok ⟨7, []⟩ := by
  have arranged : [note, ("multicast_group_id", .number 7)].Perm
      ([("multicast_group_id", .number 7)] ++ [note]) := .swap _ _ _
  have once : [("multicast_group_id", Json.number 7)].Sublist
      (MulticastGroupEntry.codec.encode ⟨7, []⟩).members := .cons_cons _ (List.nil_sublist _)
  have omitted : ∀ field ∈ (MulticastGroupEntry.codec.encode ⟨7, []⟩).members,
      field ∈ [("multicast_group_id", Json.number 7)] ∨
        field ∈ MulticastGroupEntry.fields.defaults := by
    rintro field (_ | ⟨_, _ | ⟨_, none⟩⟩)
    · exact .inl List.mem_cons_self
    · exact .inr List.mem_cons_self
    · cases none
  have noteWithin : note.2.Within 64 := by
    refine .array fun item inside => ?_
    rcases List.mem_cons.mp inside with rfl | last
    · exact .null
    · rw [List.mem_singleton.mp last]
      exact .single (.number ⟨by decide, by decide⟩) _
  have presents : Presents (MulticastGroupEntry.codec.encode ⟨7, []⟩).members
      MulticastGroupEntry.fields.defaults notedGroup :=
    .object arranged once omitted (by simp [note, MulticastGroupEntry.codec, Codec.record, members,
      MulticastGroupEntry.fields, Fields.encode, Fields.required, Fields.optional])
      (by simp [noteWithin])
  exact ⟨.multicastGroup, presents, RecordFormat.presentation_immaterial .multicastGroup _ presents⟩

end MatchAction
