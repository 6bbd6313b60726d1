import MatchAction.Entry
import MatchAction.Json.Codec

/-!
# JSON form of table entries

A field match is flattened: the field's id and the pattern, under the name of its type, are members
of one object.  Of the members that name a type the first is taken, and all others are passed over.
-/

namespace MatchAction

open Json

def Bytes.codec : Codec Bytes := .list .byte

namespace Pattern

def valueFields : Fields (Bytes × Unit) := .required "value" Bytes.codec .nil

def lpmFields : Fields (Bytes × Int32 × Unit) :=
  .required "value" Bytes.codec <| .required "prefix_len" .signed32 .nil

def ternaryFields : Fields (Bytes × Bytes × Unit) :=
  .required "value" Bytes.codec <| .required "mask" Bytes.codec .nil

def rangeFields : Fields (Bytes × Bytes × Unit) :=
  .required "low" Bytes.codec <| .required "high" Bytes.codec .nil

/-- The member that gives the pattern. -/
def encode : Pattern → String × Json
  | exact value => ("exact", .object (valueFields.encode (value, ())))
  | lpm value length => ("lpm", .object (lpmFields.encode (value, length, ())))
  | ternary value mask => ("ternary", .object (ternaryFields.encode (value, mask, ())))
  | range low high => ("range", .object (rangeFields.encode (low, high, ())))
  | optional value => ("optional", .object (valueFields.encode (value, ())))

/-- The pattern that a member gives, if its name is that of a type. -/
def ofMember (member : String × Reading) : Option (Except DecodeError Pattern) :=
  match member with
  | ("exact", reading) =>
      some ((valueFields.decode true .value reading).map fun (value, ()) => exact value)
  | ("lpm", reading) =>
      some ((lpmFields.decode true .value reading).map fun (value, length, ()) => lpm value length)
  | ("ternary", reading) =>
      some ((ternaryFields.decode true .value reading).map
        fun (value, mask, ()) => ternary value mask)
  | ("range", reading) =>
      some ((rangeFields.decode true .value reading).map fun (low, high, ()) => range low high)
  | ("optional", reading) =>
      some ((valueFields.decode true .value reading).map fun (value, ()) => optional value)
  | _ => none

end Pattern

namespace FieldMatch

/-- The field's id read so far, and the other members, last first. -/
structure Parts where
  fieldId : Option UInt32
  others : List (String × Reading)

/-- Takes in one member.  The id is read at once; of any other member it is only asked that all of
it can be used. -/
def takeMember (source : Source) (parts : Parts) (member : String × Reading) :
    Except DecodeError Parts :=
  if member.1 = "field_id" then
    match parts.fieldId with
    | some _ => .error (.duplicateField "field_id")
    | none => (Codec.unsigned32.decode source member.2).map fun id => { parts with fieldId := some id }
  else if member.2.usable then .ok { parts with others := member :: parts.others }
  else .error .malformed

def ofParts (parts : Parts) : Except DecodeError FieldMatch :=
  match parts.fieldId with
  | none => .error (.missingField "field_id")
  | some id =>
      match parts.others.reverse.findSome? Pattern.ofMember with
      | none => .error (.noVariant "FieldMatchType")
      | some pattern => pattern.map (⟨id, ·⟩)

def codec : Codec FieldMatch where
  encode m := .object [("field_id", Codec.unsigned32.encode m.fieldId), m.pattern.encode]
  decode source
    | .object members ending => do
        let parts ← members.foldlM (takeMember source) ⟨none, []⟩
        if ending = .closed then ofParts parts else .error .malformed
    | reading => .error reading.mismatch

end FieldMatch

namespace ActionParam

def fields : Fields (UInt32 × Bytes × Unit) :=
  .required "param_id" .unsigned32 <| .required "value" Bytes.codec .nil

def codec : Codec ActionParam :=
  .record fields (fun p => (p.paramId, p.value, ())) (fun (paramId, value, ()) => ⟨paramId, value⟩)

end ActionParam

namespace Action

def fields : Fields (UInt32 × List ActionParam × Unit) :=
  .required "action_id" .unsigned32 <| .optional "params" (.list ActionParam.codec) [] .nil

def codec : Codec Action :=
  .record fields (fun a => (a.actionId, a.params, ())) (fun (actionId, params, ()) => ⟨actionId, params⟩)

end Action

namespace TableAction

def variants : List (Variant TableAction) :=
  [.of "action" Action.codec action,
   .of "action_profile_member_id" .unsigned32 profileMember,
   .of "action_profile_group_id" .unsigned32 profileGroup]

def codec : Codec TableAction where
  encode
    | .action own => .object [("action", Action.codec.encode own)]
    | profileMember id => .object [("action_profile_member_id", Codec.unsigned32.encode id)]
    | profileGroup id => .object [("action_profile_group_id", Codec.unsigned32.encode id)]
  decode := Variant.decode variants

end TableAction

namespace CounterData

def fields : Fields (Int64 × Int64 × Unit) :=
  .required "byte_count" .signed64 <| .required "packet_count" .signed64 .nil

def codec : Codec CounterData :=
  .record fields (fun c => (c.byteCount, c.packetCount, ()))
    (fun (byteCount, packetCount, ()) => ⟨byteCount, packetCount⟩)

end CounterData

namespace MeterConfig

def fields : Fields (Int64 × Int64 × Int64 × Int64 × Unit) :=
  .required "cir" .signed64 <|
  .required "cburst" .signed64 <|
  .required "pir" .signed64 <|
  .required "pburst" .signed64 .nil

def codec : Codec MeterConfig :=
  .record fields (fun m => (m.committedRate, m.committedBurst, m.peakRate, m.peakBurst, ()))
    (fun (committedRate, committedBurst, peakRate, peakBurst, ()) =>
      ⟨committedRate, committedBurst, peakRate, peakBurst⟩)

end MeterConfig

namespace MeterCounterData

def fields : Fields (CounterData × CounterData × CounterData × Unit) :=
  .required "green" CounterData.codec <|
  .required "yellow" CounterData.codec <|
  .required "red" CounterData.codec .nil

def codec : Codec MeterCounterData :=
  .record fields (fun m => (m.green, m.yellow, m.red, ()))
    (fun (green, yellow, red, ()) => ⟨green, yellow, red⟩)

end MeterCounterData

namespace TableEntry

def fields : Fields (UInt32 × List FieldMatch × Option TableAction × Int32 × UInt64 × Bytes × Bool ×
    Option CounterData × Option MeterConfig × Option MeterCounterData × Unit) :=
  .optional "table_id" .unsigned32 0 <|
  .optional "matches" (.list FieldMatch.codec) [] <|
  .optional "action" (.option TableAction.codec) none <|
  .optional "priority" .signed32 0 <|
  .optional "controller_metadata" .unsigned64 0 <|
  .optional "metadata" Bytes.codec [] <|
  .optional "is_default_action" .bool false <|
  .optional "counter_data" (.option CounterData.codec) none <|
  .optional "meter_config" (.option MeterConfig.codec) none <|
  .optional "meter_counter_data" (.option MeterCounterData.codec) none .nil

def codec : Codec TableEntry :=
  .record fields
    (fun e => (e.tableId, e.fieldMatches, e.action, e.priority, e.controllerMetadata, e.metadata,
      e.isDefaultAction, e.counterData, e.meterConfig, e.meterCounterData, ()))
    (fun (tableId, fieldMatches, action, priority, controllerMetadata, metadata, isDefaultAction,
        counterData, meterConfig, meterCounterData, ()) =>
      ⟨tableId, fieldMatches, action, priority, controllerMetadata, metadata, isDefaultAction,
        counterData, meterConfig, meterCounterData⟩)

end TableEntry

end MatchAction
