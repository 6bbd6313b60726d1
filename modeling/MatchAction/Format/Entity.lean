import MatchAction.Entity
import MatchAction.Format.Entry

/-!
# JSON form of entities and updates
-/

namespace MatchAction

open Json

namespace DirectCounterEntry

def fields : Fields (TableEntry × CounterData × Unit) :=
  .required "table_entry" TableEntry.codec <| .optional "data" CounterData.codec .zero .nil

def codec : Codec DirectCounterEntry :=
  .record fields (fun e => (e.tableEntry, e.data, ())) (fun (tableEntry, data, ()) => ⟨tableEntry, data⟩)

end DirectCounterEntry

namespace DirectMeterEntry

def fields : Fields (TableEntry × Option MeterConfig × Option MeterCounterData × Unit) :=
  .required "table_entry" TableEntry.codec <|
  .optional "config" (.option MeterConfig.codec) none <|
  .optional "counter_data" (.option MeterCounterData.codec) none .nil

def codec : Codec DirectMeterEntry :=
  .record fields (fun e => (e.tableEntry, e.config, e.counterData, ()))
    (fun (tableEntry, config, counterData, ()) => ⟨tableEntry, config, counterData⟩)

end DirectMeterEntry

namespace Replica

def fields : Fields (UInt32 × UInt32 × Unit) :=
  .required "egress_port" .unsigned32 <| .required "instance" .unsigned32 .nil

def codec : Codec Replica :=
  .record fields (fun r => (r.egressPort, r.copy, ())) (fun (egressPort, copy, ()) => ⟨egressPort, copy⟩)

end Replica

namespace MulticastGroupEntry

def fields : Fields (UInt32 × List Replica × Unit) :=
  .required "multicast_group_id" .unsigned32 <| .optional "replicas" (.list Replica.codec) [] .nil

def codec : Codec MulticastGroupEntry :=
  .record fields (fun e => (e.multicastGroupId, e.replicas, ()))
    (fun (multicastGroupId, replicas, ()) => ⟨multicastGroupId, replicas⟩)

end MulticastGroupEntry

namespace Entity

def variants : List (Variant Entity) :=
  [.of "table_entry" TableEntry.codec tableEntry,
   .of "direct_counter_entry" DirectCounterEntry.codec directCounter,
   .of "direct_meter_entry" DirectMeterEntry.codec directMeter,
   .of "multicast_group_entry" MulticastGroupEntry.codec multicastGroup]

def codec : Codec Entity where
  encode
    | tableEntry entry => .object [("table_entry", TableEntry.codec.encode entry)]
    | directCounter entry => .object [("direct_counter_entry", DirectCounterEntry.codec.encode entry)]
    | directMeter entry => .object [("direct_meter_entry", DirectMeterEntry.codec.encode entry)]
    | multicastGroup entry =>
        .object [("multicast_group_entry", MulticastGroupEntry.codec.encode entry)]
  decode := Variant.decode variants

end Entity

namespace UpdateType

def variants : List (Variant UpdateType) :=
  [.bare "unspecified" unspecified,
   .bare "insert" insert,
   .bare "modify" modify,
   .bare "delete" delete]

def codec : Codec UpdateType where
  encode
    | unspecified => .string "unspecified"
    | insert => .string "insert"
    | modify => .string "modify"
    | delete => .string "delete"
  decode := Variant.decode variants

end UpdateType

namespace Update

def fields : Fields (UpdateType × Entity × Unit) :=
  .optional "type" UpdateType.codec .unspecified <| .required "entity" Entity.codec .nil

def codec : Codec Update :=
  .record fields (fun u => (u.type, u.entity, ())) (fun (type, entity, ()) => ⟨type, entity⟩)

end Update

namespace ReadType

def variants : List (Variant ReadType) :=
  [.bare "table-entry" tableEntry,
   .bare "direct-counter" directCounter,
   .bare "direct-meter" directMeter]

def codec : Codec ReadType where
  encode
    | tableEntry => .string "table-entry"
    | directCounter => .string "direct-counter"
    | directMeter => .string "direct-meter"
  decode := Variant.decode variants

/-- The read type with the given name. -/
def ofName (name : String) : Option ReadType :=
  match name with
  | "table-entry" => some tableEntry
  | "direct-counter" => some directCounter
  | "direct-meter" => some directMeter
  | _ => none

end ReadType

end MatchAction
