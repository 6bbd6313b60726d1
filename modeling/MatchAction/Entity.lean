import MatchAction.Entry

/-!
# Entities and updates

The entities that updates carry and reads deliver.  Only table entries, direct counters and direct
meters belong to tables; multicast groups are carried but kept elsewhere.
-/

namespace MatchAction

structure DirectCounterEntry where
  tableEntry : TableEntry
  data : CounterData
  deriving DecidableEq

structure DirectMeterEntry where
  tableEntry : TableEntry
  config : Option MeterConfig
  counterData : Option MeterCounterData
  deriving DecidableEq

structure Replica where
  egressPort : UInt32
  copy : UInt32
  deriving DecidableEq

structure MulticastGroupEntry where
  multicastGroupId : UInt32
  replicas : List Replica
  deriving DecidableEq

inductive Entity where
  | tableEntry (entry : TableEntry)
  | directCounter (entry : DirectCounterEntry)
  | directMeter (entry : DirectMeterEntry)
  | multicastGroup (entry : MulticastGroupEntry)
  deriving DecidableEq

/-- The table entry that an entity is or belongs to. -/
def Entity.owner : Entity → Option TableEntry
  | tableEntry entry => some entry
  | directCounter entry => some entry.tableEntry
  | directMeter entry => some entry.tableEntry
  | multicastGroup _ => none

inductive UpdateType where
  | unspecified
  | insert
  | modify
  | delete
  deriving DecidableEq

structure Update where
  type : UpdateType
  entity : Entity
  deriving DecidableEq

/-- Which view of each row a read delivers. -/
inductive ReadType where
  | tableEntry
  | directCounter
  | directMeter
  deriving DecidableEq

end MatchAction
