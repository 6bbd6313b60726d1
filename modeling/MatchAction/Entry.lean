import MatchAction.Bytes

/-!
# Table entries

What a controller writes to a table and reads back: field matches, an action, and the counter and
meter data attached to an entry.  Each kind has a one-line text, in which byte strings are
hexadecimal numbers.
-/

namespace MatchAction

/-- What a field match asks of the field's value. -/
inductive Pattern where
  | exact (value : Bytes)
  | lpm (value : Bytes) (length : Int32)
  | ternary (value mask : Bytes)
  | range (low high : Bytes)
  | optional (value : Bytes)
  deriving DecidableEq

def Pattern.text : Pattern → String
  | exact value => value.text
  | lpm value length => s!"{value.text}/{length.toInt}"
  | ternary value mask => s!"{value.text}&&&{mask.text}"
  | range low high => s!"{low.text}..{high.text}"
  | optional value => s!"{value.text}?"

structure FieldMatch where
  fieldId : UInt32
  pattern : Pattern
  deriving DecidableEq

namespace FieldMatch

def text (fieldMatch : FieldMatch) : String :=
  s!"{fieldMatch.fieldId.toNat}={fieldMatch.pattern.text}"

/-- Field matches in the order of their field ids; matches on one field keep their order. -/
def sort (fieldMatches : List FieldMatch) : List FieldMatch :=
  fieldMatches.mergeSort fun a b => a.fieldId ≤ b.fieldId

end FieldMatch

structure ActionParam where
  paramId : UInt32
  value : Bytes
  deriving DecidableEq

def ActionParam.text (param : ActionParam) : String :=
  s!"{param.paramId.toNat}={param.value.text}"

structure Action where
  actionId : UInt32
  params : List ActionParam
  deriving DecidableEq

namespace Action

/-- An action without parameters. -/
def make (id : UInt32) : Action := ⟨id, []⟩

def text (action : Action) : String :=
  let params := String.intercalate ", " (action.params.map ActionParam.text)
  s!"action {action.actionId.toNat}({params})"

end Action

/-- What an entry invokes: an action of its own, or a member or a group of an action profile. -/
inductive TableAction where
  | action (action : Action)
  | profileMember (id : UInt32)
  | profileGroup (id : UInt32)
  deriving DecidableEq

def TableAction.text : TableAction → String
  | .action own => own.text
  | .profileMember id => s!"member {id.toNat}"
  | .profileGroup id => s!"group {id.toNat}"

structure CounterData where
  byteCount : Int64
  packetCount : Int64
  deriving DecidableEq

def CounterData.zero : CounterData := ⟨0, 0⟩

/-- Committed and peak rates, in units per second, each with its burst size. -/
structure MeterConfig where
  committedRate : Int64
  committedBurst : Int64
  peakRate : Int64
  peakBurst : Int64
  deriving DecidableEq

/-- One counter for each color of a meter. -/
structure MeterCounterData where
  green : CounterData
  yellow : CounterData
  red : CounterData
  deriving DecidableEq

structure TableEntry where
  tableId : UInt32
  fieldMatches : List FieldMatch
  action : Option TableAction
  priority : Int32
  controllerMetadata : UInt64
  metadata : Bytes
  isDefaultAction : Bool
  counterData : Option CounterData
  meterConfig : Option MeterConfig
  meterCounterData : Option MeterCounterData
  deriving DecidableEq

namespace TableEntry

/-- Table zero, with every other part left out. -/
def empty : TableEntry := ⟨0, [], none, 0, 0, [], false, none, none, none⟩

def make (tableId : UInt32) (fieldMatches : List FieldMatch) (action : Option TableAction) :
    TableEntry :=
  { empty with tableId, fieldMatches, action }

/-- The entry that makes `action` the default of a table. -/
def defaultAction (tableId : UInt32) (action : TableAction) : TableEntry :=
  { empty with tableId, action := some action, isDefaultAction := true }

/-- A default action shows neither field matches nor a priority, and priority zero is not shown. -/
def text (entry : TableEntry) : String :=
  let fieldMatches := String.intercalate ", " (entry.fieldMatches.map FieldMatch.text)
  let priority := if entry.priority = 0 then "" else s!" priority {entry.priority.toInt}"
  let place := if entry.isDefaultAction then " default" else s!" [{fieldMatches}]{priority}"
  let action := entry.action.elim "" fun action => s!" -> {action.text}"
  s!"table {entry.tableId.toNat}{place}{action}"

/-- The entry with its field matches in the order of their field ids. -/
def sorted (entry : TableEntry) : TableEntry :=
  { entry with fieldMatches := FieldMatch.sort entry.fieldMatches }

end TableEntry

end MatchAction
