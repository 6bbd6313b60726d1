import MatchAction.Bytes

/-!
# Table schemas

The tables of a packet-forwarding program: each has a preamble, an ordered list of match fields,
each with a width in bits and a match type, and optionally a capacity.  The schemas are read from
outside, so a width is any signed 32-bit number.
-/

namespace MatchAction

structure Preamble where
  id : UInt32
  name : String
  shortName : String
  deriving DecidableEq

namespace Preamble

/-- The short name of a freshly made preamble is its name. -/
def make (id : UInt32) (name : String) : Preamble := ⟨id, name, name⟩

/-- Number zero, without a name. -/
def empty : Preamble := ⟨0, "", ""⟩

end Preamble

inductive MatchType where
  | unspecified
  | exact
  | lpm
  | ternary
  | range
  | optional
  | other (name : String)
  deriving DecidableEq

def MatchType.text : MatchType → String
  | unspecified => "unspecified"
  | exact => "exact"
  | lpm => "LPM"
  | ternary => "ternary"
  | range => "range"
  | optional => "optional"
  | other name => name

structure MatchField where
  preamble : Preamble
  bitWidth : Int32
  matchType : MatchType
  deriving DecidableEq

namespace MatchField

def make (id : UInt32) (name : String) (bitWidth : Int32) (matchType : MatchType) : MatchField :=
  ⟨.make id name, bitWidth, matchType⟩

/-- Width zero and no match type. -/
def empty : MatchField := ⟨.empty, 0, .unspecified⟩

def id (field : MatchField) : UInt32 := field.preamble.id

def text (field : MatchField) : String :=
  s!"field {field.preamble.name}: bit<{field.bitWidth.toInt}> {field.matchType.text}-match"

end MatchField

structure TableSchema where
  preamble : Preamble
  matchFields : List MatchField
  maxEntries : Option UInt64
  isConst : Bool
  deriving DecidableEq

namespace TableSchema

/-- A table without a capacity that may be changed at run time. -/
def make (id : UInt32) (name : String) (matchFields : List MatchField) : TableSchema :=
  ⟨.make id name, matchFields, none, false⟩

def empty : TableSchema := ⟨.empty, [], none, false⟩

def id (schema : TableSchema) : UInt32 := schema.preamble.id

def name (schema : TableSchema) : String := schema.preamble.name

/-- The schema's parts on one line, each after the first led in by a tab. -/
def text (schema : TableSchema) : String :=
  let fields := schema.matchFields.map fun field => "\t" ++ field.text
  let size := schema.maxEntries.elim "" fun entries => s!"\tsize: {entries.toNat}"
  let const := if schema.isConst then "\tconst table" else ""
  s!"table {schema.name}:" ++ String.join fields ++ size ++ const

/-- The schema with its match fields in the order of their ids; fields of one id keep their order. -/
def sorted (schema : TableSchema) : TableSchema :=
  { schema with matchFields := schema.matchFields.mergeSort fun a b => a.id ≤ b.id }

end TableSchema

end MatchAction
