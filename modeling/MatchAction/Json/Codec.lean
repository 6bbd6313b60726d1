import MatchAction.Json.Error
import MatchAction.Json.Reading
import MatchAction.Json.Value

/-!
# Codecs

A codec writes the values of a type as JSON and reads them back.  Reading goes through a `Reading`
in the order of the text and stops at its first fault.  Records and variants are described by data:
the list of a record's fields, the list of a type's variants.
-/

namespace MatchAction.Json

/-- Where a reading comes from: a text, or a value in which each object is a map. -/
inductive Source where
  | text
  | value
  deriving DecidableEq

/-- The error when a reading is none of those that the decoder takes. -/
def Reading.mismatch : Reading → DecodeError
  | unusable | malformed => .malformed
  | _ => .wrongType

structure Codec (α : Type) where
  encode : α → Json
  decode : Source → Reading → Except DecodeError α

namespace Codec

/-- Integers between two bounds. -/
def integer (low high : Int) (toInt : α → Int) (ofInt : Int → α) : Codec α where
  encode x := .number (toInt x)
  decode _
    | .integer n => if low ≤ n ∧ n ≤ high then .ok (ofInt n) else .error .outOfRange
    | reading => .error reading.mismatch

def byte : Codec UInt8 :=
  integer 0 255 (fun x => x.toNat) (fun n => UInt8.ofNat n.toNat)

def unsigned32 : Codec UInt32 :=
  integer 0 4294967295 (fun x => x.toNat) (fun n => UInt32.ofNat n.toNat)

def unsigned64 : Codec UInt64 :=
  integer 0 18446744073709551615 (fun x => x.toNat) (fun n => UInt64.ofNat n.toNat)

def signed32 : Codec Int32 := integer (-2147483648) 2147483647 Int32.toInt Int32.ofInt

def signed64 : Codec Int64 :=
  integer (-9223372036854775808) 9223372036854775807 Int64.toInt Int64.ofInt

def bool : Codec Bool where
  encode := .bool
  decode _
    | .bool value => .ok value
    | reading => .error reading.mismatch

def string : Codec String where
  encode := .string
  decode _
    | .string value => .ok value
    | reading => .error reading.mismatch

/-- A value that may be left out, which `null` says. -/
def option (codec : Codec α) : Codec (Option α) where
  encode
    | none => .null
    | some x => codec.encode x
  decode source
    | .null => .ok none
    | reading => (codec.decode source reading).map some

def list (codec : Codec α) : Codec (List α) where
  encode xs := .array (xs.map codec.encode)
  decode source
    | .array items => items.mapM (codec.decode source)
    | reading => .error reading.mismatch

/-- The value that a whole text encodes. -/
def ofText (codec : Codec α) (text : String) : Except DecodeError α := do
  let document := Document.ofText text
  let x ← codec.decode .text document.value
  if document.trailing then .error .malformed else .ok x

/-- The compact text of a value. -/
def toText (codec : Codec α) (x : α) : String := (codec.encode x).text

/-- The value that a JSON value encodes. -/
def ofValue (codec : Codec α) (reading : Reading) : Except DecodeError α :=
  codec.decode .value reading.mapped

end Codec

/-- The fields of a record, in the order in which they are written; the record is a tuple of their
values.  A field with a default may be left out. -/
inductive Fields : Type → Type 1 where
  | nil : Fields Unit
  | cons {α β : Type} (name : String) (codec : Codec α) (default? : Option α) (rest : Fields β) :
      Fields (α × β)

namespace Fields

def required (name : String) (codec : Codec α) (rest : Fields β) : Fields (α × β) :=
  cons name codec none rest

def optional (name : String) (codec : Codec α) (default : α) (rest : Fields β) : Fields (α × β) :=
  cons name codec (some default) rest

def encode : {τ : Type} → Fields τ → τ → List (String × Json)
  | _, nil, _ => []
  | _, cons name codec _ rest, (x, xs) => (name, codec.encode x) :: rest.encode xs

/-- The fields read so far. -/
def Slots : {τ : Type} → Fields τ → Type
  | _, nil => Unit
  | _, @cons α _ _ _ _ rest => Option α × rest.Slots

def noSlots : {τ : Type} → (fields : Fields τ) → fields.Slots
  | _, nil => ()
  | _, cons _ _ _ rest => (none, rest.noSlots)

/-- The slot of a record's first field. -/
def Slots.first {codec : Codec α} {rest : Fields β}
    (slots : (cons name codec default? rest).Slots) : Option α := Prod.fst slots

/-- The slots of a record's other fields. -/
def Slots.others {codec : Codec α} {rest : Fields β}
    (slots : (cons name codec default? rest).Slots) : rest.Slots := Prod.snd slots

/-- Reads the value of the field with the given name, which must not have been read before; nothing
if no field has the name. -/
def put (source : Source) (name : String) (reading : Reading) :
    {τ : Type} → (fields : Fields τ) → fields.Slots → Option (Except DecodeError fields.Slots)
  | _, nil, _ => none
  | _, cons field codec _ rest, slots =>
      if name = field then
        match slots.first with
        | some _ => some (.error (.duplicateField name))
        | none => some ((codec.decode source reading).map fun x => (some x, slots.others))
      else
        (rest.put source name reading slots.others).map fun result =>
          result.map fun others => (slots.first, others)

/-- The record, with the defaults of the fields that were left out. -/
def finish : {τ : Type} → (fields : Fields τ) → fields.Slots → Except DecodeError τ
  | _, nil, _ => .ok ()
  | _, cons name _ default? rest, slots =>
      match slots.first.or default? with
      | some x => (rest.finish slots.others).map fun xs => (x, xs)
      | none => .error (.missingField name)

/-- Takes in one member of an object.  A member that belongs to no field is passed over if `lenient`
and otherwise refused. -/
def takeMember (lenient : Bool) (source : Source) (fields : Fields τ) (slots : fields.Slots)
    (member : String × Reading) : Except DecodeError fields.Slots :=
  match fields.put source member.1 member.2 slots with
  | some result => result
  | none =>
      if lenient then
        if member.2.wellFormed then .ok slots else .error .malformed
      else .error (.unknownField member.1)

def ofMembers (lenient : Bool) (source : Source) (fields : Fields τ)
    (members : List (String × Reading)) (ending : Ending) : Except DecodeError τ := do
  let slots ← members.foldlM (fields.takeMember lenient source) fields.noSlots
  if ending = .closed then fields.finish slots else .error .malformed

/-- The record whose fields are the items from the given position on, and the items left over. -/
def ofItems (source : Source) (position : Nat) :
    {τ : Type} → (fields : Fields τ) → List Reading → Except DecodeError (τ × List Reading)
  | _, nil, items => .ok ((), items)
  | _, cons _ codec _ rest, item :: items => do
      let x ← codec.decode source item
      let (xs, extra) ← rest.ofItems source (position + 1) items
      .ok ((x, xs), extra)
  | _, cons _ _ (some x) rest, [] => do
      let (xs, extra) ← rest.ofItems source (position + 1) []
      .ok ((x, xs), extra)
  | _, cons _ _ none _, [] => .error (.wrongLength position)

/-- A record is an object with its fields as members, in any order, or an array with its fields as
items, in their own order. -/
def decode (lenient : Bool) (fields : Fields τ) (source : Source) :
    Reading → Except DecodeError τ
  | .object members ending => fields.ofMembers lenient source members ending
  | .array items => do
      let (xs, extra) ← fields.ofItems source 0 items
      match extra, source with
      | [], _ => .ok xs
      | _ :: _, .text => .error .malformed
      | _ :: _, .value => .error (.wrongLength items.length)
  | reading => .error reading.mismatch

end Fields

namespace Codec

/-- A record whose unknown members are passed over. -/
def record (fields : Fields τ) (toTuple : α → τ) (ofTuple : τ → α) : Codec α where
  encode x := .object (fields.encode (toTuple x))
  decode source reading := (fields.decode true source reading).map ofTuple

/-- A record that may have no unknown members. -/
def strictRecord (fields : Fields τ) (toTuple : α → τ) (ofTuple : τ → α) : Codec α where
  encode x := .object (fields.encode (toTuple x))
  decode source reading := (fields.decode false source reading).map ofTuple

end Codec

/-- A variant of a type: one value, or those made from some content. -/
inductive Variant (α : Type) where
  | bare (name : String) (value : α)
  | holding (name : String) (decode : Source → Reading → Except DecodeError α)

namespace Variant

/-- The variant whose content a codec reads. -/
def of (name : String) (codec : Codec β) (make : β → α) : Variant α :=
  holding name fun source reading => (codec.decode source reading).map make

def name : Variant α → String
  | bare name _ => name
  | holding name _ => name

def find (variants : List (Variant α)) (name : String) : Except DecodeError (Variant α) :=
  match variants.find? fun variant => variant.name = name with
  | some variant => .ok variant
  | none => .error (.unknownVariant name)

/-- The value of a variant that is given by its name alone. -/
def alone : Variant α → Except DecodeError α
  | bare _ value => .ok value
  | holding _ _ => .error .wrongType

/-- The value of a variant with its content; that of a bare variant is `null`. -/
def withContent (source : Source) : Variant α → Reading → Except DecodeError α
  | bare _ value, .null => .ok value
  | bare _ _, reading => .error reading.mismatch
  | holding _ decode, reading => decode source reading

/-- A variant is a string with its name, or an object of which the only member has its name and its
content. -/
def decode (variants : List (Variant α)) : Source → Reading → Except DecodeError α
  | _, .string name => find variants name >>= alone
  | .text, .object ((name, content) :: rest) ending => do
      let variant ← find variants name
      let x ← variant.withContent .text content
      if rest.isEmpty && ending = .closed then .ok x else .error .malformed
  | .text, _ => .error .malformed
  | .value, .object [(name, content)] _ => do
      let variant ← find variants name
      variant.withContent .value content
  | .value, .object _ _ => .error .outOfRange
  | .value, reading => .error reading.mismatch

end Variant

end MatchAction.Json
