import MatchAction.Schema
import MatchAction.Entry

/-!
# Encoding of field values

A 64-bit number is written for a field of a given width in just the bytes that the width needs, most
significant first, with the bits above the width cleared.  Wider fields get all eight bytes.
-/

namespace MatchAction

/-- The one failure of an encoding: the width is so close to the end of the signed 32-bit range that
rounding it up to whole bytes leaves the range. -/
structure WidthOverflow where
  bitWidth : Int32
  deriving DecidableEq

/-- The number of bytes that a width needs, eight at most; a negative width needs none. -/
def byteCount (bitWidth : Int32) : Nat := min 8 ((bitWidth.toInt.toNat + 7) / 8)

/-- The value without its bits above the width.  A width outside 1 to 63 clears nothing. -/
def clearAbove (value : UInt64) (bitWidth : Int32) : Nat :=
  if 1 ≤ bitWidth.toInt ∧ bitWidth.toInt < 64 then value.toNat % (1 <<< bitWidth.toInt.toNat)
  else value.toNat

def encodeValue (value : UInt64) (bitWidth : Int32) : Except WidthOverflow Bytes :=
  if bitWidth.toInt + 7 < 2147483648 then
    .ok (Bytes.bigEndian (byteCount bitWidth) (clearAbove value bitWidth))
  else
    .error ⟨bitWidth⟩

namespace MatchField

/-- The pattern that a match type has for one encoded value, given the encoding of all ones. -/
def patternFor (field : MatchField) (value ones : Bytes) : Option Pattern :=
  match field.matchType with
  | .exact => some (.exact value)
  | .lpm => some (.lpm value field.bitWidth)
  | .ternary => some (.ternary value ones)
  | .range => some (.range value value)
  | .optional => some (.optional value)
  | .unspecified | .other _ => none

/-- The field match that only `value` satisfies: a full-length LPM match, a ternary match under a
mask of ones, a range of one value.  Match types without a pattern of their own have none. -/
def fieldMatch (field : MatchField) (value : UInt64) : Except WidthOverflow (Option FieldMatch) := do
  let value ← encodeValue value field.bitWidth
  let ones ← encodeValue 18446744073709551615 field.bitWidth
  return (field.patternFor value ones).map (⟨field.id, ·⟩)

end MatchField

end MatchAction
