/-!
# Byte strings

Values of match fields and action parameters are byte strings of any length.  A number is written
as a byte string with its most significant byte first, in a count of bytes chosen by the caller.
-/

namespace MatchAction

abbrev Bytes := List UInt8

namespace Bytes

/-- The low `count` bytes of a number, most significant first. -/
def bigEndian : Nat → Nat → Bytes
  | 0, _ => []
  | count + 1, n => UInt8.ofNat (n >>> (8 * count)) :: bigEndian count n

/-- The number that a byte string denotes, most significant byte first. -/
def toNat (bytes : Bytes) : Nat :=
  bytes.foldl (fun n byte => n * 256 + byte.toNat) 0

/-- Two lowercase hexadecimal digits for each byte. -/
def hexDigits (bytes : Bytes) : List Char :=
  bytes.flatMap fun byte => [Nat.digitChar (byte.toNat / 16), Nat.digitChar (byte.toNat % 16)]

/-- The bytes as hexadecimal digits without a mark in front. -/
def hex (bytes : Bytes) : String := String.ofList bytes.hexDigits

/-- The bytes as one hexadecimal number, `0x` alone for the empty string. -/
def text (bytes : Bytes) : String := "0x" ++ bytes.hex

@[simp] theorem length_bigEndian (count n : Nat) : (bigEndian count n).length = count := by
  induction count with
  | zero => rfl
  | succ count ih => simp [bigEndian, ih]

end Bytes

end MatchAction
