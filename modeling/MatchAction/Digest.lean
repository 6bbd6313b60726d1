import MatchAction.Bytes

/-!
# Secure hash algorithm, first version

The digest of a byte string in 160 bits.  The message is padded to blocks of 64 bytes; each block is
spread over eighty words, which are mixed one after the other into a state of five words.
-/

namespace MatchAction

abbrev Digest := BitVec 160

namespace Digest

/-- The digest as twenty bytes, most significant first. -/
def bytes (digest : Digest) : Bytes := Bytes.bigEndian 20 digest.toNat

/-- The digest as forty hexadecimal digits. -/
def hex (digest : Digest) : String := (bytes digest).hex

structure State where
  a : UInt32
  b : UInt32
  c : UInt32
  d : UInt32
  e : UInt32

def initial : State := ⟨0x67452301, 0xEFCDAB89, 0x98BADCFE, 0x10325476, 0xC3D2E1F0⟩

def rotateLeft (word : UInt32) (count : UInt32) : UInt32 :=
  (word <<< count) ||| (word >>> (32 - count))

/-- Words of four bytes each; up to three bytes at the end that fill no word are left out. -/
def words : Bytes → List UInt32
  | a :: b :: c :: d :: rest => UInt32.ofNat (Bytes.toNat [a, b, c, d]) :: words rest
  | _ => []

/-- Extends a schedule, kept with its last word first, by the given number of words. -/
def extend : Nat → List UInt32 → List UInt32
  | 0, schedule => schedule
  | count + 1, schedule =>
      let word := schedule.getD 2 0 ^^^ schedule.getD 7 0 ^^^ schedule.getD 13 0 ^^^
        schedule.getD 15 0
      extend count (rotateLeft word 1 :: schedule)

/-- The eighty words of a block. -/
def schedule (block : Bytes) : List UInt32 := (extend 64 (words block).reverse).reverse

/-- The function of a round, with the round's constant added. -/
def roundFunction (round : Nat) (b c d : UInt32) : UInt32 :=
  if round < 20 then ((b &&& c) ||| (~~~b &&& d)) + 0x5A827999
  else if round < 40 then (b ^^^ c ^^^ d) + 0x6ED9EBA1
  else if round < 60 then ((b &&& c) ||| (b &&& d) ||| (c &&& d)) + 0x8F1BBCDC
  else (b ^^^ c ^^^ d) + 0xCA62C1D6

/-- Mixes words into the state, from the given round on. -/
def rounds : Nat → State → List UInt32 → State
  | _, state, [] => state
  | round, ⟨a, b, c, d, e⟩, word :: rest =>
      let a' := rotateLeft a 5 + roundFunction round b c d + e + word
      rounds (round + 1) ⟨a', a, rotateLeft b 30, c, d⟩ rest

/-- Takes one block into the state. -/
def compress (state : State) (block : Bytes) : State :=
  let mixed := rounds 0 state (schedule block)
  ⟨state.a + mixed.a, state.b + mixed.b, state.c + mixed.c, state.d + mixed.d, state.e + mixed.e⟩

/-- The number of zero bytes that make a message of the given length, with the nine bytes around the
zeros, fill whole blocks. -/
def zeroCount (length : Nat) : Nat := 63 - (length + 8) % 64

/-- The message, a set bit, zeros, and the message's length in bits. -/
def pad (message : Bytes) : Bytes :=
  message ++ 0x80 :: List.replicate (zeroCount message.length) 0 ++
    Bytes.bigEndian 8 (8 * message.length)

/-- Takes the given number of blocks into the state. -/
def compressAll : Nat → State → Bytes → State
  | 0, state, _ => state
  | count + 1, state, bytes => compressAll count (compress state (bytes.take 64)) (bytes.drop 64)

def ofBytes (message : Bytes) : Digest :=
  let padded := pad message
  let state := compressAll (padded.length / 64) initial padded
  state.a.toBitVec ++ state.b.toBitVec ++ state.c.toBitVec ++ state.d.toBitVec ++ state.e.toBitVec

end Digest

end MatchAction
