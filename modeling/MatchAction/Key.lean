import MatchAction.Digest
import MatchAction.Error
import MatchAction.Schema

/-!
# Keys

An entry's place in its table is decided by its field matches alone: they are put into the order of
their field ids, written one after the other as bytes, and the digest of all the bytes is the key.
Neither field ids nor lengths are written.
-/

namespace MatchAction

/-- A byte for the type of the pattern, then the pattern's parts. -/
def Pattern.keyBytes : Pattern → Bytes
  | exact value => 1 :: value
  | lpm value length => 2 :: Bytes.bigEndian 4 length.toBitVec.toNat ++ value
  | range low high => 3 :: low ++ high
  | ternary value mask => 4 :: mask ++ value
  | optional value => 5 :: value

abbrev Key := Digest

namespace Key

/-- The bytes that field matches, in the order given, are written as. -/
def image (fieldMatches : List FieldMatch) : Bytes :=
  fieldMatches.flatMap fun fieldMatch => fieldMatch.pattern.keyBytes

/-- The key of field matches in the order given, for a table with the given number of match fields. -/
def derive (fieldCount : Nat) (fieldMatches : List FieldMatch) : Except Error Key :=
  match fieldMatches[fieldCount]? with
  | some extra => .error (.unexpectedMatch fieldCount extra)
  | none => .ok (Digest.ofBytes (image fieldMatches))

/-- The key of field matches in any order. -/
def ofMatches (fieldCount : Nat) (fieldMatches : List FieldMatch) : Except Error Key :=
  derive fieldCount (FieldMatch.sort fieldMatches)

end Key

end MatchAction
