import MatchAction.Json.Codec
import MatchAction.Schema

/-!
# JSON form of schemas
-/

namespace MatchAction

open Json

namespace Preamble

def fields : Fields (UInt32 × String × String × Unit) :=
  .required "id" .unsigned32 <|
  .required "name" .string <|
  .optional "alias" .string "" .nil

def codec : Codec Preamble :=
  .record fields (fun p => (p.id, p.name, p.shortName, ()))
    (fun (id, name, shortName, ()) => ⟨id, name, shortName⟩)

end Preamble

namespace MatchType

def variants : List (Variant MatchType) :=
  [.bare "unspecified" unspecified,
   .bare "exact" exact,
   .bare "lpm" lpm,
   .bare "ternary" ternary,
   .bare "range" range,
   .bare "optional" optional,
   .of "other" .string other]

def codec : Codec MatchType where
  encode
    | unspecified => .string "unspecified"
    | exact => .string "exact"
    | lpm => .string "lpm"
    | ternary => .string "ternary"
    | range => .string "range"
    | optional => .string "optional"
    | other name => .object [("other", .string name)]
  decode := Variant.decode variants

end MatchType

namespace MatchField

def fields : Fields (Preamble × Int32 × MatchType × Unit) :=
  .required "preamble" Preamble.codec <|
  .required "bit_width" .signed32 <|
  .required "match_type" MatchType.codec .nil

def codec : Codec MatchField :=
  .record fields (fun f => (f.preamble, f.bitWidth, f.matchType, ()))
    (fun (preamble, bitWidth, matchType, ()) => ⟨preamble, bitWidth, matchType⟩)

end MatchField

namespace TableSchema

def fields : Fields (Preamble × List MatchField × Option UInt64 × Bool × Unit) :=
  .required "preamble" Preamble.codec <|
  .optional "match_fields" (.list MatchField.codec) [] <|
  .optional "max_entries" (.option .unsigned64) none <|
  .optional "is_const_table" .bool false .nil

def codec : Codec TableSchema :=
  .record fields (fun t => (t.preamble, t.matchFields, t.maxEntries, t.isConst, ()))
    (fun (preamble, matchFields, maxEntries, isConst, ()) =>
      ⟨preamble, matchFields, maxEntries, isConst⟩)

end TableSchema

end MatchAction
