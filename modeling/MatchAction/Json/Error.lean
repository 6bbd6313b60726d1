/-!
# Decoding errors

Why a JSON text or value is not the encoding of what was asked for.
-/

namespace MatchAction.Json

inductive DecodeError where
  /-- The text is no JSON, breaks off, or goes on after its value. -/
  | malformed
  | wrongType
  | outOfRange
  | wrongLength (length : Nat)
  | missingField (name : String)
  | duplicateField (name : String)
  | unknownField (name : String)
  | unknownVariant (name : String)
  /-- An object that should say which variant it is, by the name of a member, does not. -/
  | noVariant (type : String)
  deriving DecidableEq

def DecodeError.message : DecodeError → String
  | malformed => "syntax"
  | wrongType => "invalid type"
  | outOfRange => "invalid value"
  | wrongLength length => s!"invalid length {length}"
  | missingField name => "missing field " ++ quoted name
  | duplicateField name => "duplicate field " ++ quoted name
  | unknownField name => "unknown field " ++ quoted name
  | unknownVariant name => "unknown variant " ++ quoted name
  | noVariant type => s!"no variant of enum {type} found in flattened data"
where
  /-- The name between grave accents. -/
  quoted (name : String) : String := "\x60" ++ name ++ "\x60"

end MatchAction.Json
