import MatchAction.Json.Number
import MatchAction.Json.Quoted

/-!
# Tokens

A JSON text as a list of tokens.  Blanks separate tokens and are dropped.  At the first place that
starts no token the list ends with the token `malformed`.
-/

namespace MatchAction.Json

inductive Token where
  | openBracket
  | closeBracket
  | openBrace
  | closeBrace
  | comma
  | colon
  | null
  | bool (value : Bool)
  | number (value : Number)
  /-- A quoted text, without its string if half of a surrogate pair is in it. -/
  | string (value : Option String)
  | malformed
  deriving DecidableEq

namespace Token

def isBlank (c : Char) : Bool := c = ' ' || c = '\t' || c = '\n' || c = '\r'

/-- The token that a text without leading blanks starts with.  Nothing follows a malformed one. -/
def first : List Char → Option (Token × List Char)
  | [] => none
  | '[' :: rest => some (openBracket, rest)
  | ']' :: rest => some (closeBracket, rest)
  | '{' :: rest => some (openBrace, rest)
  | '}' :: rest => some (closeBrace, rest)
  | ',' :: rest => some (comma, rest)
  | ':' :: rest => some (colon, rest)
  | 'n' :: 'u' :: 'l' :: 'l' :: rest => some (null, rest)
  | 't' :: 'r' :: 'u' :: 'e' :: rest => some (bool true, rest)
  | 'f' :: 'a' :: 'l' :: 's' :: 'e' :: rest => some (bool false, rest)
  | '"' :: rest =>
      match Quoted.scan rest with
      | some (value, rest) => some (string value, rest)
      | none => some (malformed, [])
  | text =>
      match Number.scan text with
      | some (value, rest) => some (number value, rest)
      | none => some (malformed, [])

/-- The tokens of a text after those already done; each token takes a character at least. -/
def scanFrom : Nat → List Token → List Char → List Token
  | 0, done, _ => done.reverse
  | fuel + 1, done, text =>
      match first (text.dropWhile isBlank) with
      | none => done.reverse
      | some (token, rest) => scanFrom fuel (token :: done) rest

def scan (text : List Char) : List Token := scanFrom (text.length + 1) [] text

end Token

end MatchAction.Json
