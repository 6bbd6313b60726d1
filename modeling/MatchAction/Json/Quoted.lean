import MatchAction.Text.HexDigit

/-!
# Quoted text

A string between quotes.  Writing escapes quotes, backslashes and the characters below the blank,
and leaves every other character as it is.  Reading also takes the escape of a solidus and of any
code unit of sixteen bits; two units that form a surrogate pair stand for one character, and half
of a pair stands for none.
-/

namespace MatchAction.Json.Quoted

/-- How a character stands between quotes. -/
def escape (c : Char) : List Char :=
  match c with
  | '"' => ['\\', '"']
  | '\\' => ['\\', '\\']
  | '\x08' => ['\\', 'b']
  | '\x0c' => ['\\', 'f']
  | '\n' => ['\\', 'n']
  | '\r' => ['\\', 'r']
  | '\t' => ['\\', 't']
  | c =>
      if c.toNat < 32 then
        ['\\', 'u', '0', '0', Nat.digitChar (c.toNat / 16), Nat.digitChar (c.toNat % 16)]
      else [c]

/-- Appends a string between quotes. -/
def write (out : String) (s : String) : String :=
  (s.toList.foldl (fun out c => (escape c).foldl String.push out) (out.push '"')).push '"'

/-- A part of a quoted text: a character, or a code unit given by its number. -/
inductive Piece where
  | char (c : Char)
  | unit (code : Nat)

/-- The character that a backslash and a single letter stand for. -/
def shortEscape : Char → Option Char
  | '"' => some '"'
  | '\\' => some '\\'
  | '/' => some '/'
  | 'b' => some '\x08'
  | 'f' => some '\x0c'
  | 'n' => some '\n'
  | 'r' => some '\r'
  | 't' => some '\t'
  | _ => none

/-- The number that four hexadecimal digits of either case denote. -/
def codeUnit (a b c d : Char) : Option Nat := do
  return (← Text.hexValue a) * 4096 + (← Text.hexValue b) * 256 + (← Text.hexValue c) * 16 +
    (← Text.hexValue d)

/-- The pieces before the closing quote, after those already done, and what follows the quote.
Fails on an unknown escape, a character below the blank, and a quote that never closes. -/
def pieces : List Piece → List Char → Option (List Piece × List Char)
  | done, '"' :: rest => some (done.reverse, rest)
  | done, '\\' :: 'u' :: a :: b :: c :: d :: rest =>
      match codeUnit a b c d with
      | some code => pieces (.unit code :: done) rest
      | none => none
  | done, '\\' :: letter :: rest =>
      match shortEscape letter with
      | some c => pieces (.char c :: done) rest
      | none => none
  | done, c :: rest =>
      if c = '\\' ∨ c.toNat < 32 then none else pieces (.char c :: done) rest
  | _, [] => none

def isHighHalf (code : Nat) : Bool := 0xD800 ≤ code && code < 0xDC00

def isLowHalf (code : Nat) : Bool := 0xDC00 ≤ code && code < 0xE000

/-- The characters that pieces stand for, after those already done; none if half of a surrogate pair
is among them. -/
def join : List Char → List Piece → Option (List Char)
  | done, [] => some done.reverse
  | done, .char c :: rest => join (c :: done) rest
  | done, .unit high :: .unit low :: rest =>
      if isHighHalf high && isLowHalf low then
        join (Char.ofNat (0x10000 + (high - 0xD800) * 0x400 + (low - 0xDC00)) :: done) rest
      else if isHighHalf high || isLowHalf high then none
      else join (Char.ofNat high :: done) (.unit low :: rest)
  | done, .unit code :: rest =>
      if isHighHalf code || isLowHalf code then none else join (Char.ofNat code :: done) rest

/-- The text after an opening quote: the string up to the closing quote, none in its place if no
string has these characters, and what follows. -/
def scan (text : List Char) : Option (Option String × List Char) :=
  (pieces [] text).map fun (pieces, rest) => ((join [] pieces).map String.ofList, rest)

end MatchAction.Json.Quoted
