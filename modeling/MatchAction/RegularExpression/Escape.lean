import MatchAction.RegularExpression.Mode
import MatchAction.Text.HexDigit

/-!
# Atoms and escapes

The smallest parts of a regular expression, and those that are written with a backslash.
-/

namespace MatchAction.RegularExpression

/-- The smallest part of an expression. -/
inductive Atom where
  /-- One character, written as the number of a byte or otherwise. -/
  | character (c : Char) (isByte : Bool)
  /-- Any character. -/
  | any
  /-- A digit, a blank, or a character of a word. -/
  | classMember
  /-- A place, which is a place in a word or in a text. -/
  | anchor (isOfWord : Bool)
  deriving DecidableEq

namespace Atom

/-- Whether an expression may have the atom by itself.  Bytes must be those of a text. -/
def isPart (mode : Mode) : Atom → Bool
  | character c isByte => mode.namesCharacters || !mode.unicode && (!isByte || c.toNat < 128)
  | any => mode.unicode
  | classMember => !mode.unicode
  | anchor isOfWord => !mode.unicode || !isOfWord

/-- Whether a set may have the atom as a member. -/
def isMember (mode : Mode) : Atom → Bool
  | character c _ => mode.namesCharacters || !mode.unicode && c.toNat < 128
  | classMember => !mode.unicode
  | _ => false

end Atom

/-- The number that so many hexadecimal digits add to what came before them, and what follows. -/
def scanDigits (mode : Mode) : Nat → Nat → List Char → Option (Nat × List Char)
  | 0, value, text => some (value, text)
  | count + 1, value, text =>
      match mode.skip text with
      | digit :: rest => do scanDigits mode count (16 * value + (← Text.hexValue digit)) rest
      | [] => none

/-- The character whose number is written with so many hexadecimal digits, and what follows. -/
def scanCode (mode : Mode) (count : Nat) (text : List Char) : Option (Char × List Char) := do
  let (value, rest) ← scanDigits mode count 0 text
  guard (decide value.isValidChar)
  return (Char.ofNat value, rest)

/-- The characters that a backslash and a single letter stand for. -/
def controls : List (Char × Char) :=
  [('a', '\x07'), ('f', '\x0c'), ('n', '\n'), ('r', '\r'), ('t', '\t'), ('v', '\x0b')]

/-- What a backslash and the text after it stand for, and what follows.  No closing brace is there
to end a number that is written between braces; and there is no way to ask for a property of
characters, nor for what is outside of a class. -/
def scanEscape (mode : Mode) : List Char → Option (Atom × List Char)
  | [] => none
  | 'x' :: rest => (scanCode mode 2 rest).map fun (c, rest) => (.character c true, rest)
  | 'u' :: rest => (scanCode mode 4 rest).map fun (c, rest) => (.character c false, rest)
  | 'U' :: rest => (scanCode mode 8 rest).map fun (c, rest) => (.character c false, rest)
  | c :: rest =>
      if ['d', 's', 'w'].contains c then some (.classMember, rest)
      else if ['A', 'z'].contains c then some (.anchor false, rest)
      else if ['b', 'B', '<', '>'].contains c then some (.anchor true, rest)
      else
        match controls.lookup c with
        | some control => some (.character control false, rest)
        | none =>
            if c.toNat < 128 && !c.isAlphanum then some (.character c false, rest) else none

/-- The atom at the start of a text in which no character but a backslash is special, and what
follows. -/
def scanAtom (mode : Mode) : List Char → Option (Atom × List Char)
  | '\\' :: rest => scanEscape mode rest
  | c :: rest => some (.character c false, rest)
  | [] => none

end MatchAction.RegularExpression
