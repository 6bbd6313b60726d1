import MatchAction.Text.Blank

/-!
# Modes of a regular expression

A regular expression is read in a mode, which flags switch for the rest of a group or for a group
of their own.  Of all flags three bear on what may be written: an expression has nothing but the
numbers of the characters to go by, so that words, classes and the cases of letters are to be had
only among the first 128, where an expression speaks of bytes.
-/

namespace MatchAction.RegularExpression

/-- What follows blanks and comments.  A comment goes from a number sign to the end of its line. -/
def dropSpace (inComment : Bool) : List Char → List Char
  | [] => []
  | c :: rest =>
      if inComment then dropSpace (c ≠ '\n') rest
      else if c = '#' then dropSpace true rest
      else if Text.isBlank c then dropSpace false rest
      else c :: rest

structure Mode where
  /-- Expressions speak of characters, not of the bytes that these are encoded in. -/
  unicode : Bool
  /-- Letters stand for both of their cases. -/
  caseless : Bool
  /-- Blanks and comments between the parts of an expression are passed over. -/
  spaced : Bool
  deriving DecidableEq

namespace Mode

/-- The mode in which every expression begins. -/
def standard : Mode := ⟨true, false, false⟩

/-- What is read next. -/
def skip (mode : Mode) (text : List Char) : List Char :=
  if mode.spaced then dropSpace false text else text

/-- The character after a hyphen in a set, as far as it tells whether the hyphen stands for a range.
A number sign alone begins no comment here. -/
def afterHyphen (mode : Mode) (text : List Char) : Option Char :=
  if mode.spaced then
    match text.dropWhile Text.isBlank with
    | '#' :: rest => (rest.dropWhile Text.isBlank).head?
    | text => text.head?
  else text.head?

/-- Flags are letters, each at most once; a hyphen switches off those that follow it. -/
def areFlags (text : List Char) : Bool :=
  text.all ['i', 'm', 's', 'U', 'u', 'R', 'x', '-'].contains && decide text.Nodup &&
    text.getLast? ≠ some '-'

/-- A flag's setting after flags. -/
def switch (flag : Char) (flags : List Char) (before : Bool) : Bool :=
  if flags.contains flag then !(flags.takeWhile (· ≠ flag)).contains '-' else before

def after (mode : Mode) (flags : List Char) : Mode :=
  ⟨switch 'u' flags mode.unicode, switch 'i' flags mode.caseless, switch 'x' flags mode.spaced⟩

/-- Whether an expression may name characters of any kind. -/
def namesCharacters (mode : Mode) : Bool := mode.unicode && !mode.caseless

end Mode

end MatchAction.RegularExpression
