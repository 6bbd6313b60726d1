import MatchAction.Bytes

/-!
# Text for a terminal

A terminal takes some characters for commands.  Text that comes from outside is shown with the codes
of these characters in their place; a tab and the ends of lines stay as they are.
-/

namespace MatchAction.Terminal

/-- The commands among the first 128 characters: bell, backspace, form feed, escape and delete. -/
def commands : List Char := ['\x07', '\x08', '\x0c', '\x1b', '\x7f']

/-- Whether a character is one of the 32 commands that follow the first 128 characters. -/
def isHighCommand (c : Char) : Bool := 0x80 ≤ c.toNat && c.toNat < 0xA0

/-- The two digits of a code below 256. -/
def code (c : Char) : List Char := Bytes.hexDigits [UInt8.ofNat c.toNat]

def escape (c : Char) : List Char :=
  if commands.contains c then '\\' :: 'x' :: code c
  else if isHighCommand c then '\\' :: 'u' :: '{' :: code c ++ ['}']
  else [c]

def display (s : String) : String := String.ofList (s.toList.flatMap escape)

end MatchAction.Terminal
