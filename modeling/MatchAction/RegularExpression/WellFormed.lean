import MatchAction.RegularExpression.Set
import MatchAction.Text.Alphabetic

/-!
# Well-formed regular expressions

Which texts are regular expressions.  The texts in question hold no closing brace; so an opening
brace that does not stand for itself has nothing to end it.
-/

namespace MatchAction.RegularExpression

/-- A group that is being read, or the whole expression. -/
structure Group where
  mode : Mode
  /-- The alternatives that have been read. -/
  alternatives : Members
  /-- The parts of the alternative that is being read. -/
  parts : Members
  /-- The depth of the part just read if it can be repeated. -/
  last : Option Nat

namespace Group

def empty (mode : Mode) : Group := ⟨mode, .empty, .empty, none⟩

def add (group : Group) (depth : Nat) : Group :=
  { group with parts := group.parts.add depth, last := some depth }

/-- Flags for the rest of the group are a part, which cannot be repeated. -/
def addFlags (group : Group) (flags : List Char) : Group :=
  { group with mode := group.mode.after flags, parts := group.parts.add 0, last := none }

/-- The last part repeated, which is then the last part itself. -/
def repeatLast (group : Group) : Option Group :=
  group.last.map fun depth =>
    { group with
      parts := ⟨group.parts.count, max group.parts.deepest (depth + 1)⟩, last := some (depth + 1) }

/-- The alternative that is being read has come to its end. -/
def endAlternative (group : Group) : Group :=
  { group with
    alternatives := group.alternatives.add group.parts.depth, parts := .empty, last := none }

/-- The depth of what the group holds. -/
def depth (group : Group) : Nat := group.endAlternative.alternatives.depth

end Group

/-- An expression that is being read: the innermost open group, those around it, and the names of
groups so far. -/
structure Scan where
  group : Group
  outer : List Group
  names : List (List Char)

namespace Scan

def start : Scan := ⟨.empty .standard, [], []⟩

def enter (scan : Scan) (mode : Mode) : Scan :=
  { scan with group := .empty mode, outer := scan.group :: scan.outer }

/-- After the end of the innermost group. -/
def leave (scan : Scan) : Option Scan :=
  match scan.outer with
  | group :: outer => some { scan with group := group.add (scan.group.depth + 1), outer := outer }
  | [] => none

/-- With an atom, if the expression may have it. -/
def addAtom (scan : Scan) (atom : Atom) : Option Scan :=
  if atom.isPart scan.group.mode then some { scan with group := scan.group.add 0 } else none

/-- Whether a group may have a name: it begins with a letter or an underscore. -/
def isName : List Char → Bool
  | [] => false
  | c :: rest =>
      (c = '_' || Text.isAlphabetic c) &&
        rest.all fun c => ['_', '.', '[', ']'].contains c || Text.isAlphanumeric c

/-- Into a group whose name, which no other group has, stands in front of a closing bracket. -/
def enterNamed (scan : Scan) (text : List Char) : Option (Scan × List Char) :=
  let name := text.takeWhile (· ≠ '>')
  match text.dropWhile (· ≠ '>') with
  | '>' :: rest =>
      if isName name && !scan.names.contains name then
        some ({ scan.enter scan.group.mode with names := name :: scan.names }, rest)
      else none
  | _ => none

/-- Flags stand for the rest of the group or, in front of a colon, for a group of their own. -/
def scanFlags (scan : Scan) (text : List Char) : Option (Scan × List Char) :=
  let isFlag (c : Char) : Bool := c ≠ ':' && c ≠ ')'
  let flags := text.takeWhile isFlag
  if Mode.areFlags flags then
    match text.dropWhile isFlag with
    | ':' :: rest => some (scan.enter (scan.group.mode.after flags), rest)
    | ')' :: rest =>
        if flags ≠ [] then some ({ scan with group := scan.group.addFlags flags }, rest) else none
    | _ => none
  else none

/-- After an opening parenthesis. -/
def openGroup (scan : Scan) (text : List Char) : Option (Scan × List Char) :=
  match scan.group.mode.skip text with
  | '?' :: 'P' :: '<' :: rest => scan.enterNamed rest
  | '?' :: '<' :: rest => scan.enterNamed rest
  | '?' :: rest => scan.scanFlags rest
  | rest => some (scan.enter scan.group.mode, rest)

/-- What an opening bracket begins. -/
def openSet (scan : Scan) (text : List Char) : Option (Scan × List Char) := do
  let mode := scan.group.mode
  let (depth, rest) ← scanSet mode (text.length + 1) .empty (← scanOpening mode text)
  return ({ scan with group := scan.group.add depth }, rest)

/-- Repeats the last part; a question mark behind the sign asks for as few times as will do. -/
def repeatLast (scan : Scan) (text : List Char) : Option (Scan × List Char) := do
  let group ← scan.group.repeatLast
  return ({ scan with group := group }, if text.head? = some '?' then text.drop 1 else text)

/-- Reads the part that a character begins. -/
def step (scan : Scan) (c : Char) (text : List Char) : Option (Scan × List Char) :=
  match c with
  | '(' => scan.openGroup text
  | ')' => scan.leave.map (·, text)
  | '|' => some ({ scan with group := scan.group.endAlternative }, text)
  | '[' => scan.openSet text
  | '?' => scan.repeatLast text
  | '*' => scan.repeatLast text
  | '+' => scan.repeatLast text
  | '{' => none
  | '.' => (scan.addAtom .any).map (·, text)
  | '^' => (scan.addAtom (.anchor false)).map (·, text)
  | '$' => (scan.addAtom (.anchor false)).map (·, text)
  | c => do
      let (atom, rest) ← scanAtom scan.group.mode (c :: text)
      return (← scan.addAtom atom, rest)

/-- Reads to the end of the text, which must close every group, and gives the expression's depth.
Each step takes something off the text, so that its length and one more is fuel enough. -/
def run : Nat → Scan → List Char → Option Nat
  | 0, _, _ => none
  | fuel + 1, scan, text =>
      match scan.group.mode.skip text with
      | [] => if scan.outer.isEmpty then some scan.group.depth else none
      | c :: rest => do
          let (scan, rest) ← scan.step c rest
          run fuel scan rest

end Scan

/-- Regular expressions may be this deep. -/
def depthLimit : Nat := 250

def isWellFormed (text : List Char) : Bool :=
  (Scan.start.run (text.length + 1) text).any (· ≤ depthLimit)

end MatchAction.RegularExpression
