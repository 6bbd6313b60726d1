import MatchAction.RegularExpression.Escape
import MatchAction.RegularExpression.Members

/-!
# Sets of characters

A set is written between brackets.  Its members are characters, ranges, named sets and further sets
between brackets of their own; operators of two characters stand between lists of members.
-/

namespace MatchAction.RegularExpression

/-- A set that is being read. -/
structure OpenSet where
  /-- The depth of what stands in front of the last operator. -/
  left : Option Nat
  /-- The members since the last operator, or since the bracket. -/
  members : Members
  /-- Nothing but hyphens has been read so far. -/
  isAtStart : Bool

namespace OpenSet

def empty : OpenSet := ⟨none, .empty, true⟩

def add (set : OpenSet) (depth : Nat) : OpenSet :=
  { set with members := set.members.add depth, isAtStart := false }

/-- The depth of what stands between the brackets. -/
def depth (set : OpenSet) : Nat :=
  match set.left with
  | none => set.members.depth
  | some left => max left set.members.depth + 1

/-- After an operator. -/
def operate (set : OpenSet) : OpenSet := ⟨some set.depth, .empty, false⟩

/-- Whether a character stands for itself here only because no other member comes before it: a
hyphen, and a closing bracket right after the opening one. -/
def isPlain (set : OpenSet) (c : Char) : Bool :=
  set.isAtStart && (c = '-' || c = ']' && set.members.count = 0)

end OpenSet

/-- The names of the sets that are written between colons. -/
def setNames : List String :=
  ["alnum", "alpha", "ascii", "blank", "cntrl", "digit", "graph", "lower", "print", "punct", "space",
   "upper", "word", "xdigit"]

/-- A named set in brackets of its own, after the opening one: whether it is negated, and what
follows. -/
def scanNamedSet : List Char → Option (Bool × List Char)
  | ':' :: rest =>
      let name := if rest.head? = some '^' then rest.drop 1 else rest
      match name.dropWhile (· ≠ ':') with
      | ':' :: ']' :: following =>
          if setNames.contains (String.ofList (name.takeWhile (· ≠ ':'))) then
            some (rest.head? = some '^', following)
          else none
      | _ => none
  | _ => none

/-- Whether a set may have a named set as a member.  A negated one has characters beyond the first
128. -/
def allowsNamedSet (mode : Mode) (isNegated : Bool) : Bool :=
  mode.namesCharacters || !mode.unicode && !isNegated

/-- What follows the opening bracket of a set and the sign that negates it.  A negated set has
characters beyond the first 128. -/
def scanOpening (mode : Mode) (text : List Char) : Option (List Char) :=
  match mode.skip text with
  | '^' :: rest => if mode.unicode then some rest else none
  | text => some text

/-- What follows a member that is a single atom, or a range from a character to one that does not
come before it. -/
def scanMember (mode : Mode) (text : List Char) : Option (List Char) := do
  let (first, rest) ← scanAtom mode text
  guard (first.isMember mode)
  match mode.skip rest with
  | '-' :: following =>
      if [some '-', some ']'].contains (mode.afterHyphen following) then return '-' :: following
      else
        let (last, rest) ← scanAtom mode (mode.skip following)
        guard (last.isMember mode)
        match first, last with
        | .character low _, .character high _ => if low ≤ high then return rest else none
        | _, _ => none
  | rest => return rest

/-- Reads a set on to its closing bracket: the depth of the set and what follows.  Each step takes
something off the text, so that its length and one more is fuel enough. -/
def scanSet (mode : Mode) : Nat → OpenSet → List Char → Option (Nat × List Char)
  | 0, _, _ => none
  | fuel + 1, set, text =>
      match mode.skip text with
      | [] => none
      | c :: rest =>
          if set.isPlain c then
            if (Atom.character c false).isMember mode then
              scanSet mode fuel { set.add 0 with isAtStart := c = '-' } rest
            else none
          else
            match c, rest with
            | ']', rest => some (set.depth + 1, rest)
            | '[', rest =>
                match scanNamedSet rest with
                | some (isNegated, rest) =>
                    if allowsNamedSet mode isNegated then scanSet mode fuel (set.add 0) rest else none
                | none => do
                    let (depth, rest) ← scanSet mode fuel .empty (← scanOpening mode rest)
                    scanSet mode fuel (set.add depth) rest
            | '&', '&' :: rest => scanSet mode fuel set.operate rest
            | '-', '-' :: rest => scanSet mode fuel set.operate rest
            | '~', '~' :: rest => scanSet mode fuel set.operate rest
            | c, rest => do scanSet mode fuel (set.add 0) (← scanMember mode (c :: rest))

end MatchAction.RegularExpression
