import MatchAction.Json.Token

/-!
# Readings

What a JSON text says, as far as it goes.  A reading is a tree in which the places that cannot be
used are marked, so that a decoder, which goes through the tree in the order of the text, meets a
fault exactly where the text has it:

* `malformed` stands where the text breaks off or is no JSON; nothing after that place is in the tree;
* `unusable` stands for a part that is well formed but that no value can hold: half of a surrogate
  pair, a number beyond the doubles, a container that lies too deep.

The tree is built in one pass over the tokens, with the open containers on a stack.
-/

namespace MatchAction.Json

/-- What follows the members of an object. -/
inductive Ending where
  /-- The closing brace. -/
  | closed
  /-- A member whose name cannot be used, then more members and the closing brace. -/
  | spoiled
  /-- Something else than a member or the closing brace. -/
  | broken
  deriving DecidableEq

inductive Reading where
  | null
  | bool (value : Bool)
  | integer (value : Int)
  | real
  | string (value : String)
  | array (items : List Reading)
  | object (members : List (String × Reading)) (ending : Ending)
  | unusable
  | malformed

namespace Reading

mutual
/-- Whether a reading passes as the value of a member that nobody asks for. -/
def wellFormed : Reading → Bool
  | malformed => false
  | array items => allWellFormed items
  | object members .closed => membersWellFormed members
  | object members .spoiled => membersWellFormed members
  | object _ .broken => false
  | _ => true

def allWellFormed : List Reading → Bool
  | [] => true
  | item :: rest => item.wellFormed && allWellFormed rest

def membersWellFormed : List (String × Reading) → Bool
  | [] => true
  | (_, value) :: rest => value.wellFormed && membersWellFormed rest
end

mutual
/-- Whether every part of a reading can be used. -/
def usable : Reading → Bool
  | malformed => false
  | unusable => false
  | array items => allUsable items
  | object members .closed => membersUsable members
  | object _ _ => false
  | _ => true

def allUsable : List Reading → Bool
  | [] => true
  | item :: rest => item.usable && allUsable rest

def membersUsable : List (String × Reading) → Bool
  | [] => true
  | (_, value) :: rest => value.usable && membersUsable rest
end

/-- The value that a single token is. -/
def ofToken : Token → Option Reading
  | .null => some null
  | .bool value => some (bool value)
  | .number (.integer value) => some (integer value)
  | .number (.real true) => some real
  | .number (.real false) => some unusable
  | .string (some value) => some (string value)
  | .string none => some unusable
  | .openBracket | .openBrace | .closeBracket | .closeBrace | .comma | .colon | .malformed => none

/-- The members of an open object, last first.  After a name that cannot be used no member is kept. -/
structure Members where
  done : List (String × Reading)
  spoiled : Bool

namespace Members

def none : Members := ⟨[], false⟩

/-- Adds a member, by the name that its token has. -/
def add (members : Members) (name : Option String) (value : Reading) : Members :=
  match members.spoiled, name with
  | false, some name => ⟨(name, value) :: members.done, false⟩
  | _, _ => ⟨members.done, true⟩

/-- The object when its closing brace is read. -/
def close (members : Members) : Reading :=
  object members.done.reverse (if members.spoiled then .spoiled else .closed)

/-- The object when it breaks off. -/
def cut (members : Members) : Reading := object members.done.reverse .broken

end Members

/-- An open container that waits for the value of an item or of a member. -/
inductive Frame where
  | item (done : List Reading)
  | member (members : Members) (name : Option String)

/-- What is read next, inside the containers of a stack. -/
inductive State where
  | nextValue (stack : List Frame)
  | firstItem (stack : List Frame)
  | afterItem (done : List Reading) (stack : List Frame)
  | firstName (stack : List Frame)
  | nextName (members : Members) (stack : List Frame)
  | colon (members : Members) (name : Option String) (stack : List Frame)
  | afterMember (members : Members) (stack : List Frame)
  /-- The value is complete; `trailing` tells whether anything stands after it. -/
  | complete (value : Reading) (trailing : Bool)
  /-- The text breaks off inside the value. -/
  | broken (value : Reading)

/-- The number of containers that may lie within one another. -/
def maxDepth : Nat := 127

/-- A container inside the containers of a stack, or what takes its place if it lies too deep. -/
def nest (stack : List Frame) (container tooDeep : Reading) : Reading :=
  if (stack.drop (maxDepth - 1)).isEmpty then container else tooDeep

/-- The whole value when the text breaks off inside the containers of a stack, with `inner` as the
last thing in the innermost of them. -/
def breakOff : List Frame → Reading → Reading
  | [], inner => inner
  | .item done :: stack, inner =>
      breakOff stack (nest stack (array (inner :: done).reverse) malformed)
  | .member members name :: stack, inner =>
      breakOff stack (nest stack (members.add name inner).cut malformed)

/-- Puts a value into the innermost container. -/
def give (value : Reading) : List Frame → State
  | [] => .complete value false
  | .item done :: stack => .afterItem (value :: done) stack
  | .member members name :: stack => .afterMember (members.add name value) stack

/-- Starts a value with its first token. -/
def start (stack : List Frame) : Token → State
  | .openBracket => .firstItem stack
  | .openBrace => .firstName stack
  | token =>
      match ofToken token with
      | some value => give value stack
      | none => .broken (breakOff stack malformed)

def closeArray (done : List Reading) (stack : List Frame) : State :=
  give (nest stack (array done.reverse) unusable) stack

def closeObject (members : Members) (stack : List Frame) : State :=
  give (nest stack members.close unusable) stack

/-- The whole value when the text breaks off between the members of an object. -/
def cutObject (members : Members) (stack : List Frame) : Reading :=
  breakOff stack (nest stack members.cut malformed)

def step : State → Token → State
  | .nextValue stack, token => start stack token
  | .firstItem stack, .closeBracket => closeArray [] stack
  | .firstItem stack, token => start (.item [] :: stack) token
  | .afterItem done stack, .comma => .nextValue (.item done :: stack)
  | .afterItem done stack, .closeBracket => closeArray done stack
  | .afterItem done stack, _ => .broken (breakOff (.item done :: stack) malformed)
  | .firstName stack, .closeBrace => closeObject .none stack
  | .firstName stack, .string name => .colon .none name stack
  | .firstName stack, _ => .broken (cutObject .none stack)
  | .nextName members stack, .string name => .colon members name stack
  | .nextName members stack, _ => .broken (cutObject members stack)
  | .colon members name stack, .colon => .nextValue (.member members name :: stack)
  | .colon members name stack, _ => .broken (breakOff (.member members name :: stack) malformed)
  | .afterMember members stack, .comma => .nextName members stack
  | .afterMember members stack, .closeBrace => closeObject members stack
  | .afterMember members stack, _ => .broken (cutObject members stack)
  | .complete value _, _ => .complete value true
  | .broken value, _ => .broken value

/-- The value when the text ends in a state. -/
def soFar : State → Reading
  | .nextValue stack => breakOff stack malformed
  | .firstItem stack => breakOff (.item [] :: stack) malformed
  | .afterItem done stack => breakOff (.item done :: stack) malformed
  | .firstName stack => cutObject .none stack
  | .nextName members stack => cutObject members stack
  | .colon members name stack => breakOff (.member members name :: stack) malformed
  | .afterMember members stack => cutObject members stack
  | .complete value _ => value
  | .broken value => value

end Reading

/-- A whole text: its value, and whether anything but blanks stands after it. -/
structure Document where
  value : Reading
  trailing : Bool

namespace Document

def ofTokens (tokens : List Token) : Document :=
  match tokens.foldl Reading.step (.nextValue []) with
  | .complete value trailing => ⟨value, trailing⟩
  | state => ⟨Reading.soFar state, false⟩

def ofText (text : String) : Document := ofTokens (Token.scan text.toList)

end Document

namespace Reading

/-- Of neighbours with one name, the last. -/
def lastOfEach : List (String × Reading) → List (String × Reading)
  | a :: b :: rest => if a.1 = b.1 then lastOfEach (b :: rest) else a :: lastOfEach (b :: rest)
  | members => members

mutual
/-- The reading with each object as a map: one member for each name, the last of those given, in the
order of the names. -/
def mapped : Reading → Reading
  | array items => array (mappedItems [] items)
  | object members ending => object (mappedMembers [] members) ending
  | reading => reading

def mappedItems (done : List Reading) : List Reading → List Reading
  | [] => done.reverse
  | item :: rest => mappedItems (item.mapped :: done) rest

def mappedMembers (done : List (String × Reading)) :
    List (String × Reading) → List (String × Reading)
  | [] => lastOfEach (done.reverse.mergeSort fun a b => a.1 ≤ b.1)
  | (name, value) :: rest => mappedMembers ((name, value.mapped) :: done) rest
end

end Reading

end MatchAction.Json
