/-!
# Pieces of a text

Pieces that are given by the places in a text of the bytes that encode it.
-/

namespace MatchAction.Text

/-- The number of bytes that encode a text. -/
def size : List Char → Nat
  | [] => 0
  | c :: rest => c.utf8Size + size rest

/-- What follows so many bytes, if these encode whole characters. -/
def dropBytes : Nat → List Char → Option (List Char)
  | 0, text => some text
  | _ + 1, [] => none
  | count + 1, c :: rest =>
      if c.utf8Size ≤ count + 1 then dropBytes (count + 1 - c.utf8Size) rest else none

/-- The first so many bytes, if these encode whole characters. -/
def takeBytes : Nat → List Char → Option (List Char)
  | 0, _ => some []
  | _ + 1, [] => none
  | count + 1, c :: rest =>
      if c.utf8Size ≤ count + 1 then (takeBytes (count + 1 - c.utf8Size) rest).map (c :: ·) else none

/-- The piece of a text that begins after so many bytes and has so many itself. -/
def cut (start length : Nat) (text : List Char) : Option (List Char) :=
  (dropBytes start text).bind (takeBytes length)

end MatchAction.Text
