import MatchAction.Json.Codec

/-!
# Input files

A file is read as a whole, as text, and decoded.  What stands in the way of that is told as a chain
of messages from the outermost cause in.
-/

namespace MatchAction

/-- What a path leads to. -/
inductive File where
  | missing
  | directory
  | denied
  | content (bytes : ByteArray)

/-- Why a path gives no text. -/
inductive FileError where
  | missing
  | directory
  | denied
  | notUnicode
  deriving DecidableEq

def FileError.message : FileError → String
  | missing => "No such file or directory (os error 2)"
  | directory => "Is a directory (os error 21)"
  | denied => "Permission denied (os error 13)"
  | notUnicode => "stream did not contain valid UTF-8"

/-- Why the file at a path gives no value. -/
inductive LoadError where
  | unreadable (path : String) (cause : FileError)
  | undecodable (path : String) (cause : Json.DecodeError)
  deriving DecidableEq

def LoadError.chain : LoadError → List String
  | unreadable path cause => [s!"{path}: read failed", cause.message]
  | undecodable path cause => [s!"{path}: parse failed", cause.message]

namespace File

def text : File → Except FileError String
  | missing => .error .missing
  | directory => .error .directory
  | denied => .error .denied
  | content bytes =>
      match String.fromUTF8? bytes with
      | some text => .ok text
      | none => .error .notUnicode

/-- The value that the text of a file encodes; the path is for the error. -/
def load (codec : Json.Codec α) (path : String) (file : File) : Except LoadError α := do
  let text ← file.text.mapError (.unreadable path)
  (codec.ofText text).mapError (.undecodable path)

end File

end MatchAction
