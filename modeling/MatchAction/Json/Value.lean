import MatchAction.Json.Quoted

/-!
# JSON values and their compact text

A value as this library writes it: numbers are integers, and the members of an object stand in the
order in which they were given.  The text has no blanks.
-/

namespace MatchAction

inductive Json where
  | null
  | bool (value : Bool)
  | number (value : Int)
  | string (value : String)
  | array (items : List Json)
  | object (members : List (String × Json))

namespace Json

mutual
/-- Appends the text of a value. -/
def write (out : String) : Json → String
  | null => out ++ "null"
  | bool true => out ++ "true"
  | bool false => out ++ "false"
  | number value => out ++ value.repr
  | string value => Quoted.write out value
  | array items => (writeItems (out.push '[') true items).push ']'
  | object members => (writeMembers (out.push '{') true members).push '}'

/-- Appends items, with a comma before each that is not the first. -/
def writeItems (out : String) (first : Bool) : List Json → String
  | [] => out
  | item :: rest => writeItems (write (if first then out else out.push ',') item) false rest

/-- Appends members, with a comma before each that is not the first. -/
def writeMembers (out : String) (first : Bool) : List (String × Json) → String
  | [] => out
  | (name, value) :: rest =>
      let name := Quoted.write (if first then out else out.push ',') name
      writeMembers (write (name.push ':') value) false rest
end

def text (value : Json) : String := write "" value

end Json

end MatchAction
