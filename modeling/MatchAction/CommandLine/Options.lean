import MatchAction.Decimal
import MatchAction.Format.Entity

/-!
# Options

The options of the command line.  Each is written `--name value` or `--name=value`; a value that
stands by itself may not start with a hyphen, unless it is just that.  Only `read-type` may be given
more than once.  The last of its values counts, but all of them have to be names of a type.
-/

namespace MatchAction.CommandLine

structure Options where
  schema : String
  updates : Option String
  read : UInt32
  readType : ReadType
  config : Option String
  batchSize : Option UInt64
  deriving DecidableEq

namespace Options

def names : List String := ["schema", "updates", "read", "read-type", "config", "batch-size"]

/-- Whether an argument can be the value of the option before it. -/
def isValue (argument : String) : Bool := argument = "-" || argument.toList.head? ≠ some '-'

/-- An option as it is given, which may be without its value. -/
abbrev Given := String × Option String

/-- The options that arguments give, one after the other. -/
def given : List String → Option (List Given)
  | [] => some []
  | argument :: rest =>
      match argument.toList with
      | ['-', '-'] => if rest.isEmpty then some [] else none
      | '-' :: '-' :: option =>
          let name := String.ofList (option.takeWhile (· ≠ '='))
          match option.dropWhile (· ≠ '=') with
          | _ :: value => (given rest).map ((name, some (String.ofList value)) :: ·)
          | [] =>
              match rest with
              | value :: others =>
                  if isValue value then (given others).map ((name, some value) :: ·)
                  else (given (value :: others)).map ((name, none) :: ·)
              | [] => some [(name, none)]
      | _ => none

/-- The values that are given for an option, in order. -/
def valuesOf (options : List Given) (name : String) : List (Option String) :=
  (options.filter fun option => option.1 = name).map Prod.snd

/-- What the value of an option says that may be given once. -/
def once (options : List Given) (name : String) (parse : String → Option α) : Option (Option α) :=
  match valuesOf options name with
  | [] => some none
  | [some value] => (parse value).map some
  | _ => none

/-- What the last value of an option says that may be given again. -/
def last (options : List Given) (name : String) (parse : String → Option α) :
    Option (Option α) := do
  let values := valuesOf options name
  guard (values.getLast? ≠ some none)
  return (← (values.filterMap id).mapM parse).getLast?

/-- What is read from options as they are given. -/
def ofGiven (options : List Given) : Option Options := do
  guard (options.all fun option => names.contains option.1)
  return {
    schema := ← (← once options "schema" some)
    updates := ← once options "updates" some
    read := UInt32.ofNat ((← once options "read" (Decimal.parse 4294967295)).getD 0)
    readType := (← last options "read-type" ReadType.ofName).getD .tableEntry
    config := ← once options "config" some
    batchSize := (← once options "batch-size" (Decimal.parse 18446744073709551615)).map UInt64.ofNat }

/-- The options that arguments give; nothing if they are misused. -/
def ofArguments (arguments : List String) : Option Options := given arguments >>= ofGiven

end Options

end MatchAction.CommandLine
