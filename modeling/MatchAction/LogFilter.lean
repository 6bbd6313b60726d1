import MatchAction.Decimal
import MatchAction.Event
import MatchAction.RegularExpression.WellFormed
import MatchAction.Text.Piece

/-!
# Log filters

A filter is a list of rules, written with commas between them.  A rule shows the events of some
components up to a level.  Of the rules that speak of an event the most specific one decides.
-/

namespace MatchAction

/-- Which events of its components a rule speaks of. -/
inductive Narrowing where
  | all
  /-- Those that have a field of a name. -/
  | field (name : String)
  /-- Those inside of some span. -/
  | span
  deriving DecidableEq

namespace Narrowing

/-- Whether a rule so narrowed speaks of an event at all: an event has one field, its message, and
lies in no span. -/
def admits : Narrowing → Bool
  | all => true
  | field name => name = "message"
  | span => false

/-- The field that a text between braces names; `inSpan` if a span is named too.  A field with a
value, up to a second equals sign, is one of a span.  The value is a number or a regular
expression. -/
def ofField (inSpan : Bool) (text : List Char) : Option Narrowing :=
  match text.dropWhile (· ≠ '=') with
  | '=' :: rest =>
      let value := rest.takeWhile (· ≠ '=')
      if Decimal.isReal value || RegularExpression.isWellFormed value then some span else none
  | _ => some (if inSpan then span else field (String.ofList text))

/-- What stands in a rule after an opening bracket, and the text after the closing one: the name of
a span, and between braces a field.  `before` is the rule up to the bracket.  Blanks in front of the
rule shift the field by as many bytes to the front. -/
def scan (before text : List Char) : Option (Narrowing × List Char) := do
  let isName (c : Char) : Bool := c ≠ ']' && c ≠ '{'
  let name := text.takeWhile isName
  match text.dropWhile isName with
  | ']' :: rest => some (span, rest)
  | '{' :: inner =>
      let content := inner.takeWhile (· ≠ '}')
      guard (content ≠ [])
      match inner.dropWhile (· ≠ '}') with
      | '}' :: ']' :: rest =>
          let front := before ++ name ++ ['{']
          let shift := Text.size (front.takeWhile Text.isBlank)
          let shifted ← Text.cut (Text.size front - shift) (Text.size content) (front ++ content)
          return (← ofField (!name.isEmpty) shifted, rest)
      | _ => none
  | _ => none

end Narrowing

/-- Up to which level events of the components are shown whose names start with `target`; none of
them without a level. -/
structure LogRule where
  target : String
  narrowing : Narrowing
  level : Option Level
  deriving DecidableEq

namespace LogRule

/-- A level by its name, in letters of either case, or by its severity; `off` and 0 stand for no
level. -/
def levelOfText (text : String) : Option (Option Level) :=
  match Decimal.parse 5 text with
  | some 0 => some none
  | some severity =>
      (Level.all.find? fun level => level.severity = severity).map some
  | none =>
      let name := text.map Char.toUpper
      if name = "OFF" then some none
      else (Level.all.find? fun level => level.text = name).map some

/-- The level after an equals sign; everything is shown if nothing follows the sign. -/
def levelAfterSign (text : List Char) : Option (Option Level) :=
  if text.isEmpty then some (some .trace) else levelOfText (String.ofList text)

/-- Whether a rule may start with a character. -/
def canStart (c : Char) : Bool := Text.isAlphanumeric c || ['-', ':', '_', '['].contains c

/-- A rule is a level for all events, or the start of a component's name, a narrowing between
brackets, or both; an equals sign and a level may follow these.  Blanks belong to the name or the
level that they stand beside; a rule with a blank in front may have no equals sign. -/
def ofText (text : String) : Option LogRule := do
  let characters := text.toList
  guard ((characters.dropWhile Text.isBlank).head?.any canStart)
  let blankInFront := characters.head?.any Text.isBlank
  let isName (c : Char) : Bool := c ≠ '=' && c ≠ '['
  let target := String.ofList (characters.takeWhile isName)
  match characters.dropWhile isName with
  | '=' :: level =>
      guard !blankInFront
      return ⟨target, .all, ← levelAfterSign level⟩
  | '[' :: narrowing =>
      let (narrowing, rest) ← Narrowing.scan (characters.takeWhile isName ++ ['[']) narrowing
      match rest with
      | '=' :: level =>
          guard !blankInFront
          return ⟨target, narrowing, ← levelAfterSign level⟩
      | rest => if rest.all Text.isBlank then some ⟨target, narrowing, some .trace⟩ else none
  | _ =>
      match levelOfText text with
      | some level => some ⟨"", .all, level⟩
      | none => some ⟨text, .all, some .trace⟩

/-- Whether a rule speaks of the events of a component. -/
def covers (rule : LogRule) (component : String) : Bool :=
  rule.narrowing.admits && rule.target.toList.isPrefixOf component.toList

/-- How specific a rule is: by the length of its target, then by being narrowed. -/
def specificity (rule : LogRule) : Nat :=
  2 * rule.target.length + if rule.narrowing = .all then 0 else 1

/-- Whether an event's level is one that a rule shows. -/
def shows (rule : LogRule) (event : Event) : Bool :=
  rule.level.any fun level => event.level.severity ≤ level.severity

end LogRule

structure LogFilter where
  rules : List LogRule
  deriving DecidableEq

namespace LogFilter

/-- Everything that is at least an information. -/
def standard : LogFilter := ⟨[⟨"", .all, some .info⟩]⟩

/-- A list of rules, in which nothing between two commas is passed over.  A text in which some rule
cannot be read gives the standard filter. -/
def ofText (text : String) : LogFilter :=
  match ((text.splitOn ",").filter (· ≠ "")).mapM LogRule.ofText with
  | some rules => ⟨rules⟩
  | none => standard

/-- The rule for a component: of those that speak of it the most specific, of two equally specific
ones the later. -/
def ruleFor (filter : LogFilter) (component : String) : Option LogRule :=
  let applicable := filter.rules.filter fun rule => rule.covers component
  applicable.reverse.find? fun rule =>
    applicable.all fun other => other.specificity ≤ rule.specificity

def shows (filter : LogFilter) (event : Event) : Bool :=
  (filter.ruleFor event.target).any fun rule => rule.shows event

end LogFilter

end MatchAction
