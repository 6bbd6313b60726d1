/-!
# Decimal numbers

Numbers as options and filters write them: those up to a limit, and which texts write a real one.
-/

namespace MatchAction.Decimal

/-- The number that a text writes, up to a limit: decimal digits, with any number of zeros and at
most one plus sign in front. -/
def parse (limit : Nat) (text : String) : Option Nat :=
  let digits := match text.toList with
    | '+' :: digits => digits
    | digits => digits
  let value := Nat.ofDigitChars 10 digits 0
  if digits ≠ [] ∧ digits.all Char.isDigit ∧ value ≤ limit then some value else none

def dropSign : List Char → List Char
  | '+' :: rest => rest
  | '-' :: rest => rest
  | text => text

/-- Digits with at most one point among them, in front of it or behind it, and after these possibly
an exponent. -/
def isNumeral (text : List Char) : Bool :=
  let whole := text.takeWhile Char.isDigit
  let (fraction, rest) :=
    match text.dropWhile Char.isDigit with
    | '.' :: rest => (rest.takeWhile Char.isDigit, rest.dropWhile Char.isDigit)
    | rest => ([], rest)
  (!whole.isEmpty || !fraction.isEmpty) &&
    match rest with
    | [] => true
    | mark :: exponent =>
        mark.toLower = 'e' && !(dropSign exponent).isEmpty && (dropSign exponent).all Char.isDigit

/-- Whether a text writes a real number, one of the infinite ones included, or none by the name for
that.  A sign may stand in front. -/
def isReal (text : List Char) : Bool :=
  isNumeral (dropSign text) ||
    ["inf", "infinity", "nan"].contains (String.ofList ((dropSign text).map Char.toLower))

end MatchAction.Decimal
