/-!
# Numbers

The grammar of JSON numbers.  A number without fraction and exponent that fits a signed or unsigned
64-bit integer is an integer; every other number is a real, of which only one thing matters: whether
a double can hold it.  Minus zero is a real.
-/

namespace MatchAction.Json

inductive Number where
  | integer (value : Int)
  | real (finite : Bool)
  deriving DecidableEq

namespace Number

/-- The nearest number of 53 significant bits, of two equally near ones the even. -/
def round53 (n : Nat) : Nat :=
  if n < 1 <<< 53 then n
  else
    let shift := n.log2 - 52
    let quotient := n >>> shift
    let rest := n % (1 <<< shift)
    let half := 1 <<< (shift - 1)
    let up := half < rest ∨ (rest = half ∧ quotient % 2 = 1)
    (if up then quotient + 1 else quotient) <<< shift

/-- Whether a significand times a power of ten stays below the doubles' overflow, where both factors
are rounded before they are multiplied. -/
def isFinite (significand : Nat) (exponent : Int) : Bool :=
  significand = 0 || exponent < 0 ||
    (exponent ≤ 308 &&
      round53 significand * round53 (Nat.pow 10 exponent.toNat) < 1 <<< 1024 - 1 <<< 970)

def digitValue (c : Char) : Nat := c.toNat - '0'.toNat

/-- Appends digits to a significand as long as 64 bits hold it; also the digits left over. -/
def absorb : Nat → List Char → Nat × List Char
  | significand, [] => (significand, [])
  | significand, digit :: rest =>
      let next := significand * 10 + digitValue digit
      if next < 1 <<< 64 then absorb next rest else (significand, digit :: rest)

/-- The exponent that digits denote, held below the end of 32 bits. -/
def exponentValue (digits : List Char) : Nat :=
  digits.foldl (fun n digit => min (n * 10 + digitValue digit) (1 <<< 31)) 0

/-- One or more digits, and what follows them. -/
def scanDigits (text : List Char) : Option (List Char × List Char) :=
  match text.takeWhile Char.isDigit with
  | [] => none
  | digits => some (digits, text.dropWhile Char.isDigit)

/-- Digits of which the first is no zero, unless it stands alone. -/
def scanWhole (text : List Char) : Option (List Char × List Char) :=
  match scanDigits text with
  | some ('0' :: _ :: _, _) => none
  | result => result

/-- A point with digits, or nothing. -/
def scanFraction : List Char → Option (Option (List Char) × List Char)
  | '.' :: rest => (scanDigits rest).map fun (digits, rest) => (some digits, rest)
  | text => some (none, text)

/-- An exponent with its sign, or nothing. -/
def scanExponent : List Char → Option (Option Int × List Char)
  | mark :: rest =>
      if mark = 'e' ∨ mark = 'E' then
        match rest with
        | '-' :: rest => (scanDigits rest).map fun (ds, rest) => (some (-(exponentValue ds : Int)), rest)
        | '+' :: rest => (scanDigits rest).map fun (ds, rest) => (some (exponentValue ds : Int), rest)
        | rest => (scanDigits rest).map fun (ds, rest) => (some (exponentValue ds : Int), rest)
      else some (none, mark :: rest)
  | [] => some (none, [])

/-- The number with the given parts.  Digits of the whole part that the significand has no room for
raise the exponent; such digits of the fraction are dropped. -/
def ofParts (negative : Bool) (whole : List Char) (fraction : Option (List Char))
    (exponent : Option Int) : Number :=
  let (significand, extra) := absorb 0 whole
  let isWhole := fraction.isNone && exponent.isNone && extra.isEmpty
  if isWhole && !negative then .integer significand
  else if isWhole && 0 < significand && significand ≤ 1 <<< 63 then .integer (-(significand : Int))
  else
    let digits := fraction.getD []
    let (significand, dropped) := absorb significand digits
    let places := digits.length - dropped.length
    .real (isFinite significand ((extra.length : Int) - places + exponent.getD 0))

/-- The longest number in front of a text, and what follows it; none if the text starts with no
number, or with one that breaks off. -/
def scan (text : List Char) : Option (Number × List Char) := do
  let (negative, rest) := match text with
    | '-' :: rest => (true, rest)
    | text => (false, text)
  let (whole, rest) ← scanWhole rest
  let (fraction, rest) ← scanFraction rest
  let (exponent, rest) ← scanExponent rest
  return (ofParts negative whole fraction exponent, rest)

end Number

end MatchAction.Json
