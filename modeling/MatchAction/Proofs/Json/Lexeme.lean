import MatchAction.Json.Value
import MatchAction.Json.Token
import MatchAction.Proofs.Endings
import Mathlib.Data.List.TakeWhile

/-!
# Tokens and their spellings

A token has the text that it is written with, and a string has others too, with other escapes.
`Token.Layout` says which texts have some tokens: their spellings, one after the other, with blanks
between them as one likes.  The main statement is `Token.scan_of_layout`: such a text is scanned as
these tokens.
-/

namespace MatchAction.Json

/-! ## Strings -/

namespace Quoted

/-- A string between its quotes. -/
def between (s : String) : List Char := '"' :: (s.toList.flatMap escape ++ ['"'])

theorem toList_write (out s : String) : (write out s).toList = out.toList ++ between s := by
  have pushed (chars : List Char) (out : String) :
      (chars.foldl String.push out).toList = out.toList ++ chars := by
    induction chars generalizing out with
    | nil => simp
    | cons c rest ih => simp [ih]
  have escaped (chars : List Char) (out : String) :
      (chars.foldl (fun out c => (escape c).foldl String.push out) out).toList =
        out.toList ++ chars.flatMap escape := by
    induction chars generalizing out with
    | nil => simp
    | cons c rest ih => simp [ih, pushed]
  simp [write, between, escaped]

/-- The ways in which characters can stand between quotes: as themselves, except for quotes,
backslashes and what is below the blank, and as one of their escapes. -/
inductive Spells : List Char → List Char → Prop where
  | nil : Spells [] []
  | plain {c : Char} {chars text : List Char} (quote : c ≠ '"') (backslash : c ≠ '\\')
      (high : ¬ c.toNat < 32) (rest : Spells chars text) : Spells (c :: chars) (c :: text)
  | short {letter c : Char} {chars text : List Char} (escaped : shortEscape letter = some c)
      (rest : Spells chars text) : Spells (c :: chars) ('\\' :: letter :: text)
  | unit {a b c d : Char} {code : Nat} {chars text : List Char}
      (escaped : codeUnit a b c d = some code) (whole : ¬ isHighHalf code ∧ ¬ isLowHalf code)
      (rest : Spells chars text) :
      Spells (Char.ofNat code :: chars) ('\\' :: 'u' :: a :: b :: c :: d :: text)
  | pair {a b c d a' b' c' d' : Char} {high low : Nat} {chars text : List Char}
      (escaped : codeUnit a b c d = some high) (isHigh : isHighHalf high)
      (escaped' : codeUnit a' b' c' d' = some low) (isLow : isLowHalf low)
      (rest : Spells chars text) :
      Spells (Char.ofNat (0x10000 + (high - 0xD800) * 0x400 + (low - 0xDC00)) :: chars)
        ('\\' :: 'u' :: a :: b :: c :: d :: '\\' :: 'u' :: a' :: b' :: c' :: d' :: text)

theorem codeUnit_low : ∀ n < 32,
    codeUnit '0' '0' (Nat.digitChar (n / 16)) (Nat.digitChar (n % 16)) = some n := by
  decide

theorem Spells.escape {chars text : List Char} (rest : Spells chars text) (c : Char) :
    Spells (c :: chars) (Quoted.escape c ++ text) := by
  unfold Quoted.escape
  split
  case h_8 _ quote backslash b f n r t =>
      split
      case isTrue low =>
          have whole : ¬ isHighHalf c.toNat ∧ ¬ isLowHalf c.toNat := by
            simp only [isHighHalf, isLowHalf, Bool.and_eq_true, decide_eq_true_eq]
            omega
          have spelt := Spells.unit (codeUnit_low c.toNat low) whole rest
          rwa [Char.ofNat_toNat] at spelt
      case isFalse high => exact .plain quote backslash high rest
  all_goals exact .short rfl rest

/-- A string between its quotes is spelt as it is written. -/
theorem spells_flatMap_escape (chars : List Char) : Spells chars (chars.flatMap escape) := by
  induction chars with
  | nil => exact .nil
  | cons c chars ih => exact ih.escape c

theorem pieces_plain {c : Char} (quote : c ≠ '"') (backslash : c ≠ '\\')
    (high : ¬ c.toNat < 32) (done : List Piece) (rest : List Char) :
    pieces done (c :: rest) = pieces (.char c :: done) rest := by
  rw [pieces]
  · rw [if_neg (not_or.mpr ⟨backslash, high⟩)]
  · exact quote
  · exact fun _ _ _ _ _ same => absurd same backslash
  · exact fun _ _ same => absurd same backslash

theorem pieces_short {letter c : Char} (escaped : shortEscape letter = some c) (done : List Piece)
    (rest : List Char) : pieces done ('\\' :: letter :: rest) = pieces (.char c :: done) rest := by
  rw [pieces, escaped]
  intro _ _ _ _ _ isUnit
  rw [isUnit] at escaped
  cases escaped

/-- A code unit that is no half of a surrogate pair stands for a character of its own. -/
theorem join_unit {code : Nat} (whole : ¬ isHighHalf code ∧ ¬ isLowHalf code) (done : List Char)
    (rest : List Piece) :
    join done (.unit code :: rest) = join (Char.ofNat code :: done) rest := by
  rcases rest with _ | ⟨_ | _, _⟩ <;> simp [join, whole]

/-- The pieces of spelt characters, and the characters that they stand for. -/
theorem pieces_of_spells {chars text : List Char} (spells : Spells chars text) (rest : List Char) :
    ∃ read : List Piece,
      (∀ done, pieces done (text ++ '"' :: rest) = some (done.reverse ++ read, rest)) ∧
        ∀ done, join done read = some (done.reverse ++ chars) := by
  induction spells with
  | nil => exact ⟨[], fun done => by simp [pieces], fun done => by simp [join]⟩
  | @plain c _ _ quote backslash high _ ih =>
      obtain ⟨read, reads, joins⟩ := ih
      refine ⟨.char c :: read, fun done => ?_, fun done => by simp [join, joins]⟩
      simp [pieces_plain quote backslash high, reads]
  | @short letter c _ _ escaped _ ih =>
      obtain ⟨read, reads, joins⟩ := ih
      refine ⟨.char c :: read, fun done => ?_, fun done => by simp [join, joins]⟩
      simp [pieces_short escaped, reads]
  | @unit _ _ _ _ code _ _ escaped whole _ ih =>
      obtain ⟨read, reads, joins⟩ := ih
      refine ⟨.unit code :: read, fun done => ?_, fun done => by simp [join_unit whole, joins]⟩
      simp [pieces, escaped, reads]
  | @pair _ _ _ _ _ _ _ _ high low _ _ escaped isHigh escaped' isLow _ ih =>
      obtain ⟨read, reads, joins⟩ := ih
      refine ⟨.unit high :: .unit low :: read, fun done => ?_, fun done => ?_⟩
      · simp [pieces, escaped, escaped', reads]
      · simp [join, isHigh, isLow, joins]

/-- A quoted string is read back up to its closing quote, however it is spelt. -/
theorem scan_of_spells {s : String} {text : List Char} (spells : Spells s.toList text)
    (rest : List Char) : scan (text ++ '"' :: rest) = some (some s, rest) := by
  obtain ⟨read, reads, joins⟩ := pieces_of_spells spells rest
  simp [scan, reads, joins]

end Quoted

/-! ## Numbers -/

namespace Number

/-- The integers of 64 bits, signed or unsigned. -/
def Fits (n : Int) : Prop := -9223372036854775808 ≤ n ∧ n ≤ 18446744073709551615

/-- What follows a number is none of the characters that it could go on with. -/
def EndsBefore (rest : List Char) : Prop :=
  ∀ c ∈ rest.head?, c.isDigit = false ∧ c ≠ '.' ∧ c ≠ 'e' ∧ c ≠ 'E'

theorem head?_toDigits_ne {n : Nat} (pos : 0 < n) : (Nat.toDigits 10 n).head? ≠ some '0' := by
  induction n using Nat.strongRecOn with
  | ind n ih =>
      rw [Nat.toDigits_eq_if (by decide)]
      split
      case isTrue small =>
          have digits : ∀ n < 10, 0 < n → Nat.digitChar n ≠ '0' := by decide
          exact fun same => digits n small pos (Option.some.inj same)
      case isFalse large =>
          rw [List.head?_append_of_ne_nil _ Nat.toDigits_ne_nil]
          exact ih (n / 10) (by omega) (by omega)

/-- The digits of a number have no zero in front, unless the zero is all there is. -/
theorem toDigits_ne_zero_cons_cons (n : Nat) (c : Char) (rest : List Char) :
    Nat.toDigits 10 n ≠ '0' :: c :: rest := by
  intro digits
  cases n with
  | zero => simp at digits
  | succ n => exact head?_toDigits_ne n.succ_pos (by rw [digits]; rfl)

theorem EndsBefore.no_digit {rest : List Char} (ends : EndsBefore rest) :
    Text.Ends Char.isDigit rest := fun c inside => (ends c inside).1

theorem scanDigits_toDigits (n : Nat) {rest : List Char} (ends : EndsBefore rest) :
    scanDigits (Nat.toDigits 10 n ++ rest) = some (Nat.toDigits 10 n, rest) := by
  have digits : ∀ c ∈ Nat.toDigits 10 n, c.isDigit = true := fun c inside =>
    Nat.isDigit_of_mem_toDigits (by decide) (by decide) inside
  have front : (Nat.toDigits 10 n ++ rest).takeWhile Char.isDigit = Nat.toDigits 10 n :=
    Text.takeWhile_append_of_ends digits ends.no_digit
  have back : (Nat.toDigits 10 n ++ rest).dropWhile Char.isDigit = rest :=
    Text.dropWhile_append_of_ends digits ends.no_digit
  rw [scanDigits, front, back]
  split
  case h_1 none => exact absurd none Nat.toDigits_ne_nil
  case h_2 => rfl

theorem scanWhole_toDigits (n : Nat) {rest : List Char} (ends : EndsBefore rest) :
    scanWhole (Nat.toDigits 10 n ++ rest) = some (Nat.toDigits 10 n, rest) := by
  rw [scanWhole, scanDigits_toDigits n ends]
  split
  case h_1 padded =>
      exact absurd (congrArg Prod.fst (Option.some.inj padded)) (toDigits_ne_zero_cons_cons n _ _)
  case h_2 => rfl

theorem scanFraction_of_endsBefore {rest : List Char} (ends : EndsBefore rest) :
    scanFraction rest = some (none, rest) := by
  rw [scanFraction.eq_def]
  split
  case h_1 => exact absurd rfl (ends '.' rfl).2.1
  case h_2 => rfl

theorem scanExponent_of_endsBefore {rest : List Char} (ends : EndsBefore rest) :
    scanExponent rest = some (none, rest) := by
  cases rest with
  | nil => rfl
  | cons c rest => exact if_neg (not_or.mpr ⟨(ends c rfl).2.2.1, (ends c rfl).2.2.2⟩)

theorem le_ofDigitChars (significand : Nat) (digits : List Char) :
    significand ≤ Nat.ofDigitChars 10 digits significand := by
  induction digits generalizing significand with
  | nil => exact Nat.le_refl _
  | cons digit rest ih =>
      rw [Nat.ofDigitChars_cons]
      exact Nat.le_trans (by omega) (ih _)

/-- Digits that denote a number of 64 bits are absorbed, all of them. -/
theorem absorb_of_lt {significand : Nat} {digits : List Char}
    (fits : Nat.ofDigitChars 10 digits significand < 1 <<< 64) :
    absorb significand digits = (Nat.ofDigitChars 10 digits significand, []) := by
  induction digits generalizing significand with
  | nil => rfl
  | cons digit rest ih =>
      rw [Nat.ofDigitChars_cons] at fits ⊢
      have next : significand * 10 + digitValue digit =
          10 * significand + (digit.toNat - '0'.toNat) := by
        rw [Nat.mul_comm, digitValue]
      rw [absorb, next, if_pos (Nat.lt_of_le_of_lt (le_ofDigitChars _ _) fits), ih fits]

theorem absorb_toDigits {n : Nat} (fits : n < 1 <<< 64) :
    absorb 0 (Nat.toDigits 10 n) = (n, []) := by
  rw [absorb_of_lt (by rwa [Nat.ofDigitChars_ten_toDigits]), Nat.ofDigitChars_ten_toDigits]

theorem scan_minus_toDigits (n : Nat) {rest : List Char} (ends : EndsBefore rest) :
    scan ('-' :: (Nat.toDigits 10 n ++ rest)) =
      some (ofParts true (Nat.toDigits 10 n) none none, rest) := by
  simp [scan, scanWhole_toDigits n ends, scanFraction_of_endsBefore ends,
    scanExponent_of_endsBefore ends]

theorem scan_toDigits (n : Nat) {rest : List Char} (ends : EndsBefore rest) :
    scan (Nat.toDigits 10 n ++ rest) = some (ofParts false (Nat.toDigits 10 n) none none, rest) := by
  have unsigned : ∀ rest', Nat.toDigits 10 n ++ rest ≠ '-' :: rest' := by
    intro rest' signed
    have isHead : (Nat.toDigits 10 n).head? = some '-' := by
      rw [← List.head?_append_of_ne_nil _ Nat.toDigits_ne_nil, signed]
      rfl
    exact absurd (Nat.isDigit_of_mem_toDigits (by decide) (by decide)
      (List.mem_of_mem_head? isHead)) (by decide)
  rw [scan]
  · simp [scanWhole_toDigits n ends, scanFraction_of_endsBefore ends,
      scanExponent_of_endsBefore ends]
  · exact unsigned

theorem ofParts_unsigned {n : Nat} (fits : n < 1 <<< 64) :
    ofParts false (Nat.toDigits 10 n) none none = .integer n := by
  simp [ofParts, absorb_toDigits fits]

theorem ofParts_minus {n : Nat} (pos : 0 < n) (fits : n ≤ 1 <<< 63) :
    ofParts true (Nat.toDigits 10 n) none none = .integer (-(n : Int)) := by
  have absorbed : absorb 0 (Nat.toDigits 10 n) = (n, []) := absorb_toDigits (by omega)
  simp only [ofParts, absorbed, Option.isNone_none, List.isEmpty_nil, Bool.and_self, Bool.not_true,
    Bool.and_false, Bool.false_eq_true, if_false, decide_eq_true pos, decide_eq_true fits, if_true]

/-- An integer of 64 bits is read back up to what cannot go on with it. -/
theorem scan_repr {n : Int} (fits : Fits n) {rest : List Char} (ends : EndsBefore rest) :
    scan (n.repr.toList ++ rest) = some (.integer n, rest) := by
  obtain ⟨low, high⟩ := fits
  rw [Int.repr_eq_if]
  split
  case isTrue natural =>
      rw [Nat.repr_eq_ofList_toDigits, String.toList_ofList, scan_toDigits _ ends,
        ofParts_unsigned (by omega), Int.toNat_of_nonneg natural]
  case isFalse negative =>
      have text : ("-" ++ (-n).toNat.repr).toList = '-' :: Nat.toDigits 10 (-n).toNat := by
        simp [Nat.repr_eq_ofList_toDigits]
      rw [text, List.cons_append, scan_minus_toDigits _ ends, ofParts_minus (by omega) (by omega),
        Int.toNat_of_nonneg (by omega), Int.neg_neg]

/-- The text of a number begins with a digit or a minus. -/
theorem toList_repr (n : Int) :
    ∃ c rest, n.repr.toList = c :: rest ∧ (c.isDigit = true ∨ c = '-') := by
  rw [Int.repr_eq_if]
  split
  case isTrue =>
      rw [Nat.repr_eq_ofList_toDigits, String.toList_ofList]
      cases digits : Nat.toDigits 10 n.toNat with
      | nil => exact absurd digits Nat.toDigits_ne_nil
      | cons c rest =>
          have inside : c ∈ Nat.toDigits 10 n.toNat := digits ▸ List.mem_cons_self
          exact ⟨c, rest, rfl, .inl (Nat.isDigit_of_mem_toDigits (by decide) (by decide) inside)⟩
  case isFalse => exact ⟨'-', (-n).toNat.repr.toList, by simp, .inr rfl⟩

end Number

/-! ## Tokens -/

namespace Token

/-- The text that a token is written with, and nothing for one that no value is written with. -/
def text : Token → List Char
  | openBracket => ['[']
  | closeBracket => [']']
  | openBrace => ['{']
  | closeBrace => ['}']
  | comma => [',']
  | colon => [':']
  | null => ['n', 'u', 'l', 'l']
  | bool true => ['t', 'r', 'u', 'e']
  | bool false => ['f', 'a', 'l', 's', 'e']
  | number (.integer value) => value.repr.toList
  | string (some value) => Quoted.between value
  | number (.real _) | string none | malformed => []

/-- Whether values are written with a token. -/
def Written : Token → Prop
  | number (.integer value) => Number.Fits value
  | number (.real _) | string none | malformed => False
  | _ => True

/-- Whether a token ends where another text begins: a number goes on as long as it can. -/
def EndsBefore (rest : List Char) : Token → Prop
  | number _ => Number.EndsBefore rest
  | _ => True

/-- The ways in which a token can stand in a text: as it is written, and a string with other escapes
too. -/
inductive Spells : Token → List Char → Prop where
  | written {token : Token} (written : token.Written) : Spells token token.text
  | string {value : String} {text : List Char} (spells : Quoted.Spells value.toList text) :
      Spells (string (some value)) ('"' :: (text ++ ['"']))

/-- A text in which tokens stand in their order, with blanks between them as one likes. -/
inductive Layout : List Token → List Char → Prop where
  | nil {blanks : List Char} (blank : ∀ c ∈ blanks, isBlank c) : Layout [] blanks
  | cons {token : Token} {tokens : List Token} (blanks : List Char) {text rest : List Char}
      (blank : ∀ c ∈ blanks, isBlank c) (spells : token.Spells text) (ends : token.EndsBefore rest)
      (layout : Layout tokens rest) : Layout (token :: tokens) (blanks ++ (text ++ rest))

theorem first_of_number {c : Char} {text rest : List Char} {value : Number}
    (begins : c.isDigit = true ∨ c = '-') (scanned : Number.scan (c :: text) = some (value, rest)) :
    first (c :: text) = some (number value, rest) := by
  rw [first.eq_def]
  split <;> simp_all

theorem first_of_spells {value : String} {text : List Char}
    (spells : Quoted.Spells value.toList text) (rest : List Char) :
    first ('"' :: (text ++ ['"']) ++ rest) = some (string (some value), rest) := by
  simp [first, Quoted.scan_of_spells spells]

/-- A token is the first of a text that goes on behind its end. -/
theorem Spells.first {token : Token} {text rest : List Char} (spells : token.Spells text)
    (ends : token.EndsBefore rest) : Token.first (text ++ rest) = some (token, rest) := by
  cases spells with
  | string spells => exact first_of_spells spells rest
  | written written =>
      match token with
      | .openBracket | .closeBracket | .openBrace | .closeBrace | .comma | .colon | .null
      | .bool true | .bool false => rfl
      | .string (some value) => exact first_of_spells (Quoted.spells_flatMap_escape _) rest
      | .number (.integer value) =>
          have scanned := Number.scan_repr written ends
          obtain ⟨c, digits, text, begins⟩ := Number.toList_repr value
          rw [text, List.cons_append] at scanned
          rw [Token.text, text, List.cons_append, first_of_number begins scanned]

/-- A token has a text, and no blank in front of it. -/
theorem Spells.eq_cons {token : Token} {text : List Char} (spells : token.Spells text) :
    ∃ c rest, text = c :: rest ∧ isBlank c = false := by
  cases spells with
  | string => exact ⟨_, _, rfl, rfl⟩
  | written written =>
      match token with
      | .openBracket | .closeBracket | .openBrace | .closeBrace | .comma | .colon | .null
      | .bool true | .bool false | .string (some value) => exact ⟨_, _, rfl, rfl⟩
      | .number (.integer value) =>
          obtain ⟨c, digits, text, begins⟩ := Number.toList_repr value
          refine ⟨c, digits, text, ?_⟩
          rcases begins with digit | rfl
          · by_contra blank
            simp only [isBlank, Bool.not_eq_false, Bool.or_eq_true, decide_eq_true_eq] at blank
            rcases blank with ((rfl | rfl) | rfl) | rfl <;> exact absurd digit (by decide)
          · rfl

theorem dropWhile_isBlank {token : Token} {blanks text rest : List Char}
    (blank : ∀ c ∈ blanks, isBlank c) (spells : token.Spells text) :
    (blanks ++ (text ++ rest)).dropWhile isBlank = text ++ rest := by
  obtain ⟨c, tail, rfl, dark⟩ := spells.eq_cons
  rw [List.dropWhile_append_of_pos blank, List.cons_append, List.dropWhile_cons_of_neg]
  simp [dark]

theorem scanFrom_of_layout {tokens : List Token} {text : List Char} (layout : Layout tokens text)
    {fuel : Nat} (enough : text.length < fuel) (done : List Token) :
    scanFrom fuel done text = done.reverse ++ tokens := by
  -- Every token takes a character at least, so the fuel stays above the length of what is left.
  induction layout generalizing fuel done with
  | nil blank =>
      obtain ⟨fuel, rfl⟩ := Nat.exists_eq_succ_of_ne_zero (Nat.ne_of_gt (Nat.zero_lt_of_lt enough))
      rw [scanFrom, List.dropWhile_eq_nil_iff.mpr blank]
      simp [first]
  | @cons token tokens blanks text rest blank spells ends _ ih =>
      obtain ⟨fuel, rfl⟩ := Nat.exists_eq_succ_of_ne_zero (Nat.ne_of_gt (Nat.zero_lt_of_lt enough))
      have enoughRest : rest.length < fuel := by
        obtain ⟨c, tail, rfl, -⟩ := spells.eq_cons
        simp only [List.length_append, List.length_cons] at enough
        omega
      rw [scanFrom, dropWhile_isBlank blank spells, spells.first ends]
      simp only [ih enoughRest, List.reverse_cons, List.append_assoc, List.singleton_append]

/-- A text that is laid out as some tokens has them. -/
theorem scan_of_layout {tokens : List Token} {text : List Char} (layout : Layout tokens text) :
    scan text = tokens :=
  scanFrom_of_layout layout (Nat.lt_succ_self _) []

end Token

end MatchAction.Json
