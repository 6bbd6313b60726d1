import MatchAction.Proofs.Acceptance
import MatchAction.Proofs.Results
import Mathlib.Algebra.Order.Floor.Div

/-!
# Encodings of values

A value is encoded for every width but the few for which rounding up to whole bytes leaves the range of
signed 32-bit numbers, and the bytes are the last ones of the value's eight, as many as the width needs.
In a width of 1 to 64 bits the bytes are ordered like the numbers that the width keeps of the values.
-/

namespace MatchAction

/-! ## Bytes -/

/-- The bytes that a value is to have in a width: of the eight bytes of the value, without the bits from
the width upwards, the last ones, as many as the width needs.  A negative width needs none, and a width
that is not among 1 to 63 clears no bits. -/
structure WrittenIn (bitWidth : Int32) (value : UInt64) (bytes : Bytes) : Prop where
  length_eq : bytes.length = min 8 (bitWidth.toInt.toNat ⌈/⌉ 8)
  last : ∃ whole : Bytes, whole.length = 8 ∧ bytes <:+ whole ∧ ∀ bit,
    whole.toNat.testBit bit = true ↔ value.toNat.testBit bit = true ∧
      (1 ≤ bitWidth.toInt ∧ bitWidth.toInt < 64 → bit < bitWidth.toInt)

theorem clearAbove_lt (value : UInt64) (bitWidth : Int32) : clearAbove value bitWidth < 256 ^ 8 := by
  unfold clearAbove
  split
  case isTrue => exact (Nat.mod_le _ _).trans_lt value.toNat_lt
  case isFalse => exact value.toNat_lt

theorem testBit_clearAbove (value : UInt64) (bitWidth : Int32) (bit : Nat) :
    (clearAbove value bitWidth).testBit bit = true ↔ value.toNat.testBit bit = true ∧
      (1 ≤ bitWidth.toInt ∧ bitWidth.toInt < 64 → bit < bitWidth.toInt) := by
  unfold clearAbove
  split
  case isTrue narrow =>
      have below : bit < bitWidth.toInt.toNat ↔ (bit : Int) < bitWidth.toInt := by omega
      rw [Nat.one_shiftLeft, Nat.testBit_mod_two_pow, Bool.and_eq_true, decide_eq_true_iff, below,
        and_comm, forall_prop_of_true narrow]
  case isFalse wide => simp only [wide, false_implies, and_true]

theorem byteCount_le (bitWidth : Int32) : byteCount bitWidth ≤ 8 := Nat.min_le_left 8 _

theorem written_bigEndian (value : UInt64) (bitWidth : Int32) :
    WrittenIn bitWidth value (.bigEndian (byteCount bitWidth) (clearAbove value bitWidth)) where
  length_eq := Bytes.length_bigEndian _ _
  last := by
    refine ⟨.bigEndian 8 (clearAbove value bitWidth), Bytes.length_bigEndian _ _, ?_, fun bit => ?_⟩
    · rw [← Bytes.drop_bigEndian (byteCount_le bitWidth)]
      exact List.drop_suffix _ _
    · rw [Bytes.toNat_bigEndian, Nat.mod_eq_of_lt (clearAbove_lt value bitWidth)]
      exact testBit_clearAbove value bitWidth bit

theorem WrittenIn.unique {bitWidth : Int32} {value : UInt64} {bytes other : Bytes}
    (written : WrittenIn bitWidth value bytes) (written' : WrittenIn bitWidth value other) :
    bytes = other := by
  obtain ⟨whole, length, suffix, bits⟩ := written.last
  obtain ⟨whole', length', suffix', bits'⟩ := written'.last
  have sameNumber : whole.toNat = whole'.toNat := by
    refine Nat.eq_of_testBit_eq fun bit => ?_
    rw [Bool.eq_iff_iff, bits, bits']
  cases (Bytes.toNat_inj (length.trans length'.symm)).mp sameNumber
  have sameLength : bytes.length = other.length := written.length_eq.trans written'.length_eq.symm
  exact (List.suffix_of_suffix_length_le suffix suffix' sameLength.le).eq_of_length sameLength

theorem encodeValue_eq_ok_iff {value : UInt64} {bitWidth : Int32} {bytes : Bytes} :
    encodeValue value bitWidth = .ok bytes ↔
      bitWidth.toInt ≤ 2147483640 ∧ WrittenIn bitWidth value bytes := by
  unfold encodeValue
  split
  case isTrue inRange =>
      constructor
      · intro encoded
        cases encoded
        exact ⟨by omega, written_bigEndian value bitWidth⟩
      · rintro ⟨-, written⟩
        rw [(written_bigEndian value bitWidth).unique written]
  case isFalse beyond =>
      refine iff_of_false nofun ?_
      rintro ⟨inRange, -⟩
      omega

theorem exists_encodeValue_eq_ok_iff {value : UInt64} {bitWidth : Int32} :
    (∃ bytes, encodeValue value bitWidth = .ok bytes) ↔ bitWidth.toInt ≤ 2147483640 := by
  simp only [encodeValue_eq_ok_iff, exists_and_left, and_iff_left_iff_imp]
  exact fun _ => ⟨_, written_bigEndian value bitWidth⟩

/-- Whether a field match is made depends on the width alone, not on the match type. -/
theorem MatchField.exists_fieldMatch_eq_ok_iff {field : MatchField} {value : UInt64} :
    (∃ result, field.fieldMatch value = .ok result) ↔ field.bitWidth.toInt ≤ 2147483640 := by
  constructor
  · rintro ⟨result, made⟩
    obtain ⟨bytes, encoded, -⟩ := bind_eq_ok.mp made
    exact exists_encodeValue_eq_ok_iff.mp ⟨bytes, encoded⟩
  · intro inRange
    obtain ⟨bytes, encoded⟩ := exists_encodeValue_eq_ok_iff.mpr inRange
    obtain ⟨ones, encodedOnes⟩ := exists_encodeValue_eq_ok_iff.mpr inRange
    exact ⟨_, bind_eq_ok.mpr ⟨bytes, encoded, bind_eq_ok.mpr ⟨ones, encodedOnes, rfl⟩⟩⟩

/-! ## Steps in machine words -/

/-- The steps of an encoding whose results have limits. -/
inductive EncodingStep where
  /-- A word of 64 bits is shifted by fewer than 64 places. -/
  | shift
  /-- The mask of the bits below the width is no negative number. -/
  | mask
  /-- The width plus seven is a signed number of 32 bits. -/
  | sum
  /-- The count of bytes is no negative number. -/
  | count
  /-- The count of bytes that are left out is no negative number either. -/
  | start
  /-- No more bytes are left out than there are. -/
  | cut
  deriving DecidableEq

namespace EncodingStep

/-- The result of a step, if it is within the step's limits. -/
def result (step : EncodingStep) (least greatest n : Int) : Except EncodingStep Int :=
  if least ≤ n ∧ n ≤ greatest then .ok n else .error step

/-- The bits of a value that are written, by a mask if the width is among 1 to 63. -/
def kept (value : UInt64) (bitWidth : Int32) : Except EncodingStep Nat :=
  if 1 ≤ bitWidth.toInt ∧ bitWidth.toInt < 64 then do
    let places ← shift.result 0 63 bitWidth.toInt
    let mask ← mask.result 0 18446744073709551615 (((1 <<< places.toNat : Nat) : Int) - 1)
    return value.toNat &&& mask.toNat
  else return value.toNat

/-- The encoding of a value step by step, up to the first step whose result is beyond its limits. -/
def encode (value : UInt64) (bitWidth : Int32) : Except EncodingStep Bytes := do
  let bits ← kept value bitWidth
  let sum ← sum.result (-2147483648) 2147483647 (max bitWidth.toInt 0 + 7)
  let count ← count.result 0 18446744073709551615 (min (sum.tdiv 8) 8)
  let start ← start.result 0 18446744073709551615 (8 - count)
  let start ← cut.result 0 8 start
  return (Bytes.bigEndian 8 bits).drop start.toNat

theorem result_of_within {step : EncodingStep} {least greatest n : Int} (low : least ≤ n)
    (high : n ≤ greatest) : step.result least greatest n = .ok n := if_pos ⟨low, high⟩

theorem kept_eq (value : UInt64) (bitWidth : Int32) :
    kept value bitWidth = .ok (clearAbove value bitWidth) := by
  unfold kept clearAbove
  split
  case isTrue narrow =>
      have power : 1 <<< bitWidth.toInt.toNat = 2 ^ bitWidth.toInt.toNat := Nat.one_shiftLeft _
      have positive : 0 < 2 ^ bitWidth.toInt.toNat := Nat.two_pow_pos _
      have bound : 2 ^ bitWidth.toInt.toNat ≤ 2 ^ 63 :=
        Nat.pow_le_pow_right (by decide) (by omega)
      have places : shift.result 0 63 bitWidth.toInt = .ok bitWidth.toInt :=
        result_of_within (by omega) (by omega)
      have ones : mask.result 0 18446744073709551615
          (((2 ^ bitWidth.toInt.toNat : Nat) : Int) - 1) =
            .ok ((2 ^ bitWidth.toInt.toNat - 1 : Nat) : Int) := by
        rw [← Nat.cast_pred positive]
        exact result_of_within (by omega) (by omega)
      simp only [places, power, ones, bind, Except.bind, pure, Except.pure, Int.toNat_natCast,
        Nat.and_two_pow_sub_one_eq_mod]
  case isFalse => rfl

/-- Only the sum can go beyond its limits, and it does so for the widths that are refused. -/
theorem encode_eq (value : UInt64) (bitWidth : Int32) :
    encode value bitWidth = (encodeValue value bitWidth).mapError fun _ => .sum := by
  unfold encode encodeValue
  rw [kept_eq]
  split
  case isTrue inRange =>
      have summed : sum.result (-2147483648) 2147483647 (max bitWidth.toInt 0 + 7) =
          .ok (max bitWidth.toInt 0 + 7) := result_of_within (by omega) (by omega)
      have counted : min ((max bitWidth.toInt 0 + 7).tdiv 8) 8 = (byteCount bitWidth : Int) := by
        rw [Int.tdiv_eq_ediv_of_nonneg (by omega), byteCount]
        omega
      have few := byteCount_le bitWidth
      have count : count.result 0 18446744073709551615 (byteCount bitWidth) =
          .ok (byteCount bitWidth : Int) := result_of_within (by omega) (by omega)
      have start : start.result 0 18446744073709551615 (8 - byteCount bitWidth) =
          .ok (8 - byteCount bitWidth : Int) := result_of_within (by omega) (by omega)
      have cut : cut.result 0 8 (8 - byteCount bitWidth) = .ok (8 - byteCount bitWidth : Int) :=
        result_of_within (by omega) (by omega)
      have left : (8 - byteCount bitWidth : Int).toNat = 8 - byteCount bitWidth := by omega
      simp only [summed, counted, count, start, cut, left, Bytes.drop_bigEndian few, bind,
        Except.bind, pure, Except.pure, Except.mapError]
  case isFalse beyond =>
      have summed : sum.result (-2147483648) 2147483647 (max bitWidth.toInt 0 + 7) =
          .error .sum := if_neg (by omega)
      simp only [summed, bind, Except.bind, Except.mapError]

end EncodingStep

/-- A value is encoded in every width up to 2147483640, to the bytes that it is to have there, and in no
wider one, and so it is with field matches.  What fails in a wider one is the sum that rounds the width up
to whole bytes; no other step of an encoding ever goes beyond its limits. -/
theorem encoded_unless_sum_overflows (value : UInt64) (bitWidth : Int32) :
    ((∃ bytes, encodeValue value bitWidth = .ok bytes) ↔ bitWidth.toInt ≤ 2147483640) ∧
    (∀ bytes, encodeValue value bitWidth = .ok bytes ↔
      bitWidth.toInt ≤ 2147483640 ∧ WrittenIn bitWidth value bytes) ∧
    (EncodingStep.encode value bitWidth = (encodeValue value bitWidth).mapError fun _ => .sum) ∧
    ∀ field : MatchField, (∃ result, field.fieldMatch value = .ok result) ↔
      field.bitWidth.toInt ≤ 2147483640 :=
  ⟨exists_encodeValue_eq_ok_iff, fun _ => encodeValue_eq_ok_iff,
    EncodingStep.encode_eq value bitWidth, fun _ => MatchField.exists_fieldMatch_eq_ok_iff⟩

/-- One has no encoding in the greatest width, although its eight bytes would do. -/
theorem greatest_width_refused :
    WrittenIn 2147483647 1 [0, 0, 0, 0, 0, 0, 0, 1] ∧
    encodeValue 1 2147483647 = .error ⟨2147483647⟩ ∧
    EncodingStep.encode 1 2147483647 = .error .sum ∧
    (MatchField.make 1 "dst" 2147483647 .exact).fieldMatch 1 = .error ⟨2147483647⟩ := by
  refine ⟨?_, by decide, by decide, by decide⟩
  exact written_bigEndian 1 2147483647

/-! ## Order -/

/-- Values written in a width so that the bytes stand for what the width keeps of them, and are ordered
like these numbers if they are compared byte by byte. -/
structure WrittenInOrder (bitWidth : Int32) (written : UInt64 → Bytes) : Prop where
  encodeValue_eq : ∀ value, encodeValue value bitWidth = .ok (written value)
  toNat_eq : ∀ value, (written value).toNat = value.toNat % 2 ^ bitWidth.toInt.toNat
  eq_iff : ∀ value other, written value = written other ↔
    value.toNat ≡ other.toNat [MOD 2 ^ bitWidth.toInt.toNat]
  again : ∀ value, encodeValue (UInt64.ofNat (written value).toNat) bitWidth = .ok (written value)
  lex_iff : ∀ value other, List.Lex (· < ·) (written value) (written other) ↔
    value.toNat % 2 ^ bitWidth.toInt.toNat < other.toNat % 2 ^ bitWidth.toInt.toNat

namespace MatchField

variable {field : MatchField}

/-- The number that a value's bytes stand for is written as the same bytes. -/
theorem Sized.encoded_toNat (sized : field.Sized) (value : UInt64) :
    field.encoded (UInt64.ofNat (field.encoded value).toNat) = field.encoded value := by
  have fits : value.toNat % 2 ^ field.width < 2 ^ 64 :=
    (Nat.mod_le _ _).trans_lt value.toNat_lt
  rw [sized.encoded_eq_iff, toNat_encoded sized, UInt64.toNat_ofNat_of_lt' fits]
  exact Nat.mod_modEq _ _

theorem Sized.writtenInOrder (sized : field.Sized) :
    WrittenInOrder field.bitWidth field.encoded where
  encodeValue_eq := sized.encodeValue_eq
  toNat_eq := toNat_encoded sized
  eq_iff := sized.encoded_eq_iff
  again value := by rw [sized.encodeValue_eq, sized.encoded_toNat]
  lex_iff value other := by
    have sameLength : (field.encoded value).length = (field.encoded other).length := by
      rw [length_encoded, length_encoded]
    rw [Bytes.lex_iff_toNat_lt sameLength, toNat_encoded sized, toNat_encoded sized]
    rfl

end MatchField

/-- In a width of 1 to 64 bits the encoding takes the numbers below the power of two to bytes one to one
and in order. -/
theorem encoding_keeps_order (bitWidth : Int32) (wide : 1 ≤ bitWidth.toInt)
    (narrow : bitWidth.toInt ≤ 64) : ∃ written, WrittenInOrder bitWidth written := by
  have sized : (MatchField.make 0 "" bitWidth .exact).Sized := ⟨wide, narrow⟩
  exact ⟨_, sized.writtenInOrder⟩

/-- In twelve bits 4097 is written as 1 is, and 255 before 256 although its last byte is greater. -/
theorem twelve_bits_in_order : ∃ written : UInt64 → Bytes,
    (∀ value, encodeValue value 12 = .ok (written value)) ∧ (written 4097).toNat = 1 ∧
      written 4097 = written 1 ∧ encodeValue 1 12 = .ok (written 4097) ∧
      List.Lex (· < ·) (written 255) (written 256) := by
  obtain ⟨written, order⟩ := encoding_keeps_order 12 (by decide) (by decide)
  have wraps : (written 4097).toNat = 1 := order.toNat_eq 4097
  have again := order.again 4097
  rw [wraps] at again
  exact ⟨written, order.encodeValue_eq, wraps, (order.eq_iff 4097 1).mpr rfl, again,
    (order.lex_iff 255 256).mpr (by decide)⟩

end MatchAction
