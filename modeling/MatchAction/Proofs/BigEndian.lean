import MatchAction.Bytes
import Mathlib.Data.Nat.Digits.Lemmas
import Mathlib.Tactic.Ring

/-!
# Big-endian numbers

Writing a number in a count of bytes and reading it back keeps what those bytes can hold: the
remainder by a power of 256.  So the bytes are equal exactly when these remainders are.  Byte strings
of one length are known by the numbers that they denote, and they are ordered like these.
-/

namespace MatchAction.Bytes

theorem shiftRight_eq_div (n count : Nat) : n >>> (8 * count) = n / 256 ^ count := by
  rw [Nat.shiftRight_eq_div_pow, Nat.pow_mul]

/-- The number read so far moves to the front of the bytes that follow. -/
theorem foldl_bigEndian (start count n : Nat) :
    (bigEndian count n).foldl (fun number byte => number * 256 + byte.toNat) start =
      start * 256 ^ count + n % 256 ^ count := by
  induction count generalizing start with
  | zero => rw [bigEndian, List.foldl_nil, Nat.pow_zero, Nat.mul_one, Nat.mod_one, Nat.add_zero]
  | succ count ih =>
      have firstByte : (UInt8.ofNat (n >>> (8 * count))).toNat = n / 256 ^ count % 256 := by
        rw [UInt8.toNat_ofNat', shiftRight_eq_div]
      calc
        _ = (start * 256 + n / 256 ^ count % 256) * 256 ^ count + n % 256 ^ count := by
            rw [bigEndian, List.foldl_cons, ih, firstByte]
        _ = start * 256 ^ (count + 1) +
              (n % 256 ^ count + 256 ^ count * (n / 256 ^ count % 256)) := by ring
        _ = start * 256 ^ (count + 1) + n % 256 ^ (count + 1) := by rw [← Nat.mod_pow_succ]

/-- Writing and then reading keeps what the bytes can hold. -/
theorem toNat_bigEndian (count n : Nat) : toNat (bigEndian count n) = n % 256 ^ count := by
  rw [toNat, foldl_bigEndian, Nat.zero_mul, Nat.zero_add]

theorem bigEndian_inj {count first second : Nat} (fits : first < 256 ^ count)
    (fits' : second < 256 ^ count) :
    bigEndian count first = bigEndian count second ↔ first = second := by
  refine ⟨fun same => ?_, congrArg _⟩
  have sameNumber := congrArg toNat same
  rwa [toNat_bigEndian, toNat_bigEndian, Nat.mod_eq_of_lt fits,
    Nat.mod_eq_of_lt fits'] at sameNumber

/-- The bytes are digits to the base 256. -/
theorem toNat_eq_ofDigits (bytes : Bytes) :
    toNat bytes = Nat.ofDigits 256 (bytes.reverse.map UInt8.toNat) := by
  rw [Nat.ofDigits_eq_foldr, List.foldr_map, List.foldr_reverse, toNat]
  refine congrArg (fun step => bytes.foldl step 0) ?_
  funext n byte
  rw [Nat.mul_comm, Nat.add_comm]
  rfl

theorem digits_lt (bytes : Bytes) : ∀ digit ∈ bytes.reverse.map UInt8.toNat, digit < 256 := by
  intro digit inside
  obtain ⟨byte, -, rfl⟩ := List.mem_map.mp inside
  exact byte.toNat_lt

theorem toNat_lt (bytes : Bytes) : toNat bytes < 256 ^ bytes.length := by
  have bound := Nat.ofDigits_lt_base_pow_length (by decide) (digits_lt bytes)
  rwa [List.length_map, List.length_reverse, ← toNat_eq_ofDigits] at bound

/-- Byte strings of one length are known by their numbers. -/
theorem toNat_inj {first second : Bytes} (sameLength : first.length = second.length) :
    toNat first = toNat second ↔ first = second := by
  refine ⟨fun same => ?_, congrArg _⟩
  rw [toNat_eq_ofDigits, toNat_eq_ofDigits] at same
  have sameDigits := Nat.ofDigits_inj_of_len_eq (by decide) (by simpa using sameLength)
    (digits_lt first) (digits_lt second) same
  exact List.reverse_injective (List.map_injective_iff.mpr (fun _ _ => UInt8.toNat.inj) sameDigits)

theorem toNat_cons (byte : UInt8) (rest : Bytes) :
    toNat (byte :: rest) = byte.toNat * 256 ^ rest.length + toNat rest := by
  rw [toNat_eq_ofDigits, toNat_eq_ofDigits, List.reverse_cons, List.map_append, Nat.ofDigits_append,
    List.length_map, List.length_reverse, List.map_singleton, Nat.ofDigits_singleton, Nat.add_comm,
    Nat.mul_comm]

/-- Numbers are compared by their high parts first. -/
theorem mul_add_lt_iff {base high high' low low' : Nat} (bound : low < base) (bound' : low' < base) :
    high * base + low < high' * base + low' ↔ high < high' ∨ high = high' ∧ low < low' := by
  rcases Nat.lt_trichotomy high high' with less | rfl | greater
  · have next : (high + 1) * base ≤ high' * base := Nat.mul_le_mul_right base less
    rw [Nat.succ_mul] at next
    exact iff_of_true (by omega) (.inl less)
  · rw [Nat.add_lt_add_iff_left]
    simp only [Nat.lt_irrefl, false_or, true_and]
  · have next : (high' + 1) * base ≤ high * base := Nat.mul_le_mul_right base greater
    rw [Nat.succ_mul] at next
    refine iff_of_false (by omega) ?_
    rintro (less | ⟨rfl, -⟩)
    · exact Nat.lt_asymm less greater
    · exact Nat.lt_irrefl _ greater

/-- Of byte strings of one length the one that is less byte by byte denotes the lesser number. -/
theorem lex_iff_toNat_lt {first second : Bytes} (sameLength : first.length = second.length) :
    List.Lex (· < ·) first second ↔ toNat first < toNat second := by
  induction first generalizing second with
  | nil =>
      cases List.length_eq_zero_iff.mp sameLength.symm
      simp
  | cons byte rest ih =>
      cases second with
      | nil => cases sameLength
      | cons byte' rest' =>
          have sameRest : rest.length = rest'.length := Nat.succ.inj sameLength
          have bound : toNat rest < 256 ^ rest'.length := sameRest ▸ toNat_lt rest
          rw [List.cons_lex_cons_iff, ih sameRest, toNat_cons, toNat_cons, sameRest,
            mul_add_lt_iff bound (toNat_lt rest'), UInt8.lt_iff_toNat_lt, UInt8.toNat_inj]

/-- The last bytes of a number are those of its low end. -/
theorem drop_bigEndian {count whole : Nat} (fewer : count ≤ whole) (n : Nat) :
    (bigEndian whole n).drop (whole - count) = bigEndian count n := by
  obtain ⟨skipped, rfl⟩ := Nat.exists_eq_add_of_le' fewer
  rw [Nat.add_sub_cancel_right]
  induction skipped with
  | zero => rw [Nat.zero_add, List.drop_zero]
  | succ skipped ih => rw [Nat.succ_add, bigEndian, List.drop_succ_cons, ih (Nat.le_add_left _ _)]

end MatchAction.Bytes
