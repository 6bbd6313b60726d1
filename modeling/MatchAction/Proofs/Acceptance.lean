import MatchAction.Proofs.BigEndian
import MatchAction.Proofs.FieldValues

/-!
# Acceptance

Which values of a field satisfy a pattern, by the type of the pattern.  The pattern that is made for one
value of a field is satisfied by that value alone, taken in the field's width: nothing of it is lost in
its bytes, a full-length LPM match compares every bit, the mask of a ternary match has every bit of the
field, and a range has one value.
-/

namespace MatchAction

namespace Pattern

/-- Whether a value of a field of the given width satisfies a pattern.  The bits of the field count from
the least significant one, so that the first bits of an LPM match are the highest. -/
def Accepts (width x : Nat) : Pattern → Prop
  | exact value => x = value.toNat
  | lpm value length =>
      ∀ bit < width, (width : Int) - length.toInt ≤ bit → x.testBit bit = value.toNat.testBit bit
  | ternary value mask => x &&& mask.toNat = value.toNat &&& mask.toNat
  | range low high => low.toNat ≤ x ∧ x ≤ high.toNat
  | optional value => x = value.toNat

instance (width x : Nat) : (pattern : Pattern) → Decidable (pattern.Accepts width x)
  | exact value => inferInstanceAs (Decidable (x = value.toNat))
  | lpm value length => inferInstanceAs (Decidable (∀ bit < width,
      (width : Int) - length.toInt ≤ bit → x.testBit bit = value.toNat.testBit bit))
  | ternary value mask =>
      inferInstanceAs (Decidable (x &&& mask.toNat = value.toNat &&& mask.toNat))
  | range low high => inferInstanceAs (Decidable (low.toNat ≤ x ∧ x ≤ high.toNat))
  | optional value => inferInstanceAs (Decidable (x = value.toNat))

def type : Pattern → MatchType
  | exact _ => .exact
  | lpm _ _ => .lpm
  | ternary _ _ => .ternary
  | range _ _ => .range
  | optional _ => .optional

/-- The byte strings of a pattern. -/
def parts : Pattern → List Bytes
  | exact value | lpm value _ | optional value => [value]
  | ternary value mask => [value, mask]
  | range low high => [low, high]

/-- Every bit of a ternary match's value is one of its mask's. -/
def Masked : Pattern → Prop
  | ternary value mask => ∀ bit, value.toNat.testBit bit = true → mask.toNat.testBit bit = true
  | exact _ | lpm _ _ | range _ _ | optional _ => True

/-- Numbers below a power of two are told apart by the bits below it. -/
theorem eq_iff_testBit {width x y : Nat} (bound : x < 2 ^ width) (bound' : y < 2 ^ width) :
    (∀ bit < width, x.testBit bit = y.testBit bit) ↔ x = y := by
  refine ⟨fun same => Nat.eq_of_testBit_eq fun bit => ?_, fun same _ _ => same ▸ rfl⟩
  by_cases low : bit < width
  · exact same bit low
  · have high : 2 ^ width ≤ 2 ^ bit := Nat.pow_le_pow_right (by decide) (Nat.le_of_not_lt low)
    rw [Nat.testBit_lt_two_pow (bound.trans_le high), Nat.testBit_lt_two_pow (bound'.trans_le high)]

end Pattern

namespace MatchField

variable {field : MatchField}

theorem toNat_encoded (sized : field.Sized) (value : UInt64) :
    (field.encoded value).toNat = value.toNat % 2 ^ field.width := by
  rw [encoded, Bytes.toNat_bigEndian, Nat.mod_eq_of_lt (sized.fits value)]

/-- The mask of a ternary match is all ones in the field's width. -/
theorem toNat_encoded_ones (sized : field.Sized) :
    (field.encoded 18446744073709551615).toNat = 2 ^ field.width - 1 := by
  have narrow : field.width ≤ 64 := by
    have narrow := sized.narrow
    unfold width
    omega
  have ones : (18446744073709551615 : UInt64).toNat = 2 ^ 64 - 1 := rfl
  rw [toNat_encoded sized, ones]
  refine Nat.eq_of_testBit_eq fun bit => ?_
  rw [Nat.testBit_mod_two_pow, Nat.testBit_two_pow_sub_one, Nat.testBit_two_pow_sub_one,
    ← Bool.decide_and, decide_eq_decide]
  omega

theorem Sized.byteCount_eq (sized : field.Sized) :
    byteCount field.bitWidth = (field.width + 7) / 8 := by
  have narrow := sized.narrow
  unfold byteCount width
  omega

theorem patternFor_eq_none_iff (value ones : Bytes) :
    field.patternFor value ones = none ↔
      field.matchType = .unspecified ∨ ∃ name, field.matchType = .other name := by
  unfold patternFor
  cases field.matchType <;> simp

/-- The patterns that are made for a value of the field, by the field's match type. -/
inductive Made (field : MatchField) (value ones : Bytes) : Pattern → Prop where
  | exact (typed : field.matchType = .exact) : Made field value ones (.exact value)
  | lpm (typed : field.matchType = .lpm) : Made field value ones (.lpm value field.bitWidth)
  | ternary (typed : field.matchType = .ternary) : Made field value ones (.ternary value ones)
  | range (typed : field.matchType = .range) : Made field value ones (.range value value)
  | optional (typed : field.matchType = .optional) : Made field value ones (.optional value)

variable {value ones : Bytes} {pattern : Pattern}

theorem made_of_patternFor (chosen : field.patternFor value ones = some pattern) :
    field.Made value ones pattern := by
  unfold patternFor at chosen
  split at chosen
  · next typed =>
      cases chosen
      exact .exact typed
  · next typed =>
      cases chosen
      exact .lpm typed
  · next typed =>
      cases chosen
      exact .ternary typed
  · next typed =>
      cases chosen
      exact .range typed
  · next typed =>
      cases chosen
      exact .optional typed
  · cases chosen
  · cases chosen

theorem Made.type_eq (made : field.Made value ones pattern) : pattern.type = field.matchType := by
  cases made with
  | exact typed | lpm typed | ternary typed | range typed | optional typed => exact typed.symm

theorem Made.part_eq (made : field.Made value ones pattern) :
    ∀ part ∈ pattern.parts, part = value ∨ part = ones := by
  cases made with
  | exact | lpm | optional => exact List.forall_mem_singleton.mpr (.inl rfl)
  | ternary =>
      exact List.forall_mem_cons.mpr ⟨.inl rfl, List.forall_mem_singleton.mpr (.inr rfl)⟩
  | range => exact List.forall_mem_cons.mpr ⟨.inl rfl, List.forall_mem_singleton.mpr (.inl rfl)⟩

/-- Of the values of the field only the one that the pattern was made for satisfies it. -/
theorem Sized.accepts_iff (sized : field.Sized) (value : UInt64)
    (made : field.Made (field.encoded value) (field.encoded 18446744073709551615) pattern) {x : Nat}
    (bound : x < 2 ^ field.width) :
    pattern.Accepts field.width x ↔ x = value.toNat % 2 ^ field.width := by
  have toNat := toNat_encoded sized value
  cases made with
  | exact => rw [Pattern.Accepts, toNat]
  | lpm =>
      have reduced : value.toNat % 2 ^ field.width < 2 ^ field.width :=
        Nat.mod_lt _ (Nat.two_pow_pos _)
      have everyBit (bit : Nat) : (field.width : Int) - field.bitWidth.toInt ≤ bit := by
        have wide := sized.wide
        unfold width
        omega
      simp only [Pattern.Accepts, everyBit, forall_const, toNat]
      exact Pattern.eq_iff_testBit bound reduced
  | ternary =>
      rw [Pattern.Accepts, toNat, toNat_encoded_ones sized, Nat.and_two_pow_sub_one_eq_mod,
        Nat.and_two_pow_sub_one_eq_mod, Nat.mod_eq_of_lt bound, Nat.mod_mod]
  | range =>
      rw [Pattern.Accepts, toNat, and_comm]
      exact Nat.le_antisymm_iff.symm
  | optional => rw [Pattern.Accepts, toNat]

theorem Sized.masked (sized : field.Sized) (value : UInt64)
    (made : field.Made (field.encoded value) (field.encoded 18446744073709551615) pattern) :
    pattern.Masked := by
  cases made with
  | ternary =>
      intro bit set
      rw [toNat_encoded sized, Nat.testBit_mod_two_pow, Bool.and_eq_true] at set
      rw [toNat_encoded_ones sized, Nat.testBit_two_pow_sub_one, set.1]
  | exact | lpm | range | optional => trivial

/-- What a field match for one value of a field amounts to. -/
structure Singles (field : MatchField) (value : UInt64) (built : FieldMatch) : Prop where
  fieldId : built.fieldId = field.id
  type : built.pattern.type = field.matchType
  accepts_iff : ∀ x < 2 ^ field.width,
    built.pattern.Accepts field.width x ↔ x = value.toNat % 2 ^ field.width
  lengths : ∀ part ∈ built.pattern.parts, part.length = (field.width + 7) / 8
  masked : built.pattern.Masked

theorem Sized.singles (sized : field.Sized) (value : UInt64)
    (made : field.Made (field.encoded value) (field.encoded 18446744073709551615) pattern) :
    field.Singles value ⟨field.id, pattern⟩ where
  fieldId := rfl
  type := made.type_eq
  accepts_iff := fun _ => sized.accepts_iff value made
  lengths := by
    intro part inside
    rcases made.part_eq part inside with rfl | rfl
    · rw [length_encoded, sized.byteCount_eq]
    · rw [length_encoded, sized.byteCount_eq]
  masked := sized.masked value made

/-- For one value of a field of 1 to 64 bits a field match is made if the field has a match type with a
pattern of its own, and of all values of the field just that one satisfies it. -/
theorem fieldMatch_singles (sized : field.Sized) (value : UInt64) :
    ∃ result, field.fieldMatch value = .ok result ∧
      (result = none ↔ field.matchType = .unspecified ∨ ∃ name, field.matchType = .other name) ∧
      ∀ built, result = some built → field.Singles value built := by
  refine ⟨_, sized.fieldMatch_eq value, ?_, ?_⟩
  · rw [Option.map_eq_none_iff]
    exact patternFor_eq_none_iff _ _
  · intro built same
    obtain ⟨pattern, chosen, rfl⟩ := Option.map_eq_some_iff.mp same
    exact sized.singles value (made_of_patternFor chosen)

/-- A network's number of twelve bits, matched under a mask. -/
def maskedNetwork : MatchField := .make 2 "vlan" 12 .ternary

/-- What lies above the twelve bits is neither looked at nor left in the match. -/
theorem masked_network_accepts_one :
    ∃ built, maskedNetwork.fieldMatch 4097 = .ok (some built) ∧ built.pattern.Masked ∧
      ∀ x < 4096, built.pattern.Accepts 12 x ↔ x = 1 := by
  have sized : maskedNetwork.Sized := by decide
  obtain ⟨result, made, none_iff, singles⟩ := fieldMatch_singles sized 4097
  cases result with
  | none =>
      rcases none_iff.mp rfl with unspecified | ⟨name, other⟩
      · cases unspecified
      · cases other
  | some built =>
      have single := singles built rfl
      exact ⟨built, made, single.masked, single.accepts_iff⟩

/-- The match is computed, and all values of the field are tried. -/
example : maskedNetwork.fieldMatch 4097 = .ok (some ⟨2, .ternary [0, 1] [15, 255]⟩) ∧
    (List.range 4096).filter (fun x => (Pattern.ternary [0, 1] [15, 255]).Accepts 12 x) = [1] := by
  decide +kernel

end MatchField

end MatchAction
