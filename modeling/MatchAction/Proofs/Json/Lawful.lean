import MatchAction.Json.Codec
import MatchAction.Proofs.Json.Document

/-!
# Lawful codecs

A codec is lawful if it decodes what it encodes, and encodes it as a value that a text can hold.
Lists, optional values and variants of lawful codecs are lawful.  The main statement is
`Codec.Lawful.ofText_of_layout`: every text of a value's encoding decodes to the value.
-/

namespace MatchAction.Json

namespace Codec

variable {α : Type}

/-- A codec that decodes each value it encodes, in which no more than so many containers lie within
one another. -/
structure Lawful (depth : Nat) (codec : Codec α) : Prop where
  decode_encode : ∀ source x, codec.decode source (codec.encode x).reading = .ok x
  within : ∀ x, (codec.encode x).Within depth

/-- A text is decoded as the value that it is laid out as. -/
theorem ofText_eq_decode (codec : Codec α) {depth : Nat} {json : Json} (within : json.Within depth)
    (shallow : depth ≤ 127) {text : String} (layout : Token.Layout json.tokens text.toList) :
    codec.ofText text = codec.decode .text json.reading := by
  rw [ofText, Document.ofText_of_layout within shallow layout]
  cases codec.decode .text json.reading <;> rfl

namespace Lawful

variable {codec : Codec α} {depth : Nat}

theorem ofText_of_layout (lawful : codec.Lawful depth) (shallow : depth ≤ 127) {x : α}
    {text : String} (layout : Token.Layout (codec.encode x).tokens text.toList) :
    codec.ofText text = .ok x := by
  rw [ofText_eq_decode codec (lawful.within x) shallow layout, lawful.decode_encode]

theorem ofText_toText (lawful : codec.Lawful depth) (shallow : depth ≤ 127) (x : α) :
    codec.ofText (codec.toText x) = .ok x :=
  lawful.ofText_of_layout shallow (lawful.within x).layout_text

theorem encode_inj (lawful : codec.Lawful depth) {x y : α} (same : codec.encode x = codec.encode y) :
    x = y := by
  have decoded := lawful.decode_encode .text x
  rw [same, lawful.decode_encode] at decoded
  exact (Except.ok.inj decoded).symm

/-! ## Single values -/

theorem integer {low high : Int} {toInt : α → Int} {ofInt : Int → α}
    (lowest : -9223372036854775808 ≤ low) (highest : high ≤ 18446744073709551615)
    (bounds : ∀ x, low ≤ toInt x ∧ toInt x ≤ high) (ofInt_toInt : ∀ x, ofInt (toInt x) = x) :
    (Codec.integer low high toInt ofInt).Lawful depth where
  decode_encode _ x := by
    simp only [Codec.integer, reading, if_pos (bounds x), ofInt_toInt]
  within x := .number ⟨Int.le_trans lowest (bounds x).1, Int.le_trans (bounds x).2 highest⟩

theorem byte : Codec.byte.Lawful depth :=
  integer (by decide) (by decide) (fun x => by have := x.toNat_lt; omega) fun x => by simp

theorem unsigned32 : Codec.unsigned32.Lawful depth :=
  integer (by decide) (by decide) (fun x => by have := x.toNat_lt; omega) fun x => by simp

theorem unsigned64 : Codec.unsigned64.Lawful depth :=
  integer (by decide) (by decide) (fun x => by have := x.toNat_lt; omega) fun x => by simp

theorem signed32 : Codec.signed32.Lawful depth :=
  integer (by decide) (by decide)
    (fun x => by have := x.le_toInt; have := x.toInt_lt; omega) Int32.ofInt_toInt

theorem signed64 : Codec.signed64.Lawful depth :=
  integer (by decide) (by decide)
    (fun x => by have := x.le_toInt; have := x.toInt_lt; omega) Int64.ofInt_toInt

theorem bool : Codec.bool.Lawful depth := ⟨fun _ _ => rfl, fun x => .bool x⟩

theorem string : Codec.string.Lawful depth := ⟨fun _ _ => rfl, fun x => .string x⟩

/-! ## Lists and optional values -/

theorem list (lawful : codec.Lawful depth) : (Codec.list codec).Lawful (depth + 1) where
  decode_encode source xs := by
    have decoded : (itemReadings (xs.map codec.encode)).mapM (codec.decode source) = .ok xs := by
      induction xs with
      | nil => rfl
      | cons x xs ih =>
          rw [List.map_cons, itemReadings, List.mapM_cons, lawful.decode_encode, ih]
          rfl
    exact decoded
  within xs := by
    refine .array fun item inside => ?_
    obtain ⟨x, -, rfl⟩ := List.mem_map.mp inside
    exact lawful.within x

/-- Only what is left out may be written as `null`. -/
theorem option (lawful : codec.Lawful depth) (present : ∀ x, codec.encode x ≠ .null) :
    (Codec.option codec).Lawful depth where
  decode_encode source x := by
    cases x with
    | none => rfl
    | some x =>
        have decoded := lawful.decode_encode source x
        have isPresent := present x
        simp only [Codec.option]
        cases encoded : codec.encode x <;> simp_all [reading, Except.map]
  within x := by
    cases x with
    | none => exact .null
    | some x => exact lawful.within x

end Lawful

end Codec

/-! ## Variants -/

namespace Variant

variable {α : Type} {variants : List (Variant α)} {name : String}

theorem decode_string {x : α} (found : find variants name = .ok (.bare name x)) (source : Source) :
    decode variants source (Json.string name).reading = .ok x := by
  cases source <;> simp [reading, decode, found, alone, bind, Except.bind]

theorem decode_object {variant : Variant α} {content : Json} {x : α}
    (found : find variants name = .ok variant) (source : Source)
    (taken : variant.withContent source content.reading = .ok x) :
    decode variants source (Json.object [(name, content)]).reading = .ok x := by
  cases source <;> simp [reading, memberReadings, decode, found, taken, bind, Except.bind]

theorem withContent_of {β : Type} {depth : Nat} {codec : Codec β} (lawful : codec.Lawful depth)
    (make : β → α) (source : Source) (y : β) :
    (Variant.of name codec make).withContent source (codec.encode y).reading = .ok (make y) := by
  rw [Variant.of, withContent, lawful.decode_encode]
  rfl

end Variant

end MatchAction.Json
