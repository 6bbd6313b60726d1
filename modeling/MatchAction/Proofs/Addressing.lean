import MatchAction.Proofs.DefaultAction
import MatchAction.Proofs.MatchOrder

/-!
# Addressing

What key field matches have is said here without the functions that compute it: by any stable sort of
them, by how each type of pattern is written, and by the first match that is one too many.  The key is
computed accordingly, by whichever stable sort and also if the bytes are hashed match by match.  All
calls for an entry that is no default action therefore find the same row, or are refused alike.
-/

namespace MatchAction

/-! ## Bytes -/

/-- How a pattern is written.  The length of an LPM match takes four bytes, in two's complement. -/
inductive Pattern.Written : Pattern → Bytes → Prop where
  | exact (value : Bytes) : Written (.exact value) (1 :: value)
  | lpm (value : Bytes) {length : Int32} {count : Bytes} (four : count.length = 4)
      (signed : Int.bmod count.toNat (2 ^ 32) = length.toInt) :
      Written (.lpm value length) (2 :: count ++ value)
  | range (low high : Bytes) : Written (.range low high) (3 :: low ++ high)
  | ternary (value mask : Bytes) : Written (.ternary value mask) (4 :: mask ++ value)
  | optional (value : Bytes) : Written (.optional value) (5 :: value)

/-- How field matches are written, one after the other. -/
inductive FieldMatch.Written : List FieldMatch → Bytes → Prop where
  | nil : Written [] []
  | cons {fieldMatch : FieldMatch} {rest : List FieldMatch} {bytes restBytes : Bytes}
      (head : fieldMatch.pattern.Written bytes) (tail : Written rest restBytes) :
      Written (fieldMatch :: rest) (bytes ++ restBytes)

theorem Pattern.signed_iff {count : Bytes} (four : count.length = 4) (length : Int32) :
    Int.bmod count.toNat (2 ^ 32) = length.toInt ↔
      count = Bytes.bigEndian 4 length.toBitVec.toNat := by
  have fits : count.toNat < 2 ^ 32 := by
    have bound := count.toNat_lt
    rwa [four] at bound
  have number : (Bytes.bigEndian 4 length.toBitVec.toNat).toNat = length.toBitVec.toNat := by
    rw [Bytes.toNat_bigEndian]
    exact Nat.mod_eq_of_lt length.toBitVec.isLt
  calc
    _ ↔ (BitVec.ofNat 32 count.toNat).toInt = length.toBitVec.toInt := by
        rw [BitVec.toInt_ofNat']
        rfl
    _ ↔ count.toNat = length.toBitVec.toNat := by
        rw [BitVec.toInt_inj, ← BitVec.toNat_inj, BitVec.toNat_ofNat, Nat.mod_eq_of_lt fits]
    _ ↔ count.toNat = (Bytes.bigEndian 4 length.toBitVec.toNat).toNat := by rw [number]
    _ ↔ _ := Bytes.toNat_inj (four.trans (Bytes.length_bigEndian _ _).symm)

theorem Pattern.written_iff {pattern : Pattern} {bytes : Bytes} :
    pattern.Written bytes ↔ bytes = pattern.keyBytes := by
  constructor
  · intro written
    cases written with
    | lpm value four signed => rw [(signed_iff four _).mp signed, keyBytes]
    | _ => rfl
  · rintro rfl
    cases pattern with
    | exact value => exact .exact value
    | lpm value length =>
        have four : (Bytes.bigEndian 4 length.toBitVec.toNat).length = 4 :=
          Bytes.length_bigEndian _ _
        exact .lpm value four ((signed_iff four length).mpr rfl)
    | ternary value mask => exact .ternary value mask
    | range low high => exact .range low high
    | optional value => exact .optional value

theorem FieldMatch.written_iff {fieldMatches : List FieldMatch} {bytes : Bytes} :
    Written fieldMatches bytes ↔ bytes = Key.image fieldMatches := by
  constructor
  · intro written
    induction written with
    | nil => rfl
    | cons head _ ih => rw [Pattern.written_iff.mp head, ih, Key.image, Key.image, List.flatMap_cons]
  · rintro rfl
    induction fieldMatches with
    | nil => exact .nil
    | cons fieldMatch rest ih =>
        rw [Key.image, List.flatMap_cons]
        exact .cons (Pattern.written_iff.mpr rfl) ih

/-! ## Order -/

/-- A list of field matches and what a stable sort by their field ids makes of it. -/
structure FieldMatch.StablySorted (given sorted : List FieldMatch) : Prop extends
    Rearranged given sorted where
  increasing : sorted.Pairwise fun a b => a.fieldId ≤ b.fieldId

/-- Every stable sort comes to the same list. -/
theorem FieldMatch.stablySorted_iff {given sorted : List FieldMatch} :
    StablySorted given sorted ↔ sorted = sort given := by
  constructor
  · rintro ⟨rearranged, increasing⟩
    rw [sort_eq_sort_iff.mpr rearranged, sort_of_pairwise increasing]
  · rintro rfl
    exact ⟨sort_eq_sort_iff.mp (sort_of_pairwise (pairwise_sort given)).symm, pairwise_sort given⟩

/-! ## Keys -/

namespace Key

/-- Takes in field matches from a position on.  A match at a position without a match field is refused
at once, any other adds its bytes to those that are hashed in the end. -/
def scan (fieldCount : Nat) : Nat → Bytes → List FieldMatch → Except Error Key
  | _, hashed, [] => .ok (Digest.ofBytes hashed)
  | position, hashed, fieldMatch :: rest =>
      if fieldCount ≤ position then .error (.unexpectedMatch position fieldMatch)
      else scan fieldCount (position + 1) (hashed ++ fieldMatch.pattern.keyBytes) rest

/-- What a scan comes to from a position that it reaches. -/
theorem scan_eq {fieldCount position : Nat} (reached : position ≤ fieldCount) (hashed : Bytes)
    (fieldMatches : List FieldMatch) :
    scan fieldCount position hashed fieldMatches =
      match fieldMatches[fieldCount - position]? with
      | some extra => .error (.unexpectedMatch fieldCount extra)
      | none => .ok (Digest.ofBytes (hashed ++ image fieldMatches)) := by
  induction fieldMatches generalizing position hashed with
  | nil => rw [scan, List.getElem?_nil, image, List.flatMap_nil, List.append_nil]
  | cons fieldMatch rest ih =>
      rw [scan]
      split
      · next ends =>
          have last : position = fieldCount := Nat.le_antisymm reached ends
          rw [last, Nat.sub_self, List.getElem?_cons_zero]
      · next goesOn =>
          have further : position + 1 ≤ fieldCount := Nat.lt_of_not_le goesOn
          have ahead : fieldCount - position = fieldCount - (position + 1) + 1 := by omega
          rw [ih further, ahead, List.getElem?_cons_succ, image, image, List.flatMap_cons,
            List.append_assoc]

theorem scan_eq_derive (fieldCount : Nat) (fieldMatches : List FieldMatch) :
    scan fieldCount 0 [] fieldMatches = derive fieldCount fieldMatches :=
  scan_eq (Nat.zero_le fieldCount) [] fieldMatches

/-- The key that field matches have by definition, or why they have none. -/
inductive Specified (fieldCount : Nat) (fieldMatches : List FieldMatch) :
    Except Error Key → Prop where
  | key {sorted : List FieldMatch} {bytes : Bytes} (fits : fieldMatches.length ≤ fieldCount)
      (order : FieldMatch.StablySorted fieldMatches sorted)
      (written : FieldMatch.Written sorted bytes) :
      Specified fieldCount fieldMatches (.ok (Digest.ofBytes bytes))
  | unexpected {sorted : List FieldMatch} {extra : FieldMatch}
      (exceeds : fieldCount < fieldMatches.length)
      (order : FieldMatch.StablySorted fieldMatches sorted)
      (first : sorted[fieldCount]? = some extra) :
      Specified fieldCount fieldMatches (.error (.unexpectedMatch fieldCount extra))

theorem specified_ofMatches (fieldCount : Nat) (fieldMatches : List FieldMatch) :
    Specified fieldCount fieldMatches (ofMatches fieldCount fieldMatches) := by
  have order := FieldMatch.stablySorted_iff.mpr (rfl : FieldMatch.sort fieldMatches = _)
  have sameLength := FieldMatch.length_sort fieldMatches
  rw [ofMatches, derive]
  split
  · next extra first =>
      obtain ⟨exceeds, -⟩ := List.getElem?_eq_some_iff.mp first
      exact .unexpected (sameLength ▸ exceeds) order first
  · next none =>
      have fits := List.getElem?_eq_none_iff.mp none
      exact .key (sameLength ▸ fits) order (FieldMatch.written_iff.mpr rfl)

/-- Field matches have one key by definition, and it is the one that is computed. -/
theorem ofMatches_eq_iff {fieldCount : Nat} {fieldMatches : List FieldMatch}
    {result : Except Error Key} :
    ofMatches fieldCount fieldMatches = result ↔ Specified fieldCount fieldMatches result := by
  constructor
  · rintro rfl
    exact specified_ofMatches fieldCount fieldMatches
  · intro specified
    cases specified with
    | key fits order written =>
        rw [FieldMatch.written_iff.mp written, FieldMatch.stablySorted_iff.mp order]
        exact ofMatches_eq_ok fits
    | unexpected exceeds order first =>
        rw [FieldMatch.stablySorted_iff.mp order] at first
        rw [ofMatches, derive, first]

end Key

/-- The match on the lower field comes first, however the two are given. -/
example : Key.Specified 2 [onDestination 2, onSource 1] (.ok (Digest.ofBytes [1, 1, 1, 2])) := by
  have order : FieldMatch.StablySorted [onDestination 2, onSource 1] [onSource 1, onDestination 2] :=
    ⟨.of_nodup (.swap _ _ _) (by decide), by decide⟩
  exact .key (by decide) order (FieldMatch.written_iff.mpr rfl)

/-! ## Calls -/

namespace Table

/-- All calls for an entry see and set what one place holds, or all are refused for one reason. -/
def Addresses (table : Table) (entry : TableEntry) (found : Except Error Place) : Prop :=
  ∀ mutation : Mutation, mutation.entry = entry → table.mutate mutation = (do
    let place ← found
    let held ← mutation.effect (table.row place)
    return table.setRow place held)

theorem addresses_keyedPlace (table : Table) {entry : TableEntry}
    (ordinary : entry.isDefaultAction = false) : table.Addresses entry (table.keyedPlace entry) := by
  rintro mutation rfl
  have keyed : table.place mutation = table.keyedPlace mutation.entry := by
    cases mutation with
    | modifyEntry entry insert => exact if_neg (Bool.eq_false_iff.mp ordinary)
    | removeEntry entry => exact if_neg (Bool.eq_false_iff.mp ordinary)
    | modifyCounter entry insert => rfl
    | modifyMeter entry insert => rfl
  rw [mutate_eq, applyEffect, keyed]

/-- How field matches find their row. -/
structure Addressing (table : Table) (fieldMatches : List FieldMatch) : Prop where
  /-- It makes no difference how the field matches are sorted, nor whether they are hashed one after
  the other. -/
  paths : ∀ sorted, FieldMatch.StablySorted fieldMatches sorted →
    Key.derive table.schema.matchFields.length sorted = table.keyOf fieldMatches ∧
    Key.scan table.schema.matchFields.length 0 [] sorted = table.keyOf fieldMatches
  specified : ∀ result, table.keyOf fieldMatches = result ↔
    Key.Specified table.schema.matchFields.length fieldMatches result
  refused : ∀ error, table.keyOf fieldMatches = .error error →
    error.kind = .invalid ∧ ∃ sorted extra, FieldMatch.StablySorted fieldMatches sorted ∧
      sorted[table.schema.matchFields.length]? = some extra ∧
      error.message =
        s!"unexpected field match {table.schema.matchFields.length}: {extra.text}"
  calls : ∀ entry : TableEntry, entry.isDefaultAction = false → entry.fieldMatches = fieldMatches →
    table.Addresses entry ((table.keyOf fieldMatches).map .keyed)

/-- However its field matches are sorted and hashed, an entry's key is the specified one.  So an entry
that is inserted is the one that is found when it is modified, removed or counted. -/
theorem entries_found_by_specified_key (table : Table) (fieldMatches : List FieldMatch) :
    table.Addressing fieldMatches where
  paths := by
    intro sorted order
    have derived : Key.derive table.schema.matchFields.length sorted =
        table.keyOf fieldMatches := by
      rw [FieldMatch.stablySorted_iff.mp order, keyOf, Key.ofMatches]
    exact ⟨derived, (Key.scan_eq_derive _ sorted).trans derived⟩
  specified result := Key.ofMatches_eq_iff
  refused := by
    intro error failed
    cases Key.ofMatches_eq_iff.mp failed with
    | unexpected exceeds order first => exact ⟨rfl, _, _, order, first, rfl⟩
  calls := by
    rintro entry ordinary rfl
    exact table.addresses_keyedPlace ordinary

/-! ## Default actions -/

theorem modify_default (table : Table) {entry : TableEntry}
    (isDefault : entry.isDefaultAction = true) (bare : entry.fieldMatches.isEmpty = true) :
    table.mutate (.modifyEntry entry false) =
      .ok (table.setRow .default (some (Row.defaultAction entry))) := by
  refine mutate_eq_ok.mpr ⟨.default, some (Row.defaultAction entry), ?_, ?_, rfl⟩
  · rw [place, if_pos isDefault, if_neg Bool.false_ne_true, if_pos bare]
  · exact if_pos isDefault

theorem remove_default (table : Table) {entry : TableEntry}
    (isDefault : entry.isDefaultAction = true) :
    table.mutate (.removeEntry entry) = .error .defaultRemove := by
  rw [mutate_eq, applyEffect, place, if_pos isDefault]
  rfl

/-- A default action is modified but never removed, so there is nothing that all its calls address. -/
theorem not_addresses_default (table : Table) {entry : TableEntry}
    (isDefault : entry.isDefaultAction = true) (bare : entry.fieldMatches.isEmpty = true)
    (found : Except Error Place) : ¬ table.Addresses entry found := by
  intro addresses
  cases found with
  | error error =>
      have refused := addresses (.modifyEntry entry false) rfl
      rw [table.modify_default isDefault bare] at refused
      cases refused
  | ok place =>
      have removed := addresses (.removeEntry entry) rfl
      rw [table.remove_default isDefault] at removed
      cases removed

/-- A default action that was set cannot be removed by the entry that it was set with. -/
theorem default_set_not_removed :
    ∃ table, (make accessList 64).mutate (.modifyEntry defaultCounter.tableEntry false) = .ok table ∧
      table.row .default = some (Row.defaultAction defaultCounter.tableEntry) ∧
      table.mutate (.removeEntry defaultCounter.tableEntry) = .error .defaultRemove ∧
      ¬ ∃ found, table.Addresses defaultCounter.tableEntry found := by
  refine ⟨_, modify_default _ rfl rfl, ?_, remove_default _ rfl, ?_⟩
  · rw [row_setRow, if_pos rfl]
  · rintro ⟨found, addresses⟩
    exact not_addresses_default _ rfl rfl found addresses

end Table

end MatchAction
