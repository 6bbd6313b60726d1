import MatchAction.Proofs.Json.Record
import MatchAction.Proofs.Results

/-!
# Records of rigid fields

A codec is rigid if it takes every value in one form only, that in which it writes the value.  Numbers
and lists of them are rigid.  A record is not, but if its fields are, it is taken in no other ways than
those in which a record can be presented.  The main statement is `Fields.decode_eq_ok_iff`.
-/

namespace MatchAction.Json

namespace Codec

variable {α : Type} {codec : Codec α}

/-- Whatever decodes as a value is what the value is written as. -/
def Rigid (codec : Codec α) : Prop :=
  ∀ source json x, codec.decode source json.reading = .ok x → json = codec.encode x

theorem Rigid.integer {low high : Int} {toInt : α → Int} {ofInt : Int → α}
    (toInt_ofInt : ∀ n, low ≤ n → n ≤ high → toInt (ofInt n) = n) :
    (Codec.integer low high toInt ofInt).Rigid := by
  intro source json x decoded
  cases json with
  | number n =>
      simp only [Codec.integer, reading] at decoded
      split at decoded
      · next bounds =>
          cases decoded
          exact congrArg Json.number (toInt_ofInt n bounds.1 bounds.2).symm
      · cases decoded
  | null | bool | string | array | object => cases decoded

theorem Rigid.byte : Codec.byte.Rigid := .integer fun n low high => by
  have small : n.toNat < 256 := by omega
  rw [UInt8.toNat_ofNat', Nat.mod_eq_of_lt small, Int.toNat_of_nonneg low]

theorem Rigid.signed32 : Codec.signed32.Rigid := .integer fun n low high =>
  Int32.toInt_ofInt_of_le (Int.le_trans (by decide) low) (Int.lt_of_le_of_lt high (by decide))

theorem Rigid.list (rigid : codec.Rigid) : (Codec.list codec).Rigid := by
  intro source json xs decoded
  cases json with
  | array items =>
      have read : (itemReadings items).mapM (codec.decode source) = .ok xs := decoded
      refine congrArg Json.array ?_
      clear decoded
      induction items generalizing xs with
      | nil =>
          cases read
          rfl
      | cons item rest ih =>
          rw [itemReadings, List.mapM_cons] at read
          cases first : codec.decode source item.reading with
          | error error => rw [first] at read; cases read
          | ok x =>
              rw [first] at read
              cases others : (itemReadings rest).mapM (codec.decode source) with
              | error error => simp only [others] at read; cases read
              | ok xs' =>
                  simp only [others] at read
                  cases read
                  rw [List.map_cons, ← rigid source item x first, ← ih xs' others]
  | null | bool | number | string | object => cases decoded

end Codec

namespace Fields

variable {τ : Type}

def Rigid : {τ : Type} → Fields τ → Prop
  | _, nil => True
  | _, cons _ codec _ rest => codec.Rigid ∧ rest.Rigid

/-- The members that were read into slots. -/
def given : {τ : Type} → (fields : Fields τ) → fields.Slots → List (String × Json)
  | _, nil, _ => []
  | _, cons name codec _ rest, slots =>
      (slots.first.map fun x => (name, codec.encode x)).toList ++ rest.given slots.others

theorem given_cons {α β : Type} {name : String} {codec : Codec α} {default? : Option α}
    {rest : Fields β} (slots : (cons name codec default? rest).Slots) :
    (cons name codec default? rest).given slots =
      (slots.first.map fun x => (name, codec.encode x)).toList ++ rest.given slots.others := rfl

theorem given_noSlots (fields : Fields τ) : fields.given fields.noSlots = [] := by
  induction fields with
  | nil => rfl
  | cons name codec default? rest ih => exact ih

theorem name_mem_of_put {fields : Fields τ} {source : Source} {name : String} {reading : Reading}
    {slots : fields.Slots} {result : Except DecodeError fields.Slots}
    (read : fields.put source name reading slots = some result) : name ∈ fields.names := by
  by_contra other
  rw [put_of_not_mem other] at read
  cases read

theorem not_mem_of_put {fields : Fields τ} {source : Source} {name : String} {reading : Reading}
    {slots : fields.Slots} (unread : fields.put source name reading slots = none) :
    name ∉ fields.names := by
  induction fields with
  | nil => exact List.not_mem_nil
  | cons field codec default? rest ih =>
      rw [put] at unread
      split at unread
      · split at unread <;> cases unread
      · next differ =>
          exact List.not_mem_cons_of_ne_of_not_mem differ (ih (Option.map_eq_none_iff.mp unread))

/-- A member that was read as the value of a field is in the slots then. -/
theorem given_put {fields : Fields τ} (rigid : fields.Rigid) {source : Source}
    {member : String × Json} {slots next : fields.Slots}
    (read : fields.put source member.1 member.2.reading slots = some (.ok next)) :
    (fields.given next).Perm (member :: fields.given slots) := by
  induction fields with
  | nil => cases read
  | cons field codec default? rest ih =>
      obtain ⟨first, others⟩ := rigid
      rw [put] at read
      split at read
      · next same =>
          split at read
          · cases read
          · next free =>
              obtain ⟨x, decoded, rfl⟩ := map_eq_ok.mp (Option.some.inj read)
              have isField : member = (field, codec.encode x) :=
                Prod.ext same (first source member.2 x decoded)
              rw [given_cons slots, free, isField]
              exact List.Perm.refl _
      · obtain ⟨result, readOther, sameResult⟩ := Option.map_eq_some_iff.mp read
        obtain ⟨nextOthers, rfl, rfl⟩ := map_eq_ok.mp sameResult
        rw [given_cons slots]
        exact ((ih others readOther).append_left _).trans List.perm_middle

/-- What a step over the members adds to the slots. -/
theorem given_takeMember {fields : Fields τ} (rigid : fields.Rigid) {lenient : Bool}
    {source : Source} {member : String × Json} {slots next : fields.Slots}
    (taken : fields.takeMember lenient source slots (member.1, member.2.reading) = .ok next) :
    (fields.given next).Perm
      ([member].filter (fun member => member.1 ∈ fields.names) ++ fields.given slots) := by
  unfold takeMember at taken
  split at taken
  · next result read =>
      subst taken
      have isField : member.1 ∈ fields.names := name_mem_of_put read
      rw [List.filter_singleton, decide_eq_true isField]
      exact given_put rigid read
  · next unread =>
      have other : member.1 ∉ fields.names := not_mem_of_put unread
      have unchanged : slots = next := by
        split at taken
        · split at taken
          · exact Except.ok.inj taken
          · cases taken
        · cases taken
      rw [List.filter_singleton, decide_eq_false other, unchanged]
      exact List.Perm.refl _

/-- Of all members those that belong to fields are in the slots in the end. -/
theorem given_foldlM {fields : Fields τ} (rigid : fields.Rigid) {lenient : Bool} {source : Source}
    {members : List (String × Json)} {slots last : fields.Slots}
    (taken : (memberReadings members).foldlM (fields.takeMember lenient source) slots = .ok last) :
    (fields.given last).Perm
      (members.filter (fun member => member.1 ∈ fields.names) ++ fields.given slots) := by
  induction members generalizing slots with
  | nil =>
      cases taken
      exact List.Perm.refl _
  | cons member rest ih =>
      rw [memberReadings, List.foldlM_cons] at taken
      obtain ⟨next, first, others⟩ := bind_eq_ok.mp taken
      have front : (member :: rest).filter (fun member => member.1 ∈ fields.names) =
          [member].filter (fun member => member.1 ∈ fields.names) ++
            rest.filter fun member => member.1 ∈ fields.names := List.filter_append [member] rest
      rw [front, List.append_assoc]
      exact (ih others).trans (((given_takeMember rigid first).append_left _).trans
        (List.perm_append_comm_assoc _ _ _))

theorem mem_defaults_cons {α β : Type} {name : String} {codec : Codec α} {default? : Option α}
    {rest : Fields β} {field : String × Json} (omittable : field ∈ rest.defaults) :
    field ∈ (cons name codec default? rest).defaults := by
  cases default? with
  | none => exact omittable
  | some default => exact List.mem_cons_of_mem _ omittable

/-- A record has what is in the slots, and the defaults of the other fields. -/
theorem given_of_finish {fields : Fields τ} {slots : fields.Slots} {xs : τ}
    (finished : fields.finish slots = .ok xs) :
    (fields.given slots).Sublist (fields.encode xs) ∧
      ∀ field ∈ fields.encode xs, field ∈ fields.given slots ∨ field ∈ fields.defaults := by
  induction fields with
  | nil => exact ⟨List.Sublist.refl _, List.forall_mem_nil _⟩
  | cons name codec default? rest ih =>
      rw [finish] at finished
      split at finished
      · next x present =>
          obtain ⟨others, read, rfl⟩ := map_eq_ok.mp finished
          obtain ⟨kept, omitted⟩ := ih read
          rw [given_cons slots]
          cases first : slots.first with
          | some y =>
              rw [first] at present
              cases present
              refine ⟨kept.cons_cons _, ?_⟩
              rintro field (_ | ⟨_, inside⟩)
              · exact .inl List.mem_cons_self
              · exact (omitted field inside).imp (List.mem_cons_of_mem _) mem_defaults_cons
          | none =>
              rw [first, Option.none_or] at present
              subst present
              refine ⟨kept.cons _, ?_⟩
              rintro field (_ | ⟨_, inside⟩)
              · exact .inr List.mem_cons_self
              · exact (omitted field inside).imp_right mem_defaults_cons
      · cases finished

theorem parted_of_ofItems {fields : Fields τ} (rigid : fields.Rigid) {source : Source}
    {position : Nat} {items : List Json} {xs : τ} {extra : List Reading}
    (read : fields.ofItems source position (itemReadings items) = .ok (xs, extra)) :
    ∃ kept omitted left, fields.encode xs = kept ++ omitted ∧
      (∀ field ∈ omitted, field ∈ fields.defaults) ∧ items = kept.map Prod.snd ++ left ∧
      extra = itemReadings left := by
  induction fields generalizing position items extra with
  | nil =>
      cases read
      exact ⟨[], [], items, rfl, List.forall_mem_nil _, rfl, rfl⟩
  | cons name codec default? rest ih =>
      obtain ⟨first, others⟩ := rigid
      cases items with
      | cons item items =>
          rw [itemReadings, ofItems] at read
          obtain ⟨x, decoded, readRest⟩ := bind_eq_ok.mp read
          obtain ⟨⟨xs', extra'⟩, readOthers, same⟩ := bind_eq_ok.mp readRest
          cases same
          obtain ⟨kept, omitted, left, parted, omittable, rfl, rfl⟩ := ih others readOthers
          refine ⟨(name, codec.encode x) :: kept, omitted, left, ?_, ?_, ?_, rfl⟩
          · exact congrArg _ parted
          · exact fun field inside => mem_defaults_cons (omittable field inside)
          · rw [first source item x decoded]
            rfl
      | nil =>
          cases default? with
          | none => cases read
          | some x =>
              rw [itemReadings, ofItems] at read
              obtain ⟨⟨xs', extra'⟩, readOthers, same⟩ := bind_eq_ok.mp read
              cases same
              have readNone : rest.ofItems source (position + 1) (itemReadings []) =
                  .ok (xs', extra) := readOthers
              obtain ⟨kept, omitted, left, parted, omittable, none, rfl⟩ := ih others readNone
              obtain ⟨noneKept, rfl⟩ := List.append_eq_nil_iff.mp none.symm
              rw [List.map_eq_nil_iff.mp noneKept] at parted
              refine ⟨[], (name, codec.encode x) :: omitted, [], ?_, ?_, rfl, rfl⟩
              · exact congrArg _ parted
              · rintro field (_ | ⟨_, inside⟩)
                · exact List.mem_cons_self
                · exact mem_defaults_cons (omittable field inside)

/-- What decodes as a record presents it. -/
theorem presents_of_decode {fields : Fields τ} (rigid : fields.Rigid) {source : Source} {json : Json}
    (within : json.Within 65) {xs : τ} (decoded : fields.decode true source json.reading = .ok xs) :
    Presents (fields.encode xs) fields.defaults json := by
  cases json with
  | object members =>
      obtain ⟨slots, taken, finished⟩ := bind_eq_ok.mp decoded
      have read : (fields.given slots).Perm
          (members.filter fun member => member.1 ∈ fields.names) := by
        have read := given_foldlM rigid taken
        rwa [given_noSlots, List.append_nil] at read
      obtain ⟨once, omitted⟩ := given_of_finish finished
      have parted := List.filter_append_perm
        (fun member : String × Json => decide (member.1 ∈ fields.names)) members
      refine .object (parted.symm.trans (read.symm.append_right _)) once omitted ?_ ?_
      · intro member inside
        rw [names_encode]
        simpa using (List.mem_filter.mp inside).2
      · intro member inside
        cases within with
        | object each => exact each member (List.mem_filter.mp inside).1
  | array items =>
      obtain ⟨⟨xs', extra⟩, read, rest⟩ := bind_eq_ok.mp decoded
      obtain ⟨kept, omitted, left, parted, omittable, rfl, rfl⟩ := parted_of_ofItems rigid read
      cases left with
      | nil =>
          cases rest
          rw [List.append_nil]
          exact .array parted omittable
      | cons item left =>
          rw [itemReadings] at rest
          cases source <;> cases rest
  | null | bool | number | string => cases decoded

/-- A value decodes as a record exactly if it presents the record. -/
theorem decode_eq_ok_iff {depth : Nat} {fields : Fields τ} (lawful : fields.Lawful depth)
    (rigid : fields.Rigid) (source : Source) {json : Json} (within : json.Within 65) {xs : τ} :
    fields.decode true source json.reading = .ok xs ↔
      Presents (fields.encode xs) fields.defaults json :=
  ⟨presents_of_decode rigid within, decode_of_presents lawful source⟩

end Fields

end MatchAction.Json
