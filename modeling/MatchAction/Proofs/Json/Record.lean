import MatchAction.Proofs.Json.Lawful

/-!
# Presentations of records

A record can be given as an object with its fields as members, in any order and among other members,
or as an array of its fields' values; a field that has its default may be left out, in an array only
at the end.  The main statement is `Fields.decode_of_presents`: whichever way a record is presented,
it decodes to the same value.
-/

namespace MatchAction.Json

/-- The ways to give a record, by the members of which its own object consists and the members that
the defaults of its fields would be. -/
inductive Presents (encoded defaults : List (String × Json)) : Json → Prop where
  | object {members kept further : List (String × Json)} (arranged : members.Perm (kept ++ further))
      (once : kept.Sublist encoded) (omitted : ∀ field ∈ encoded, field ∈ kept ∨ field ∈ defaults)
      (unknown : ∀ member ∈ further, member.1 ∉ encoded.map Prod.fst)
      (within : ∀ member ∈ further, member.2.Within 64) : Presents encoded defaults (.object members)
  | array {kept omitted : List (String × Json)} (parted : encoded = kept ++ omitted)
      (omittable : ∀ field ∈ omitted, field ∈ defaults) :
      Presents encoded defaults (.array (kept.map Prod.snd))

/-- The members of an object. -/
def members : Json → List (String × Json)
  | object members => members
  | _ => []

theorem Presents.within {encoded defaults : List (String × Json)} {json : Json}
    (presents : Presents encoded defaults json) (each : ∀ field ∈ encoded, field.2.Within 64) :
    json.Within 65 := by
  cases presents with
  | object arranged once _ _ within =>
      refine .object fun member inside => ?_
      rcases List.mem_append.mp (arranged.mem_iff.mp inside) with kept | further
      · exact each member (once.subset kept)
      · exact within member further
  | array parted _ =>
      refine .array fun item inside => ?_
      obtain ⟨field, kept, rfl⟩ := List.mem_map.mp inside
      exact each field (parted ▸ List.mem_append_left _ kept)

namespace Fields

def names : {τ : Type} → Fields τ → List String
  | _, nil => []
  | _, cons name _ _ rest => name :: rest.names

/-- The members that the defaults of the fields would be. -/
def defaults : {τ : Type} → Fields τ → List (String × Json)
  | _, nil => []
  | _, cons _ _ none rest => rest.defaults
  | _, cons name codec (some default) rest => (name, codec.encode default) :: rest.defaults

/-- Fields of lawful codecs, with names that differ from one another. -/
def Lawful (depth : Nat) : {τ : Type} → Fields τ → Prop
  | _, nil => True
  | _, cons name codec _ rest => codec.Lawful depth ∧ name ∉ rest.names ∧ rest.Lawful depth

variable {τ : Type}

theorem names_encode (fields : Fields τ) (xs : τ) :
    (fields.encode xs).map Prod.fst = fields.names := by
  induction fields with
  | nil => rfl
  | cons name codec default? rest ih =>
      obtain ⟨x, xs⟩ := xs
      rw [encode, List.map_cons, ih, names]

theorem name_mem_of_mem_encode {fields : Fields τ} {xs : τ} {field : String × Json}
    (inside : field ∈ fields.encode xs) : field.1 ∈ fields.names :=
  names_encode fields xs ▸ List.mem_map_of_mem inside

theorem name_ne_of_mem_encode {fields : Fields τ} {name : String} (fresh : name ∉ fields.names)
    {xs : τ} {field : String × Json} (inside : field ∈ fields.encode xs) : field.1 ≠ name := by
  rintro rfl
  exact fresh (name_mem_of_mem_encode inside)

theorem name_mem_of_mem_defaults {fields : Fields τ} {field : String × Json}
    (inside : field ∈ fields.defaults) : field.1 ∈ fields.names := by
  induction fields with
  | nil => simp [defaults] at inside
  | cons name codec default? rest ih =>
      cases default? with
      | none => exact List.mem_cons_of_mem _ (ih inside)
      | some default =>
          rcases List.mem_cons.mp inside with rfl | others
          · exact List.mem_cons_self
          · exact List.mem_cons_of_mem _ (ih others)

theorem Lawful.cons {depth : Nat} {α β : Type} {name : String} {codec : Codec α}
    {default? : Option α} {rest : Fields β} (first : codec.Lawful depth) (fresh : name ∉ rest.names)
    (others : rest.Lawful depth) : (Fields.cons name codec default? rest).Lawful depth :=
  ⟨first, fresh, others⟩

theorem Lawful.nodup_names {depth : Nat} {fields : Fields τ} (lawful : fields.Lawful depth) :
    fields.names.Nodup := by
  induction fields with
  | nil => exact List.nodup_nil
  | cons name codec default? rest ih =>
      obtain ⟨-, fresh, others⟩ := lawful
      exact List.nodup_cons.mpr ⟨fresh, ih others⟩

theorem Lawful.within {depth : Nat} {fields : Fields τ} (lawful : fields.Lawful depth) (xs : τ) :
    ∀ field ∈ fields.encode xs, field.2.Within depth := by
  induction fields with
  | nil => simp [encode]
  | cons name codec default? rest ih =>
      obtain ⟨first, -, others⟩ := lawful
      obtain ⟨x, xs⟩ := xs
      rintro field (_ | ⟨_, inside⟩)
      · exact first.within x
      · exact ih others xs field inside

/-- The default that a field has if it may be left out. -/
theorem default_eq {depth : Nat} {α β : Type} {name : String} {codec : Codec α}
    {default? : Option α} {rest : Fields β} (first : codec.Lawful depth)
    (fresh : name ∉ rest.names) {x : α}
    (omitted : (name, codec.encode x) ∈ (cons name codec default? rest).defaults) :
    default? = some x := by
  cases default? with
  | none =>
      have others : (name, codec.encode x) ∈ rest.defaults := omitted
      exact absurd (name_mem_of_mem_defaults others) fresh
  | some default =>
      rcases List.mem_cons.mp omitted with same | others
      · rw [first.encode_inj (Prod.mk.inj same).2]
      · exact absurd (name_mem_of_mem_defaults others) fresh

theorem mem_defaults_of_ne {α β : Type} {name : String} {codec : Codec α} {default? : Option α}
    {rest : Fields β} {field : String × Json} (differ : field.1 ≠ name)
    (omitted : field ∈ (cons name codec default? rest).defaults) : field ∈ rest.defaults := by
  cases default? with
  | none => exact omitted
  | some default =>
      rcases List.mem_cons.mp omitted with rfl | others
      · exact absurd rfl differ
      · exact others

/-! ## Objects -/

/-- The slots when the fields of some names have been read. -/
def slotsOf (seen : List String) : {τ : Type} → (fields : Fields τ) → τ → fields.Slots
  | _, nil, _ => ()
  | _, cons name _ _ rest, (x, xs) => (if name ∈ seen then some x else none, rest.slotsOf seen xs)

theorem first_slotsOf {α β : Type} {name : String} {codec : Codec α} {default? : Option α}
    {rest : Fields β} (seen : List String) (x : α) (xs : β) :
    Slots.first ((cons name codec default? rest).slotsOf seen (x, xs)) =
      if name ∈ seen then some x else none := rfl

theorem others_slotsOf {α β : Type} {name : String} {codec : Codec α} {default? : Option α}
    {rest : Fields β} (seen : List String) (x : α) (xs : β) :
    Slots.others ((cons name codec default? rest).slotsOf seen (x, xs)) = rest.slotsOf seen xs := rfl

theorem slotsOf_nil (fields : Fields τ) (xs : τ) : fields.slotsOf [] xs = fields.noSlots := by
  induction fields with
  | nil => rfl
  | cons name codec default? rest ih =>
      obtain ⟨x, xs⟩ := xs
      rw [slotsOf, ih]
      rfl

theorem slotsOf_cons_of_not_mem {fields : Fields τ} {name : String} (other : name ∉ fields.names)
    (seen : List String) (xs : τ) : fields.slotsOf (name :: seen) xs = fields.slotsOf seen xs := by
  induction fields with
  | nil => rfl
  | cons field codec default? rest ih =>
      obtain ⟨x, xs⟩ := xs
      obtain ⟨differ, others⟩ := not_or.mp (List.mem_cons.not.mp other)
      have sameSeen : field ∈ name :: seen ↔ field ∈ seen := by simp [Ne.symm differ]
      rw [slotsOf, slotsOf, ih others, if_congr sameSeen rfl rfl]

theorem put_of_not_mem {fields : Fields τ} {name : String} (other : name ∉ fields.names)
    (source : Source) (reading : Reading) (slots : fields.Slots) :
    fields.put source name reading slots = none := by
  induction fields with
  | nil => rfl
  | cons field codec default? rest ih =>
      obtain ⟨differ, others⟩ := not_or.mp (List.mem_cons.not.mp other)
      rw [put, if_neg differ, ih others]
      rfl

theorem put_of_mem {depth : Nat} {fields : Fields τ} (lawful : fields.Lawful depth)
    (source : Source) {xs : τ} {field : String × Json} (inside : field ∈ fields.encode xs)
    {seen : List String} (unseen : field.1 ∉ seen) :
    fields.put source field.1 field.2.reading (fields.slotsOf seen xs) =
      some (.ok (fields.slotsOf (field.1 :: seen) xs)) := by
  induction fields with
  | nil => simp [encode] at inside
  | cons name codec default? rest ih =>
      obtain ⟨first, fresh, others⟩ := lawful
      obtain ⟨x, xs⟩ := xs
      rcases List.mem_cons.mp inside with rfl | insideRest
      · rw [put, if_pos rfl, first_slotsOf, if_neg unseen, others_slotsOf, first.decode_encode,
          slotsOf, if_pos List.mem_cons_self, slotsOf_cons_of_not_mem fresh]
        rfl
      · have differ := name_ne_of_mem_encode fresh insideRest
        have sameSeen : name ∈ seen ↔ name ∈ field.1 :: seen := by simp [Ne.symm differ]
        rw [put, if_neg differ, others_slotsOf, ih others insideRest, first_slotsOf,
          if_congr sameSeen rfl rfl]
        rfl

theorem finish_slotsOf {depth : Nat} {fields : Fields τ} (lawful : fields.Lawful depth) {xs : τ}
    {seen : List String}
    (given : ∀ field ∈ fields.encode xs, field.1 ∈ seen ∨ field ∈ fields.defaults) :
    fields.finish (fields.slotsOf seen xs) = .ok xs := by
  induction fields with
  | nil => rfl
  | cons name codec default? rest ih =>
      obtain ⟨first, fresh, others⟩ := lawful
      obtain ⟨x, xs⟩ := xs
      have given' : ∀ field ∈ rest.encode xs, field.1 ∈ seen ∨ field ∈ rest.defaults := by
        intro field inside
        refine (given field (List.mem_cons_of_mem _ inside)).imp_right fun omitted => ?_
        exact mem_defaults_of_ne (name_ne_of_mem_encode fresh inside) omitted
      have slot : (if name ∈ seen then some x else none).or default? = some x := by
        split
        case isTrue => rfl
        case isFalse unseen =>
            exact default_eq first fresh ((given _ List.mem_cons_self).resolve_left unseen)
      rw [finish, first_slotsOf, slot, others_slotsOf, ih others given']
      rfl

/-- A member is a field that has not been read, or unknown and then passed over. -/
theorem takeMember_eq {depth : Nat} {fields : Fields τ} (lawful : fields.Lawful depth)
    (source : Source) {xs : τ} {seen : List String} {member : String × Json}
    (known : member ∈ fields.encode xs ∨ member.1 ∉ fields.names)
    (unseen : member.1 ∈ fields.names → member.1 ∉ seen) :
    fields.takeMember true source (fields.slotsOf seen xs) (member.1, member.2.reading) =
      .ok (fields.slotsOf (member.1 :: seen) xs) := by
  rcases known with inside | other
  · rw [takeMember, put_of_mem lawful source inside (unseen (name_mem_of_mem_encode inside))]
  · rw [takeMember, put_of_not_mem other, slotsOf_cons_of_not_mem other]
    simp [(usable_reading member.2).2]

theorem foldlM_takeMember {depth : Nat} {fields : Fields τ} (lawful : fields.Lawful depth)
    (source : Source) {xs : τ} {members : List (String × Json)} {seen : List String}
    (known : ∀ member ∈ members, member ∈ fields.encode xs ∨ member.1 ∉ fields.names)
    (distinct : members.Pairwise fun a b => a.1 ∈ fields.names → a.1 ≠ b.1)
    (unseen : ∀ member ∈ members, member.1 ∈ fields.names → member.1 ∉ seen) :
    (memberReadings members).foldlM (fields.takeMember true source) (fields.slotsOf seen xs) =
      .ok (fields.slotsOf ((members.map Prod.fst).reverse ++ seen) xs) := by
  -- The invariant is the shape of the slots: an unknown name among those seen does not change it.
  induction members generalizing seen with
  | nil => rfl
  | cons member rest ih =>
      obtain ⟨differ, distinctRest⟩ := List.pairwise_cons.mp distinct
      have taken := takeMember_eq lawful source (known member List.mem_cons_self)
        (unseen member List.mem_cons_self)
      have unseenRest : ∀ other ∈ rest, other.1 ∈ fields.names → other.1 ∉ member.1 :: seen := by
        intro other inside isField
        refine List.not_mem_cons_of_ne_of_not_mem (fun same => ?_)
          (unseen other (List.mem_cons_of_mem _ inside) isField)
        exact differ other inside (same ▸ isField) same.symm
      rw [memberReadings, List.foldlM_cons, taken]
      refine (ih (fun other inside => known other (List.mem_cons_of_mem _ inside)) distinctRest
        unseenRest).trans ?_
      simp

theorem ofMembers_of_presents {depth : Nat} {fields : Fields τ} (lawful : fields.Lawful depth)
    (source : Source) {xs : τ} {members kept further : List (String × Json)}
    (arranged : members.Perm (kept ++ further)) (once : kept.Sublist (fields.encode xs))
    (omitted : ∀ field ∈ fields.encode xs, field ∈ kept ∨ field ∈ fields.defaults)
    (unknown : ∀ member ∈ further, member.1 ∉ fields.names) :
    fields.ofMembers true source (memberReadings members) .closed = .ok xs := by
  have known : ∀ member ∈ members, member ∈ fields.encode xs ∨ member.1 ∉ fields.names := by
    intro member inside
    exact (List.mem_append.mp (arranged.mem_iff.mp inside)).imp (once.subset ·) (unknown member)
  have distinct : members.Pairwise fun a b => a.1 ∈ fields.names → a.1 ≠ b.1 := by
    have symmetric : ∀ {a b : String × Json}, (a.1 ∈ fields.names → a.1 ≠ b.1) →
        b.1 ∈ fields.names → b.1 ≠ a.1 := fun differ isField same =>
      differ (same ▸ isField) same.symm
    refine (arranged.pairwise_iff symmetric).mpr (List.pairwise_append.mpr ⟨?_, ?_, ?_⟩)
    · have nodup : (kept.map Prod.fst).Nodup :=
        lawful.nodup_names.sublist (names_encode fields xs ▸ once.map Prod.fst)
      have apart : kept.Pairwise fun a b => a.1 ≠ b.1 := List.pairwise_map.mp nodup
      refine apart.imp ?_
      intro a b differ _
      exact differ
    · exact List.pairwise_of_forall_mem_list fun a inside _ _ isField =>
        absurd isField (unknown a inside)
    · intro a _ b inside isField same
      exact unknown b inside (same ▸ isField)
  have given : ∀ field ∈ fields.encode xs,
      field.1 ∈ (members.map Prod.fst).reverse ++ [] ∨ field ∈ fields.defaults := by
    intro field inside
    refine (omitted field inside).imp_left fun isKept => ?_
    rw [List.append_nil, List.mem_reverse]
    exact List.mem_map_of_mem (arranged.mem_iff.mpr (List.mem_append_left _ isKept))
  have taken := foldlM_takeMember lawful source known distinct fun _ _ _ => List.not_mem_nil
  rw [slotsOf_nil] at taken
  rw [ofMembers, taken]
  exact finish_slotsOf lawful given

/-! ## Arrays -/

theorem ofItems_of_parted {depth : Nat} {fields : Fields τ} (lawful : fields.Lawful depth)
    (source : Source) (position : Nat) {xs : τ} {kept omitted : List (String × Json)}
    (parted : fields.encode xs = kept ++ omitted)
    (omittable : ∀ field ∈ omitted, field ∈ fields.defaults) :
    fields.ofItems source position (itemReadings (kept.map Prod.snd)) = .ok (xs, []) := by
  induction fields generalizing position kept omitted with
  | nil =>
      obtain ⟨rfl, -⟩ := List.append_eq_nil_iff.mp parted.symm
      rfl
  | cons name codec default? rest ih =>
      obtain ⟨first, fresh, others⟩ := lawful
      obtain ⟨x, xs⟩ := xs
      cases kept with
      | nil =>
          -- The items end here, so this field and all that follow it are left out.
          have parted' : (name, codec.encode x) :: rest.encode xs = omitted := parted
          subst parted'
          obtain rfl := default_eq first fresh (omittable _ List.mem_cons_self)
          have omittableRest : ∀ field ∈ rest.encode xs, field ∈ rest.defaults := fun field inside =>
            mem_defaults_of_ne (name_ne_of_mem_encode fresh inside)
              (omittable field (List.mem_cons_of_mem _ inside))
          have readRest := ih others (position + 1) (List.nil_append _).symm omittableRest
          rw [List.map_nil, itemReadings] at readRest ⊢
          rw [ofItems, readRest]
          rfl
      | cons field kept =>
          obtain ⟨rfl, rest_eq⟩ := List.cons.inj parted
          have partedRest : rest.encode xs = kept ++ omitted := rest_eq
          have omittableRest : ∀ field ∈ omitted, field ∈ rest.defaults := fun field inside =>
            mem_defaults_of_ne
              (name_ne_of_mem_encode fresh (partedRest ▸ List.mem_append_right _ inside))
              (omittable field inside)
          have readRest := ih others (position + 1) partedRest omittableRest
          rw [List.map_cons, itemReadings, ofItems, first.decode_encode]
          simp only [bind, Except.bind, readRest]

/-! ## Records -/

/-- Whichever way a record is presented, it decodes to the same value. -/
theorem decode_of_presents {depth : Nat} {fields : Fields τ} (lawful : fields.Lawful depth)
    (source : Source) {xs : τ} {json : Json}
    (presents : Presents (fields.encode xs) fields.defaults json) :
    fields.decode true source json.reading = .ok xs := by
  cases presents with
  | object arranged once omitted unknown _ =>
      rw [names_encode] at unknown
      exact ofMembers_of_presents lawful source arranged once omitted unknown
  | array parted omittable =>
      rw [reading, decode, ofItems_of_parted lawful source 0 parted omittable]
      rfl

/-- The object that a record is written as. -/
theorem presents_encode (fields : Fields τ) (xs : τ) :
    Presents (fields.encode xs) fields.defaults (.object (fields.encode xs)) :=
  .object (by rw [List.append_nil]) (List.Sublist.refl _) (fun _ inside => .inl inside)
    (List.forall_mem_nil _) (List.forall_mem_nil _)

end Fields

section Record

variable {α τ : Type} {depth : Nat} {fields : Fields τ} {toTuple : α → τ} {ofTuple : τ → α}

theorem Codec.decode_record_of_presents (lawful : fields.Lawful depth)
    (ofTuple_toTuple : ∀ x, ofTuple (toTuple x) = x) (source : Source) {x : α} {json : Json}
    (presents : Presents (fields.encode (toTuple x)) fields.defaults json) :
    (Codec.record fields toTuple ofTuple).decode source json.reading = .ok x := by
  simp only [Codec.record, Fields.decode_of_presents lawful source presents, Except.map,
    ofTuple_toTuple]

/-- A record of lawful fields is lawful. -/
theorem Codec.Lawful.record (lawful : fields.Lawful depth)
    (ofTuple_toTuple : ∀ x, ofTuple (toTuple x) = x) :
    (Codec.record fields toTuple ofTuple).Lawful (depth + 1) where
  decode_encode source x :=
    Codec.decode_record_of_presents lawful ofTuple_toTuple source
      (fields.presents_encode (toTuple x))
  within x := .object (lawful.within (toTuple x))

end Record

end MatchAction.Json
