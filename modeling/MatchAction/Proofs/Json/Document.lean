import MatchAction.Proofs.Json.Lexeme
import MatchAction.Json.Reading

/-!
# Texts of values

The tokens of a value and what they say.  A value whose integers have 64 bits and whose containers
do not lie too deep is read back from its text, and from every text that spreads its tokens with
blanks.  The main statement is `Document.ofText_of_layout`.
-/

namespace MatchAction.Json

mutual
/-- The tokens of a value. -/
def tokens : Json → List Token
  | null => [.null]
  | bool value => [.bool value]
  | number value => [.number (.integer value)]
  | string value => [.string (some value)]
  | array items => .openBracket :: (itemTokens true items ++ [.closeBracket])
  | object members => .openBrace :: (memberTokens true members ++ [.closeBrace])

/-- The tokens of items, with a comma before each that is not the first. -/
def itemTokens (first : Bool) : List Json → List Token
  | [] => []
  | item :: rest => (if first then [] else [.comma]) ++ (item.tokens ++ itemTokens false rest)

/-- The tokens of members, with a comma before each that is not the first. -/
def memberTokens (first : Bool) : List (String × Json) → List Token
  | [] => []
  | (name, value) :: rest =>
      (if first then [] else [.comma]) ++
        .string (some name) :: .colon :: (value.tokens ++ memberTokens false rest)
end

mutual
/-- What the text of a value says. -/
def reading : Json → Reading
  | null => .null
  | bool value => .bool value
  | number value => .integer value
  | string value => .string value
  | array items => .array (itemReadings items)
  | object members => .object (memberReadings members) .closed

def itemReadings : List Json → List Reading
  | [] => []
  | item :: rest => item.reading :: itemReadings rest

def memberReadings : List (String × Json) → List (String × Reading)
  | [] => []
  | (name, value) :: rest => (name, value.reading) :: memberReadings rest
end

mutual
/-- Nothing in the text of a value is malformed or unusable. -/
theorem usable_reading (json : Json) :
    json.reading.usable = true ∧ json.reading.wellFormed = true := by
  match json with
  | null | bool _ | number _ | string _ => exact ⟨rfl, rfl⟩
  | array items => exact usable_itemReadings items
  | object members => exact usable_memberReadings members

theorem usable_itemReadings (items : List Json) :
    Reading.allUsable (itemReadings items) = true ∧
      Reading.allWellFormed (itemReadings items) = true := by
  match items with
  | [] => exact ⟨rfl, rfl⟩
  | item :: rest =>
      obtain ⟨usable, wellFormed⟩ := usable_reading item
      obtain ⟨usableRest, wellFormedRest⟩ := usable_itemReadings rest
      simp [itemReadings, Reading.allUsable, Reading.allWellFormed, usable, wellFormed, usableRest,
        wellFormedRest]

theorem usable_memberReadings (members : List (String × Json)) :
    Reading.membersUsable (memberReadings members) = true ∧
      Reading.membersWellFormed (memberReadings members) = true := by
  match members with
  | [] => exact ⟨rfl, rfl⟩
  | (name, value) :: rest =>
      obtain ⟨usable, wellFormed⟩ := usable_reading value
      obtain ⟨usableRest, wellFormedRest⟩ := usable_memberReadings rest
      simp [memberReadings, Reading.membersUsable, Reading.membersWellFormed, usable, wellFormed,
        usableRest, wellFormedRest]
end

/-- A value whose integers have 64 bits, signed or unsigned, and in which no more than so many
containers lie within one another. -/
inductive Within : Nat → Json → Prop where
  | null {depth : Nat} : Within depth null
  | bool {depth : Nat} (value : Bool) : Within depth (bool value)
  | number {depth : Nat} {value : Int} (fits : Number.Fits value) : Within depth (number value)
  | string {depth : Nat} (value : String) : Within depth (string value)
  | array {depth : Nat} {items : List Json} (inside : ∀ item ∈ items, Within depth item) :
      Within (depth + 1) (array items)
  | object {depth : Nat} {members : List (String × Json)}
      (inside : ∀ member ∈ members, Within depth member.2) : Within (depth + 1) (object members)

theorem Within.mono {depth deeper : Nat} {json : Json} (within : json.Within depth)
    (le : depth ≤ deeper) : json.Within deeper := by
  induction within generalizing deeper with
  | null => exact .null
  | bool value => exact .bool value
  | number fits => exact .number fits
  | string value => exact .string value
  | array inside ih =>
      obtain ⟨depth, rfl⟩ := Nat.exists_eq_add_of_lt le
      exact .array fun item among => ih item among (Nat.le_add_right _ _)
  | object inside ih =>
      obtain ⟨depth, rfl⟩ := Nat.exists_eq_add_of_lt le
      exact .object fun member among => ih member among (Nat.le_add_right _ _)

theorem Within.single {depth : Nat} {value : Json} (within : value.Within depth) (name : String) :
    (Json.object [(name, value)]).Within (depth + 1) := by
  refine .object fun member inside => ?_
  rwa [List.mem_singleton.mp inside]

/-! ## The compact text -/

mutual
theorem toList_write (out : String) (json : Json) :
    (write out json).toList = out.toList ++ json.tokens.flatMap Token.text := by
  match json with
  | null | bool true | bool false => simp [write, tokens, Token.text]
  | number value => simp [write, tokens, Token.text]
  | string value => simp [write, tokens, Token.text, Quoted.toList_write]
  | array items => simp [write, tokens, Token.text, toList_writeItems]
  | object members => simp [write, tokens, Token.text, toList_writeMembers]

theorem toList_writeItems (out : String) (first : Bool) (items : List Json) :
    (writeItems out first items).toList =
      out.toList ++ (itemTokens first items).flatMap Token.text := by
  match items with
  | [] => simp [writeItems, itemTokens]
  | item :: rest =>
      rw [writeItems, toList_writeItems, toList_write, itemTokens]
      cases first <;> simp [Token.text]

theorem toList_writeMembers (out : String) (first : Bool) (members : List (String × Json)) :
    (writeMembers out first members).toList =
      out.toList ++ (memberTokens first members).flatMap Token.text := by
  match members with
  | [] => simp [writeMembers, memberTokens]
  | (name, value) :: rest =>
      rw [writeMembers, toList_writeMembers, toList_write, memberTokens]
      cases first <;> simp [Token.text, Quoted.toList_write]
end

theorem toList_text (json : Json) : json.text.toList = json.tokens.flatMap Token.text := by
  simp [text, toList_write]

section Layout

open Token

/-- Tokens that, without blanks, can be put in front of every text that is laid out and that no
number goes on with. -/
def LaysOut (tokens : List Token) : Prop :=
  ∀ (others : List Token) (rest : List Char), Layout others rest → Number.EndsBefore rest →
    Layout (tokens ++ others) (tokens.flatMap Token.text ++ rest)

/-- Tokens of which the text is nothing that a number goes on with. -/
def Separate (tokens : List Token) : Prop :=
  ∀ rest : List Char, Number.EndsBefore rest →
    Number.EndsBefore (tokens.flatMap Token.text ++ rest)

theorem endsBefore_cons {c : Char} (rest : List Char)
    (other : c.isDigit = false ∧ c ≠ '.' ∧ c ≠ 'e' ∧ c ≠ 'E') : Number.EndsBefore (c :: rest) := by
  intro head isHead
  exact Option.some.inj isHead ▸ other

theorem LaysOut.nil : LaysOut [] := fun _ _ layout _ => layout

theorem LaysOut.cons {token : Token} {tokens : List Token} (written : token.Written)
    (alone : ∀ rest, token.EndsBefore rest) (tail : LaysOut tokens) :
    LaysOut (token :: tokens) := by
  intro others rest layout ends
  rw [List.flatMap_cons, List.append_assoc]
  exact .cons [] (List.forall_mem_nil _) (.written written) (alone _) (tail _ _ layout ends)

theorem LaysOut.number {value : Int} (fits : Number.Fits value) :
    LaysOut [.number (.integer value)] := by
  intro others rest layout ends
  rw [List.flatMap_singleton]
  exact .cons [] (List.forall_mem_nil _) (.written fits) ends layout

theorem LaysOut.append {first second : List Token} (front : LaysOut first) (back : LaysOut second)
    (separate : Separate second) : LaysOut (first ++ second) := by
  intro others rest layout ends
  rw [List.flatMap_append, List.append_assoc, List.append_assoc]
  exact front _ _ (back _ _ layout ends) (separate _ ends)

theorem separate_itemTokens (items : List Json) : Separate (itemTokens false items) := by
  intro rest ends
  cases items with
  | nil => exact ends
  | cons item items => exact endsBefore_cons _ (by decide)

theorem separate_memberTokens (members : List (String × Json)) :
    Separate (memberTokens false members) := by
  intro rest ends
  cases members with
  | nil => exact ends
  | cons member members => exact endsBefore_cons _ (by decide)

theorem LaysOut.items {items : List Json} (each : ∀ item ∈ items, LaysOut item.tokens)
    (first : Bool) : LaysOut (itemTokens first items) := by
  induction items generalizing first with
  | nil => exact .nil
  | cons item rest ih =>
      have others := ih (fun other inside => each other (List.mem_cons_of_mem _ inside)) false
      have this : LaysOut (item.tokens ++ itemTokens false rest) :=
        (each item List.mem_cons_self).append others (separate_itemTokens rest)
      cases first with
      | true => exact this
      | false => exact .cons trivial (fun _ => trivial) this

theorem LaysOut.members {members : List (String × Json)}
    (each : ∀ member ∈ members, LaysOut member.2.tokens) (first : Bool) :
    LaysOut (memberTokens first members) := by
  induction members generalizing first with
  | nil => exact .nil
  | cons member rest ih =>
      have others := ih (fun other inside => each other (List.mem_cons_of_mem _ inside)) false
      have value : LaysOut (member.2.tokens ++ memberTokens false rest) :=
        (each member List.mem_cons_self).append others (separate_memberTokens rest)
      have this : LaysOut (.string (some member.1) :: .colon ::
          (member.2.tokens ++ memberTokens false rest)) :=
        .cons trivial (fun _ => trivial) (.cons trivial (fun _ => trivial) value)
      cases first with
      | true => exact this
      | false => exact .cons trivial (fun _ => trivial) this

theorem Within.laysOut {depth : Nat} {json : Json} (within : json.Within depth) :
    LaysOut json.tokens := by
  have separateLast (token : Token) (closes : token = .closeBracket ∨ token = .closeBrace) :
      Separate [token] := by
    intro rest _
    rcases closes with rfl | rfl <;> exact endsBefore_cons _ (by decide)
  induction within with
  | null | bool | string => exact .cons trivial (fun _ => trivial) .nil
  | number fits => exact .number fits
  | array _ ih =>
      have close : LaysOut [.closeBracket] := .cons trivial (fun _ => trivial) .nil
      exact .cons trivial (fun _ => trivial)
        ((LaysOut.items ih true).append close (separateLast _ (.inl rfl)))
  | object _ ih =>
      have close : LaysOut [.closeBrace] := .cons trivial (fun _ => trivial) .nil
      exact .cons trivial (fun _ => trivial)
        ((LaysOut.members ih true).append close (separateLast _ (.inr rfl)))

/-- The compact text of a value is laid out as its tokens. -/
theorem Within.layout_text {depth : Nat} {json : Json} (within : json.Within depth) :
    Layout json.tokens json.text.toList := by
  have empty : Layout [] [] := .nil (List.forall_mem_nil _)
  have whole := within.laysOut _ _ empty (fun _ head => by simp at head)
  rwa [List.append_nil, List.append_nil, ← toList_text] at whole

end Layout

/-! ## Reading back -/

namespace Reading

theorem nest_of_le {stack : List Frame} (shallow : stack.length ≤ 126) (container tooDeep : Reading) :
    nest stack container tooDeep = container := by
  have none : (stack.drop (maxDepth - 1)).isEmpty = true := by
    rw [List.isEmpty_iff, List.drop_eq_nil_iff]
    exact shallow
  rw [nest, if_pos none]

theorem step_closeBracket {stack : List Frame} (shallow : stack.length ≤ 126) (done : List Reading) :
    step (.afterItem done stack) .closeBracket = give (.array done.reverse) stack := by
  rw [step, closeArray, nest_of_le shallow]

theorem step_closeBrace {stack : List Frame} (shallow : stack.length ≤ 126)
    (done : List (String × Reading)) :
    step (.afterMember ⟨done, false⟩ stack) .closeBrace =
      give (.object done.reverse .closed) stack := by
  rw [step, closeObject, nest_of_le shallow, Members.close]
  rfl

/-- The tokens of a value are taken as the next value inside the containers of a stack. -/
def Takes (stack : List Frame) (json : Json) : Prop :=
  json.tokens.foldl step (.nextValue stack) = give json.reading stack

theorem foldl_items {stack : List Frame} {items : List Json}
    (each : ∀ item ∈ items, ∀ done, Takes (.item done :: stack) item) (done : List Reading) :
    (itemTokens false items).foldl step (.afterItem done stack) =
      .afterItem ((itemReadings items).reverse ++ done) stack := by
  induction items generalizing done with
  | nil => rfl
  | cons item rest ih =>
      have taken : item.tokens.foldl step (.nextValue (.item done :: stack)) =
          .afterItem (item.reading :: done) stack := each item List.mem_cons_self done
      have others := ih (fun other inside => each other (List.mem_cons_of_mem _ inside))
        (item.reading :: done)
      simp [itemTokens, step, taken, others, itemReadings]

theorem foldl_members {stack : List Frame} {members : List (String × Json)}
    (each : ∀ member ∈ members, ∀ before name, Takes (.member before name :: stack) member.2)
    (done : List (String × Reading)) :
    (memberTokens false members).foldl step (.afterMember ⟨done, false⟩ stack) =
      .afterMember ⟨(memberReadings members).reverse ++ done, false⟩ stack := by
  induction members generalizing done with
  | nil => rfl
  | cons member rest ih =>
      have taken : member.2.tokens.foldl step
          (.nextValue (.member ⟨done, false⟩ (some member.1) :: stack)) =
            .afterMember ⟨(member.1, member.2.reading) :: done, false⟩ stack :=
        each member List.mem_cons_self _ _
      have others := ih (fun other inside => each other (List.mem_cons_of_mem _ inside))
        ((member.1, member.2.reading) :: done)
      simp [memberTokens, step, taken, others, memberReadings]

/-- The first token of a value does not close an array. -/
theorem foldl_firstItem (stack : List Frame) (json : Json) (others : List Token) :
    (json.tokens ++ others).foldl step (.firstItem stack) =
      (json.tokens ++ others).foldl step (.nextValue (.item [] :: stack)) := by
  cases json <;> rfl

theorem takes_array {stack : List Frame} (shallow : stack.length ≤ 126) {items : List Json}
    (each : ∀ item ∈ items, ∀ done, Takes (.item done :: stack) item) :
    Takes stack (.array items) := by
  have opened : step (.nextValue stack) .openBracket = .firstItem stack := rfl
  rw [Takes, tokens, List.foldl_cons, opened]
  cases items with
  | nil => exact step_closeBracket shallow []
  | cons item rest =>
      have taken : item.tokens.foldl step (.nextValue (.item [] :: stack)) =
          .afterItem [item.reading] stack := each item List.mem_cons_self []
      have others := foldl_items
        (fun other inside => each other (List.mem_cons_of_mem item inside)) [item.reading]
      rw [itemTokens, if_pos rfl, List.nil_append, List.append_assoc, foldl_firstItem,
        List.foldl_append, taken, List.foldl_append, others, List.foldl_cons,
        step_closeBracket shallow]
      simp [reading, itemReadings]

theorem takes_object {stack : List Frame} (shallow : stack.length ≤ 126)
    {members : List (String × Json)}
    (each : ∀ member ∈ members, ∀ before name, Takes (.member before name :: stack) member.2) :
    Takes stack (.object members) := by
  have opened : step (.nextValue stack) .openBrace = .firstName stack := rfl
  rw [Takes, tokens, List.foldl_cons, opened]
  cases members with
  | nil => exact step_closeBrace shallow []
  | cons member rest =>
      have named (others : List Token) :
          (.string (some member.1) :: .colon :: others : List Token).foldl step (.firstName stack) =
            others.foldl step (.nextValue (.member .none (some member.1) :: stack)) := rfl
      have taken : member.2.tokens.foldl step
          (.nextValue (.member .none (some member.1) :: stack)) =
            .afterMember ⟨[(member.1, member.2.reading)], false⟩ stack :=
        each member List.mem_cons_self _ _
      have others := foldl_members
        (fun other inside => each other (List.mem_cons_of_mem member inside))
        [(member.1, member.2.reading)]
      rw [memberTokens, if_pos rfl, List.nil_append, List.cons_append, List.cons_append, named,
        List.append_assoc, List.foldl_append, taken, List.foldl_append, others, List.foldl_cons,
        step_closeBrace shallow]
      simp [reading, memberReadings]

theorem takes_of_within {depth : Nat} {json : Json} (within : json.Within depth)
    {stack : List Frame} (shallow : stack.length + depth ≤ 127) : Takes stack json := by
  -- A container puts one frame on the stack, and what is inside it has one level less to go.
  induction within generalizing stack with
  | null | bool | number | string => rfl
  | array _ ih =>
      refine takes_array (by omega) fun item inside done => ih item inside ?_
      rw [List.length_cons]
      omega
  | object _ ih =>
      refine takes_object (by omega) fun member inside before name => ih member inside ?_
      rw [List.length_cons]
      omega

end Reading

/-- A text that is laid out as the tokens of a value says this value and nothing else. -/
theorem Document.ofText_of_layout {depth : Nat} {json : Json} (within : json.Within depth)
    (shallow : depth ≤ 127) {text : String} (layout : Token.Layout json.tokens text.toList) :
    Document.ofText text = ⟨json.reading, false⟩ := by
  have taken : json.tokens.foldl Reading.step (.nextValue []) = .complete json.reading false :=
    Reading.takes_of_within within (by simpa using shallow)
  rw [ofText, Token.scan_of_layout layout, ofTokens, taken]

end MatchAction.Json
