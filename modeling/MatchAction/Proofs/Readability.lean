import MatchAction.Entry
import MatchAction.Proofs.Endings
import MatchAction.Text.HexDigit
import Std.Data.String.ToInt

/-!
# Reading texts

What an entry, an action or a field match is can be read off its text: each text is put together of numbers
and byte strings with characters between them that end them, and of lists of such texts.
-/

namespace MatchAction

namespace Text

/-! ## Numbers and byte strings -/

/-- The characters that signed numbers are written with. -/
def isNumeral (c : Char) : Bool := c.isDigit || c = '-'

def isHexDigit (c : Char) : Bool := (hexValue c).isSome

theorem isDigit_of_mem_repr (n : Nat) : ∀ c ∈ n.repr.toList, c.isDigit = true := by
  intro c inside
  rw [Nat.repr_eq_ofList_toDigits, String.toList_ofList] at inside
  exact Nat.isDigit_of_mem_toDigits (by decide) (by decide) inside

theorem readable_number : Readable (fun n : UInt32 => n.toNat.repr.toList) Char.isDigit := by
  refine .of_forall ?_ fun n => isDigit_of_mem_repr n.toNat
  intro n n' same
  exact UInt32.toNat_inj.mp (Nat.repr_inj.mp (String.toList_inj.mp same))

theorem head?_number_ne (n : UInt32) {c : Char} (other : c.isDigit = false) (rest : List Char) :
    (n.toNat.repr.toList ++ rest).head? ≠ some c := by
  have digits : n.toNat.repr.toList ≠ [] := by
    rw [Nat.repr_eq_ofList_toDigits, String.toList_ofList]
    exact Nat.toDigits_ne_nil
  rw [List.head?_append_of_ne_nil _ digits]
  intro isHead
  have digit := isDigit_of_mem_repr n.toNat c (List.mem_of_mem_head? isHead)
  exact Bool.eq_false_iff.mp other digit

/-- Texts that begin with numbers make a list that is readable, as no number begins like its end. -/
theorem Readable.listed_of_number {α : Type} {text : α → List Char} {goesOn : Char → Bool} {close : Char}
    (readable : Readable text goesOn) {number : α → UInt32} {remainder : α → List Char}
    (split : ∀ x, text x = (number x).toNat.repr.toList ++ remainder x) (comma : goesOn ',' = false)
    (closing : goesOn close = false) (closes : close ≠ ',') (other : close.isDigit = false) :
    Readable (Text.listed text close) fun _ => false := by
  refine readable.listed comma closing closes fun x rest => ?_
  rw [split, List.append_assoc]
  exact head?_number_ne (number x) other _

theorem isNumeral_of_mem_repr (n : Int) : ∀ c ∈ n.repr.toList, isNumeral c = true := by
  intro c inside
  rw [Int.repr_eq_if] at inside
  split at inside
  case isTrue => exact Bool.or_eq_true_iff.mpr (.inl (isDigit_of_mem_repr _ c inside))
  case isFalse =>
      rw [String.toList_append] at inside
      rcases List.mem_append.mp inside with sign | digit
      · exact List.mem_singleton.mp sign ▸ rfl
      · exact Bool.or_eq_true_iff.mpr (.inl (isDigit_of_mem_repr _ c digit))

theorem readable_signed : Readable (fun n : Int32 => n.toInt.repr.toList) isNumeral := by
  refine .of_forall ?_ fun n => isNumeral_of_mem_repr n.toInt
  intro n n' same
  exact Int32.toInt_inj.mp (Int.repr_inj.mp (String.toList_inj.mp same))

theorem hexValue_digitChar : ∀ n < 16, hexValue (Nat.digitChar n) = some n := by decide

theorem digitChar_inj {m n : Nat} (small : m < 16) (small' : n < 16)
    (same : Nat.digitChar m = Nat.digitChar n) : m = n := by
  have sameValue := congrArg hexValue same
  rw [hexValue_digitChar m small, hexValue_digitChar n small'] at sameValue
  exact Option.some.inj sameValue

end Text

open Text

theorem Bytes.isHexDigit_of_mem_hexDigits (bytes : Bytes) :
    ∀ c ∈ bytes.hexDigits, isHexDigit c = true := by
  intro c inside
  obtain ⟨byte, -, among⟩ := List.mem_flatMap.mp inside
  have bound := byte.toNat_lt
  have digit (n : Nat) (small : n < 16) : isHexDigit (Nat.digitChar n) = true := by
    rw [isHexDigit, hexValue_digitChar n small]
    rfl
  rcases List.mem_pair.mp among with rfl | rfl
  · exact digit _ (by omega)
  · exact digit _ (by omega)

/-- Each byte has two digits of its own. -/
theorem Bytes.hexDigits_injective : Function.Injective hexDigits := by
  intro bytes others same
  induction bytes generalizing others with
  | nil =>
      cases others with
      | nil => rfl
      | cons other others => cases same
  | cons byte bytes ih =>
      cases others with
      | nil => cases same
      | cons other others =>
          obtain ⟨high, sameRest⟩ := List.cons.inj same
          obtain ⟨low, sameRest⟩ := List.cons.inj sameRest
          have bound := byte.toNat_lt
          have bound' := other.toNat_lt
          have sameHigh := digitChar_inj (by omega) (by omega) high
          have sameLow := digitChar_inj (by omega) (by omega) low
          have sameByte : byte = other := UInt8.toNat_inj.mp (by omega)
          rw [sameByte, ih sameRest]

theorem Bytes.toList_text (bytes : Bytes) : bytes.text.toList = "0x".toList ++ bytes.hexDigits := by
  simp only [text, hex, String.toList_append, String.toList_ofList]

theorem Bytes.readable_text : Readable (fun bytes : Bytes => bytes.text.toList) isHexDigit := by
  have digits : Readable hexDigits isHexDigit :=
    .of_forall hexDigits_injective isHexDigit_of_mem_hexDigits
  simp only [toList_text]
  exact digits.lead _

/-! ## Field matches -/

/-- The characters that the text of a pattern could go on with. -/
def isPatternPart (c : Char) : Bool := isHexDigit c || isNumeral c || ['/', '&', '.', '?'].contains c

theorem Text.Ends.no_hexDigit {rest : List Char} (ends : Ends isPatternPart rest) :
    Ends isHexDigit rest :=
  ends.mono fun c digit => by rw [isPatternPart, digit]; rfl

theorem Text.Ends.no_numeral {rest : List Char} (ends : Ends isPatternPart rest) :
    Ends isNumeral rest :=
  ends.mono fun c numeral => by rw [isPatternPart, numeral, Bool.or_true]; rfl

namespace Pattern

/-- The byte string that the text of a pattern begins with. -/
def lead : Pattern → Bytes
  | exact value | lpm value _ | ternary value _ | optional value => value
  | range low _ => low

/-- The text of a pattern after its first byte string. -/
def remainder : Pattern → List Char
  | exact _ => []
  | lpm _ length => '/' :: length.toInt.repr.toList
  | ternary _ mask => "&&&".toList ++ mask.text.toList
  | range _ high => "..".toList ++ high.text.toList
  | optional _ => ['?']

theorem toList_text (pattern : Pattern) :
    pattern.text.toList = pattern.lead.text.toList ++ pattern.remainder := by
  cases pattern <;>
    simp only [text, lead, remainder, String.toList_append, List.append_assoc, List.append_nil,
      toString]
  all_goals rfl

/-- The character that the remainder begins with tells the type of the pattern. -/
def mark : Pattern → Option Char
  | exact _ => none
  | lpm _ _ => some '/'
  | ternary _ _ => some '&'
  | range _ _ => some '.'
  | optional _ => some '?'

theorem filter_head?_remainder (pattern : Pattern) {rest : List Char}
    (ends : Ends isPatternPart rest) :
    (pattern.remainder ++ rest).head?.filter ['/', '&', '.', '?'].contains = pattern.mark := by
  cases pattern with
  | exact value =>
      cases rest with
      | nil => rfl
      | cons c rest =>
          have other := ends c rfl
          simp only [isPatternPart, Bool.or_eq_false_iff] at other
          simp only [remainder, mark, List.nil_append, List.head?_cons, Option.filter, other.2]
          rfl
  | lpm | ternary | range | optional => rfl

theorem ends_remainder (pattern : Pattern) {rest : List Char} (ends : Ends isPatternPart rest) :
    Ends isHexDigit (pattern.remainder ++ rest) := by
  cases pattern with
  | exact value => exact ends.no_hexDigit
  | lpm | ternary | range | optional => exact ends_cons (by decide) _

theorem readable_text : Readable (fun pattern : Pattern => pattern.text.toList) isPatternPart := by
  intro pattern other rest rest' ends ends' same
  simp only [toList_text, List.append_assoc] at same
  obtain ⟨sameLead, sameRest⟩ :=
    Bytes.readable_text (pattern.ends_remainder ends) (other.ends_remainder ends') same
  have sameMark : pattern.mark = other.mark := by
    rw [← pattern.filter_head?_remainder ends, sameRest, other.filter_head?_remainder ends']
  cases pattern with
  | exact value =>
      cases other with
      | exact value' => exact ⟨congrArg exact sameLead, sameRest⟩
      | _ => cases sameMark
  | lpm value length =>
      cases other with
      | lpm value' length' =>
          obtain ⟨sameLength, sameRest⟩ :=
            readable_signed ends.no_numeral ends'.no_numeral (List.cons.inj sameRest).2
          exact ⟨congrArg₂ lpm sameLead sameLength, sameRest⟩
      | _ => cases sameMark
  | ternary value mask =>
      cases other with
      | ternary value' mask' =>
          obtain ⟨sameMask, sameRest⟩ :=
            Bytes.readable_text.lead "&&&".toList ends.no_hexDigit ends'.no_hexDigit sameRest
          exact ⟨congrArg₂ ternary sameLead sameMask, sameRest⟩
      | _ => cases sameMark
  | range low high =>
      cases other with
      | range low' high' =>
          obtain ⟨sameHigh, sameRest⟩ :=
            Bytes.readable_text.lead "..".toList ends.no_hexDigit ends'.no_hexDigit sameRest
          exact ⟨congrArg₂ range sameLead sameHigh, sameRest⟩
      | _ => cases sameMark
  | optional value =>
      cases other with
      | optional value' => exact ⟨congrArg optional sameLead, (List.cons.inj sameRest).2⟩
      | _ => cases sameMark

end Pattern

theorem FieldMatch.toList_text (fieldMatch : FieldMatch) :
    fieldMatch.text.toList =
      fieldMatch.fieldId.toNat.repr.toList ++ '=' :: fieldMatch.pattern.text.toList := by
  simp only [text, String.toList_append, List.append_assoc, toString]
  rfl

theorem FieldMatch.readable_text :
    Readable (fun fieldMatch : FieldMatch => fieldMatch.text.toList) isPatternPart := by
  refine readable_number.pair Pattern.readable_text ?_ (by decide) toList_text
  rintro ⟨id, pattern⟩ ⟨id', pattern'⟩ rfl rfl
  rfl

/-! ## Actions -/

theorem ActionParam.toList_text (param : ActionParam) :
    param.text.toList = param.paramId.toNat.repr.toList ++ '=' :: param.value.text.toList := by
  simp only [text, String.toList_append, List.append_assoc, toString]
  rfl

theorem ActionParam.readable_text :
    Readable (fun param : ActionParam => param.text.toList) isHexDigit := by
  refine readable_number.pair Bytes.readable_text ?_ (by decide) toList_text
  rintro ⟨id, value⟩ ⟨id', value'⟩ rfl rfl
  rfl

namespace Action

theorem toList_text (action : Action) :
    action.text.toList = "action ".toList ++ (action.actionId.toNat.repr.toList ++
      '(' :: listed (fun param => param.text.toList) ')' action.params) := by
  simp only [text, listed, String.toList_append, String.toList_intercalate, List.map_map,
    List.append_assoc, toString]
  rfl

theorem readable_text : Readable (fun action : Action => action.text.toList) fun _ => false := by
  have params : Readable (listed (fun param : ActionParam => param.text.toList) ')') fun _ => false :=
    ActionParam.readable_text.listed_of_number ActionParam.toList_text (by decide) (by decide)
      (by decide) (by decide)
  have parts : Readable (fun action : Action => action.actionId.toNat.repr.toList ++
      '(' :: listed (fun param => param.text.toList) ')' action.params) fun _ => false := by
    refine readable_number.pair params ?_ (by decide) fun _ => rfl
    rintro ⟨id, params⟩ ⟨id', params'⟩ rfl rfl
    rfl
  simp only [toList_text]
  exact parts.lead _

end Action

namespace TableAction

/-- The letter that the text of an action begins with tells its kind. -/
def initial : TableAction → Char
  | action _ => 'a'
  | profileMember _ => 'm'
  | profileGroup _ => 'g'

theorem head?_text (action : TableAction) : action.text.toList.head? = some action.initial := by
  cases action with
  | action own =>
      rw [text, Action.toList_text]
      rfl
  | profileMember id | profileGroup id =>
      simp only [text, String.toList_append, toString]
      rfl

theorem text_injective : Function.Injective text := by
  intro invoked other same
  have sameText := congrArg String.toList same
  have sameInitial : invoked.initial = other.initial := by
    rw [← Option.some_inj, ← head?_text, sameText, head?_text]
  cases invoked with
  | action own =>
      cases other with
      | action own' => exact congrArg action (Action.readable_text.injective sameText)
      | _ => cases sameInitial
  | profileMember id =>
      cases other with
      | profileMember id' =>
          simp only [text, String.toList_append, toString] at sameText
          exact congrArg profileMember ((readable_number.lead _).injective sameText)
      | _ => cases sameInitial
  | profileGroup id =>
      cases other with
      | profileGroup id' =>
          simp only [text, String.toList_append, toString] at sameText
          exact congrArg profileGroup ((readable_number.lead _).injective sameText)
      | _ => cases sameInitial

end TableAction

/-! ## Entries -/

namespace TableEntry

/-- How a text shows a priority, of which zero is not shown. -/
def priorityPart (priority : Int32) : List Char :=
  if priority = 0 then [] else " priority ".toList ++ priority.toInt.repr.toList

/-- How a text ends, by the action if there is one. -/
def actionPart : Option TableAction → List Char
  | none => []
  | some action => " -> ".toList ++ action.text.toList

theorem actionPart_injective : Function.Injective actionPart := by
  intro action other same
  cases action with
  | none =>
      cases other with
      | none => rfl
      | some own' => cases same
  | some own =>
      cases other with
      | none => cases same
      | some own' =>
          have sameText := String.toList_inj.mp (List.append_cancel_left same)
          exact congrArg some (TableAction.text_injective sameText)

theorem priorityPart_append_inj {priority priority' : Int32} {action action' : Option TableAction}
    (same : priorityPart priority ++ actionPart action =
      priorityPart priority' ++ actionPart action') : priority = priority' ∧ action = action' := by
  have ends (action : Option TableAction) : Ends isNumeral (actionPart action) := by
    cases action with
    | none => exact ends_nil _
    | some own => exact ends_cons (by decide) _
  unfold priorityPart at same
  split at same
  case isTrue zero =>
      split at same
      case isTrue zero' => exact ⟨zero.trans zero'.symm, actionPart_injective same⟩
      case isFalse => cases action <;> cases same
  case isFalse =>
      split at same
      case isTrue => cases action' <;> cases same
      case isFalse =>
          obtain ⟨samePriority, sameRest⟩ :=
            readable_signed.lead " priority ".toList (ends action) (ends action') same
          exact ⟨samePriority, actionPart_injective sameRest⟩

/-- How a text goes on after the table's number. -/
def placePart (entry : TableEntry) : List Char :=
  if entry.isDefaultAction then " default".toList ++ actionPart entry.action
  else " [".toList ++ (listed (fun m => m.text.toList) ']' entry.fieldMatches ++
    (priorityPart entry.priority ++ actionPart entry.action))

theorem toList_text (entry : TableEntry) :
    entry.text.toList =
      "table ".toList ++ (entry.tableId.toNat.repr.toList ++ entry.placePart) := by
  have action : (entry.action.elim "" fun action => " -> " ++ action.text).toList =
      actionPart entry.action := by
    cases entry.action with
    | none => rfl
    | some own => exact String.toList_append
  have priority : (if entry.priority = 0 then "" else
      " priority " ++ entry.priority.toInt.repr).toList = priorityPart entry.priority := by
    unfold priorityPart
    split
    case isTrue => rfl
    case isFalse => exact String.toList_append
  simp only [text, toString, placePart, String.toList_append, action, List.append_assoc]
  split
  case isTrue => rfl
  case isFalse =>
    simp only [listed, String.toList_append, String.toList_intercalate, List.map_map, priority,
      List.append_assoc]
    rfl

/-- Entries that differ at most in what a text does not show: the controller's metadata and the counter
and meter data, and of a default action also the field matches and the priority. -/
structure ShownAlike (entry other : TableEntry) : Prop where
  tableId : entry.tableId = other.tableId
  isDefaultAction : entry.isDefaultAction = other.isDefaultAction
  action : entry.action = other.action
  ordinary : entry.isDefaultAction = false →
    entry.priority = other.priority ∧ entry.fieldMatches = other.fieldMatches

theorem readable_fieldMatches :
    Readable (listed (fun m : FieldMatch => m.text.toList) ']') fun _ => false :=
  FieldMatch.readable_text.listed_of_number FieldMatch.toList_text (by decide) (by decide) (by decide)
    (by decide)

theorem ends_placePart (entry : TableEntry) : Ends Char.isDigit entry.placePart := by
  unfold placePart
  split
  case isTrue => exact ends_cons (by decide) _
  case isFalse => exact ends_cons (by decide) _

theorem shownAlike_of_text_eq {entry other : TableEntry} (same : entry.text = other.text) :
    entry.ShownAlike other := by
  have sameText := congrArg String.toList same
  rw [toList_text, toList_text] at sameText
  obtain ⟨sameTable, samePlace⟩ := readable_number entry.ends_placePart other.ends_placePart
    (List.append_cancel_left sameText)
  unfold placePart at samePlace
  cases isDefault : entry.isDefaultAction with
  | true =>
      cases isDefault' : other.isDefaultAction with
      | true =>
          rw [if_pos isDefault, if_pos isDefault'] at samePlace
          exact ⟨sameTable, isDefault.trans isDefault'.symm,
            actionPart_injective (List.append_cancel_left samePlace),
            fun ordinary => Bool.noConfusion (isDefault.symm.trans ordinary)⟩
      | false =>
          rw [if_pos isDefault, if_neg (Bool.eq_false_iff.mp isDefault')] at samePlace
          cases samePlace
  | false =>
      cases isDefault' : other.isDefaultAction with
      | true =>
          rw [if_neg (Bool.eq_false_iff.mp isDefault), if_pos isDefault'] at samePlace
          cases samePlace
      | false =>
          rw [if_neg (Bool.eq_false_iff.mp isDefault), if_neg (Bool.eq_false_iff.mp isDefault')]
            at samePlace
          obtain ⟨sameMatches, sameEnd⟩ := readable_fieldMatches (fun _ _ => rfl) (fun _ _ => rfl)
            (List.append_cancel_left samePlace)
          obtain ⟨samePriority, sameAction⟩ := priorityPart_append_inj sameEnd
          exact ⟨sameTable, isDefault.trans isDefault'.symm, sameAction,
            fun _ => ⟨samePriority, sameMatches⟩⟩

theorem text_eq_of_shownAlike {entry other : TableEntry} (alike : entry.ShownAlike other) :
    entry.text = other.text := by
  have samePlace : entry.placePart = other.placePart := by
    unfold placePart
    rw [alike.isDefaultAction, alike.action]
    split
    case isTrue => rfl
    case isFalse ordinary =>
        have notDefault := alike.isDefaultAction.trans (Bool.eq_false_iff.mpr ordinary)
        obtain ⟨samePriority, sameMatches⟩ := alike.ordinary notDefault
        rw [samePriority, sameMatches]
  rw [← String.toList_inj, toList_text, toList_text, alike.tableId, samePlace]

end TableEntry

/-- The text of an entry tells all of the entry that it shows, and the texts of field matches and actions
tell them whole. -/
theorem texts_tell_what_they_show :
    (∀ entry other : TableEntry, entry.text = other.text ↔ entry.ShownAlike other) ∧
    Function.Injective FieldMatch.text ∧ Function.Injective Action.text ∧
    Function.Injective TableAction.text := by
  refine ⟨fun entry other => ?_, ?_, ?_, TableAction.text_injective⟩
  · exact ⟨TableEntry.shownAlike_of_text_eq, TableEntry.text_eq_of_shownAlike⟩
  · exact fun m m' same => FieldMatch.readable_text.injective (congrArg String.toList same)
  · exact fun a a' same => Action.readable_text.injective (congrArg String.toList same)

/-- An entry with metadata, which its text does not show. -/
example : { TableEntry.make 7 [⟨1, .lpm [10] 8⟩, ⟨2, .range [] [255]⟩] (some (.profileGroup 3)) with
    priority := -5, metadata := [1] }.text =
      "table 7 [1=0x0a/8, 2=0x..0xff] priority -5 -> group 3" := by
  decide +kernel

end MatchAction
