import Mathlib.Data.List.Basic

/-!
# Where texts end

A number or a byte string is written without any sign of where it ends, but it is followed by a character
with which it could not have gone on.  What has been written is `Readable` with any such rest behind it,
and texts that are put together of readable parts are readable.
-/

namespace MatchAction

namespace Text

/-! ## The rest of a text -/

/-- The rest is over, or begins with none of the characters that a text could go on with. -/
def Ends (goesOn : Char → Bool) (rest : List Char) : Prop := ∀ c ∈ rest.head?, goesOn c = false

theorem ends_nil (goesOn : Char → Bool) : Ends goesOn [] := by
  intro c inside
  cases inside

theorem ends_cons {goesOn : Char → Bool} {c : Char} (other : goesOn c = false) (rest : List Char) :
    Ends goesOn (c :: rest) := by
  intro head inside
  cases inside
  exact other

theorem Ends.mono {goesOn goesOn' : Char → Bool} {rest : List Char} (ends : Ends goesOn' rest)
    (fewer : ∀ c, goesOn c = true → goesOn' c = true) : Ends goesOn rest :=
  fun c inside => Bool.eq_false_iff.mpr fun on => Bool.eq_false_iff.mp (ends c inside) (fewer c on)

theorem Ends.takeWhile_eq_nil {goesOn : Char → Bool} {rest : List Char} (ends : Ends goesOn rest) :
    rest.takeWhile goesOn = [] := by
  cases rest with
  | nil => rfl
  | cons c rest => rw [List.takeWhile_cons_of_neg (Bool.eq_false_iff.mp (ends c rfl))]

theorem Ends.dropWhile_eq_self {goesOn : Char → Bool} {rest : List Char} (ends : Ends goesOn rest) :
    rest.dropWhile goesOn = rest := by
  cases rest with
  | nil => rfl
  | cons c rest => rw [List.dropWhile_cons_of_neg (Bool.eq_false_iff.mp (ends c rfl))]

/-- A text of one kind of characters is all that there is of them in front of such a rest. -/
theorem takeWhile_append_of_ends {goesOn : Char → Bool} {text rest : List Char}
    (all : ∀ c ∈ text, goesOn c = true) (ends : Ends goesOn rest) :
    (text ++ rest).takeWhile goesOn = text := by
  rw [List.takeWhile_append_of_pos all, ends.takeWhile_eq_nil, List.append_nil]

theorem dropWhile_append_of_ends {goesOn : Char → Bool} {text rest : List Char}
    (all : ∀ c ∈ text, goesOn c = true) (ends : Ends goesOn rest) :
    (text ++ rest).dropWhile goesOn = rest := by
  rw [List.dropWhile_append_of_pos all, ends.dropWhile_eq_self]

/-! ## Readable texts -/

/-- Whatever is shown can be told from its text, and so can the rest that follows, if the text could
not go on with it. -/
def Readable {α : Type} (text : α → List Char) (goesOn : Char → Bool) : Prop :=
  ∀ ⦃x y : α⦄ ⦃rest rest' : List Char⦄, Ends goesOn rest → Ends goesOn rest' →
    text x ++ rest = text y ++ rest' → x = y ∧ rest = rest'

namespace Readable

variable {α β : Type} {text : α → List Char} {text' : β → List Char} {goesOn goesOn' : Char → Bool}

theorem injective (readable : Readable text goesOn) : Function.Injective text := by
  intro x y same
  exact (readable (ends_nil goesOn) (ends_nil goesOn) (by rw [same])).1

/-- Characters of one kind end where one of another kind follows. -/
theorem of_forall (injective : Function.Injective text)
    (all : ∀ x, ∀ c ∈ text x, goesOn c = true) : Readable text goesOn := by
  intro x y rest rest' ends ends' same
  have sameText : text x = text y := by
    rw [← takeWhile_append_of_ends (all x) ends, same, takeWhile_append_of_ends (all y) ends']
  rw [sameText] at same
  exact ⟨injective sameText, List.append_cancel_left same⟩

theorem lead (readable : Readable text goesOn) (mark : List Char) :
    Readable (fun x => mark ++ text x) goesOn := by
  intro x y rest rest' ends ends' same
  simp only [List.append_assoc] at same
  exact readable ends ends' (List.append_cancel_left same)

/-- Two parts with a character between them that ends the first. -/
theorem pair {γ : Type} {whole : γ → List Char} (first : Readable text goesOn)
    (second : Readable text' goesOn') {part : γ → α} {part' : γ → β} {c : Char}
    (known : ∀ x y, part x = part y → part' x = part' y → x = y) (ended : goesOn c = false)
    (split : ∀ x, whole x = text (part x) ++ c :: text' (part' x)) : Readable whole goesOn' := by
  intro x y rest rest' ends ends' same
  simp only [split, List.append_assoc, List.cons_append] at same
  obtain ⟨samePart, sameRest⟩ := first (ends_cons ended _) (ends_cons ended _) same
  obtain ⟨samePart', sameRest⟩ := second ends ends' (List.cons.inj sameRest).2
  exact ⟨known x y samePart samePart', sameRest⟩

end Readable

/-! ## Lists -/

section Listed

variable {α : Type}

/-- The texts of a list with commas between them, up to a closing character. -/
def listed (text : α → List Char) (close : Char) (list : List α) : List Char :=
  [',', ' '].intercalate (list.map text) ++ [close]

/-- What is written after the first text: a comma in front of each further one, and then the closing
character. -/
def further (text : α → List Char) (close : Char) : List α → List Char
  | [] => [close]
  | x :: list => ',' :: ' ' :: (text x ++ further text close list)

theorem listed_cons (text : α → List Char) (close : Char) (x : α) (list : List α) :
    listed text close (x :: list) = text x ++ further text close list := by
  induction list generalizing x with
  | nil => simp [listed, further]
  | cons y list ih =>
      have later := ih y
      simp only [listed, further, List.map_cons, List.intercalate_cons_cons, List.append_assoc,
        List.cons_append, List.nil_append] at later ⊢
      rw [later]

variable {text : α → List Char} {goesOn : Char → Bool} {close : Char}

theorem ends_further (comma : goesOn ',' = false) (closing : goesOn close = false) (list : List α)
    (rest : List Char) : Ends goesOn (further text close list ++ rest) := by
  cases list with
  | nil => exact ends_cons closing _
  | cons x list => exact ends_cons comma _

theorem Readable.further (readable : Readable text goesOn) (comma : goesOn ',' = false)
    (closing : goesOn close = false) (closes : close ≠ ',') :
    Readable (further text close) fun _ => false := by
  intro list list' rest rest' ends ends' same
  induction list generalizing list' with
  | nil =>
      cases list' with
      | nil => exact ⟨rfl, (List.cons.inj same).2⟩
      | cons y list' => exact absurd (List.cons.inj same).1 closes
  | cons x list ih =>
      cases list' with
      | nil => exact absurd (List.cons.inj same).1.symm closes
      | cons y list' =>
          simp only [Text.further, List.cons_append, List.append_assoc, List.cons.injEq,
            true_and] at same
          obtain ⟨rfl, sameRest⟩ := readable (ends_further comma closing list rest)
            (ends_further comma closing list' rest') same
          obtain ⟨rfl, rfl⟩ := ih sameRest
          exact ⟨rfl, rfl⟩

/-- A closed list is readable if none of its texts begins like the end of the list. -/
theorem Readable.listed (readable : Readable text goesOn) (comma : goesOn ',' = false)
    (closing : goesOn close = false) (closes : close ≠ ',')
    (begins : ∀ x rest, (text x ++ rest).head? ≠ some close) :
    Readable (listed text close) fun _ => false := by
  intro list list' rest rest' ends ends' same
  cases list with
  | nil =>
      cases list' with
      | nil => exact ⟨rfl, (List.cons.inj same).2⟩
      | cons y list' =>
          rw [listed_cons, List.append_assoc] at same
          exact absurd (congrArg List.head? same.symm) (begins y _)
  | cons x list =>
      cases list' with
      | nil =>
          rw [listed_cons, List.append_assoc] at same
          exact absurd (congrArg List.head? same) (begins x _)
      | cons y list' =>
          rw [listed_cons, listed_cons, List.append_assoc, List.append_assoc] at same
          obtain ⟨rfl, sameRest⟩ := readable (ends_further comma closing list rest)
            (ends_further comma closing list' rest') same
          obtain ⟨rfl, rfl⟩ := readable.further comma closing closes ends ends' sameRest
          exact ⟨rfl, rfl⟩

end Listed

end Text

end MatchAction
