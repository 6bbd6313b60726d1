/-!
# Results

When a computation that is put together of others succeeds.
-/

namespace MatchAction

variable {ε ε' α β : Type}

/-- What is computed in two steps succeeds if both of them do. -/
theorem bind_eq_ok {first : Except ε α} {next : α → Except ε β} {result : β} :
    first >>= next = .ok result ↔ ∃ made, first = .ok made ∧ next made = .ok result := by
  cases first with
  | error error =>
      constructor
      · intro done
        cases done
      · rintro ⟨made, failed, -⟩
        cases failed
  | ok made =>
      constructor
      · intro done
        exact ⟨made, rfl, done⟩
      · rintro ⟨other, same, done⟩
        cases same
        exact done

theorem map_eq_ok {result : Except ε α} {change : α → β} {y : β} :
    result.map change = .ok y ↔ ∃ x, result = .ok x ∧ change x = y := by
  cases result with
  | error error =>
      constructor
      · intro done
        cases done
      · rintro ⟨x, failed, -⟩
        cases failed
  | ok x =>
      constructor
      · intro done
        cases done
        exact ⟨x, rfl, rfl⟩
      · rintro ⟨x', same, rfl⟩
        cases same
        rfl

end MatchAction
