import MatchAction.Proofs.Effect

/-!
# Failures

An operation that fails changes nothing, and neither does a read; an operation that succeeds changes
at most one slot.  A procedure may well write before it fails, so this rests on what each mutation
commits to.  Therefore the operations of a run that failed can be left out of it: the others
have the same outcomes without them, and the run ends in the same registry.
-/

namespace MatchAction

def Outcome.succeeded (outcome : Outcome) : Bool := outcome.result.isOk

def Operation.isRead : Operation → Bool
  | read .. => true
  | mutate _ | write _ => false

namespace Registry

theorem perform_of_not_succeeded {registry : Registry} {operation : Operation}
    (failed : (registry.perform operation).1.succeeded = false) :
    (registry.perform operation).2 = registry := by
  rcases registry.perform_cases operation with
    unchanged | ⟨mutation, slot, held, -, -, performed⟩
  · exact unchanged
  · rw [performed] at failed
    cases failed

theorem perform_of_isRead {registry : Registry} {operation : Operation}
    (reads : operation.isRead = true) : (registry.perform operation).2 = registry := by
  cases operation with
  | mutate mutation => cases reads
  | write update => cases reads
  | read request type answer => exact congrArg Prod.snd (perform_read ..)

/-- Everywhere but in one slot the registry holds what it held before. -/
theorem perform_agreeOn (registry : Registry) (operation : Operation) :
    ∃ slot, AgreeOn (· ≠ slot) (registry.perform operation).2 registry := by
  rcases registry.perform_cases operation with
    unchanged | ⟨mutation, slot, held, -, -, performed⟩
  · rw [unchanged]
    exact ⟨⟨0, .default⟩, AgreeOn.refl _ registry⟩
  · rw [performed]
    exact ⟨slot, agreeOn_setRow registry slot held⟩

/-- The operations of a run, each with its outcome. -/
def history (registry : Registry) (operations : List Operation) : List (Operation × Outcome) :=
  operations.zip (registry.run operations).1

/-- The part of a run's history that succeeded. -/
def successes (registry : Registry) (operations : List Operation) : List (Operation × Outcome) :=
  (registry.history operations).filter fun done => done.2.succeeded

theorem successes_cons (registry : Registry) (operation : Operation) (rest : List Operation) :
    registry.successes (operation :: rest) =
      (if (registry.perform operation).1.succeeded then
        [(operation, (registry.perform operation).1)] else []) ++
          (registry.perform operation).2.successes rest := by
  simp only [successes, history, run_cons, List.zip_cons_cons, List.filter_cons]
  split <;> rfl

/-- The successful operations of a run, performed alone, have the outcomes that they have in the
run, and end where it ends. -/
theorem run_successes (registry : Registry) (operations : List Operation) :
    registry.run ((registry.successes operations).map Prod.fst) =
      ((registry.successes operations).map Prod.snd, (registry.run operations).2) := by
  induction operations generalizing registry with
  | nil => rfl
  | cons operation rest ih =>
      rw [successes_cons, run_cons]
      cases succeeded : (registry.perform operation).1.succeeded with
      | true =>
          simp only [↓reduceIte, List.singleton_append, List.map_cons, run_cons, ih]
      | false =>
          -- The rest of the run starts where this operation started.
          rw [perform_of_not_succeeded succeeded]
          exact ih registry

/-- Failed operations are atomic, and can be erased from every run.  This holds of every registry,
however it came about. -/
theorem failed_operations_erasable :
    (∀ (registry : Registry) (operation : Operation),
      ((registry.perform operation).1.succeeded = false ∨ operation.isRead = true →
        (registry.perform operation).2 = registry) ∧
      ∃ slot, AgreeOn (· ≠ slot) (registry.perform operation).2 registry) ∧
    ∀ (registry : Registry) (operations : List Operation),
      registry.run ((registry.successes operations).map Prod.fst) =
        ((registry.successes operations).map Prod.snd, (registry.run operations).2) := by
  refine ⟨fun registry operation => ⟨?_, perform_agreeOn registry operation⟩, run_successes⟩
  rintro (failed | reads)
  · exact perform_of_not_succeeded failed
  · exact perform_of_isRead reads

/-- Inserting a host a second time fails, so that it changes nothing and can be left out. -/
theorem second_insertion_erased :
    let insertion := Operation.mutate (.modifyEntry (host 1) true)
    let once := (accessRegistry.perform insertion).2
    (once.perform insertion).1.succeeded = false ∧ (once.perform insertion).2 = once ∧
      (accessRegistry.successes [insertion, insertion]).map Prod.fst = [insertion] ∧
      accessRegistry.run [insertion] =
        ((accessRegistry.successes [insertion, insertion]).map Prod.snd,
          (accessRegistry.run [insertion, insertion]).2) := by
  intro insertion once
  have failed : (once.perform insertion).1.succeeded = false := by decide +kernel
  have first : (accessRegistry.perform insertion).1.succeeded = true := by decide +kernel
  have kept : (accessRegistry.successes [insertion, insertion]).map Prod.fst = [insertion] := by
    rw [successes_cons, successes_cons, first, failed]
    rfl
  refine ⟨failed, (failed_operations_erasable.1 once insertion).1 (.inl failed), kept, ?_⟩
  have erased := failed_operations_erasable.2 accessRegistry [insertion, insertion]
  rwa [kept] at erased

end Registry

end MatchAction
