import Mathlib.Data.List.FinRange
import Mathlib.Data.List.Sort
import Mathlib.Order.Fin.Basic
import MatchAction.Proofs.Effect

/-!
# Locality

Mutations that address different slots do not meet: what a slot holds after a run, and what a caller
is told, is decided by the mutations before that address the same slot.  So mutations may be
reordered as long as those on one slot keep their order.
-/

namespace MatchAction

/-! ## Moving the elements of a list -/

section Lists

variable {α : Type}

theorem take_finRange (length count : Nat) :
    (List.finRange length).take count =
      (List.finRange length).filter fun position => position.val < count := by
  have increasing := List.pairwise_lt_finRange length
  refine (increasing.sublist (List.take_sublist _ _)).eq_of_mem_iff (increasing.filter _)
    fun position => ?_
  simp only [List.mem_take_iff_getElem, List.getElem_finRange, List.mem_filter, List.mem_finRange,
    true_and, decide_eq_true_eq, List.length_finRange]
  constructor
  · rintro ⟨index, bound, rfl⟩
    exact (Nat.lt_min.mp bound).1
  · intro bound
    exact ⟨position.val, Nat.lt_min.mpr ⟨bound, position.isLt⟩, rfl⟩

/-- Selecting from the front of a list is selecting positions. -/
theorem filter_take (list : List α) (count : Nat) (select : α → Bool) :
    (list.take count).filter select =
      ((List.finRange list.length).filter fun position =>
        select list[position] && position.val < count).map fun position => list[position] := by
  have whole : (List.finRange list.length).map list.get = list := List.map_get_finRange list
  conv_lhs => rw [← whole]
  rw [← List.map_take, take_finRange, List.filter_map, List.filter_filter]
  rfl

/-- Elements that are moved in order are the same list at their old positions as at their new. -/
theorem map_filter_finRange {first second : List α}
    (position : Fin first.length ≃ Fin second.length)
    (same : ∀ i, second[position i] = first[i]) (chosen : Fin first.length → Bool)
    (ordered : ∀ i j, i < j → chosen i = true → chosen j = true → position i < position j) :
    ((List.finRange first.length).filter chosen).map (fun i => first[i]) =
      ((List.finRange second.length).filter fun j => chosen (position.symm j)).map
        fun j => second[j] := by
  have moved : ((List.finRange first.length).filter chosen).map position =
      (List.finRange second.length).filter fun j => chosen (position.symm j) := by
    refine List.Pairwise.eq_of_mem_iff ?_ ((List.pairwise_lt_finRange second.length).filter _)
      fun j => ?_
    · rw [List.pairwise_map]
      refine ((List.pairwise_lt_finRange first.length).filter chosen).imp_of_mem ?_
      intro i j inside inside' less
      exact ordered i j less (List.mem_filter.mp inside).2 (List.mem_filter.mp inside').2
    · simp only [List.mem_map, List.mem_filter, List.mem_finRange, true_and]
      constructor
      · rintro ⟨i, isChosen, rfl⟩
        rw [Equiv.symm_apply_apply]
        exact isChosen
      · intro isChosen
        exact ⟨position.symm j, isChosen, position.apply_symm_apply j⟩
  rw [← moved, List.map_map]
  exact List.map_congr_left fun i _ => (same i).symm

end Lists

namespace Registry

/-! ## Slots that a run does not touch -/

/-- The slot that a mutation addresses, if it is not refused before any slot is looked at. -/
def address (registry : Registry) (mutation : Mutation) : Option Slot :=
  (registry.slot mutation).toOption

theorem address_congr {first second : Registry} (sameCleared : first.cleared = second.cleared)
    (mutation : Mutation) : first.address mutation = second.address mutation :=
  congrArg Except.toOption (slot_congr sameCleared mutation)

theorem address_eq_some {registry : Registry} {mutation : Mutation} {slot : Slot} :
    registry.address mutation = some slot ↔ registry.slot mutation = .ok slot := by
  unfold address
  cases registry.slot mutation <;> simp [Except.toOption]

theorem row_perform_of_ne {registry : Registry} {mutation : Mutation} {slot : Slot}
    (elsewhere : registry.address mutation ≠ some slot) :
    (registry.perform (.mutate mutation)).2.row slot = registry.row slot := by
  cases addressed : registry.slot mutation with
  | error error => rw [perform_of_refused addressed]
  | ok own =>
      have ne : slot ≠ own := by
        rintro rfl
        exact elsewhere (address_eq_some.mpr addressed)
      cases effect : mutation.effect (registry.row own) with
      | error error => rw [perform_of_failed addressed effect]
      | ok held =>
          rw [perform_of_done addressed effect]
          exact row_setRow_of_ne registry held ne

/-- The outcome of a mutation, and what its slot holds afterwards, depend on what it held before. -/
theorem perform_congr {first second : Registry} (sameCleared : first.cleared = second.cleared)
    {mutation : Mutation}
    (sameRow : ∀ slot, first.address mutation = some slot → first.row slot = second.row slot) :
    (first.perform (.mutate mutation)).1 = (second.perform (.mutate mutation)).1 ∧
    ∀ slot, first.address mutation = some slot →
      (first.perform (.mutate mutation)).2.row slot =
        (second.perform (.mutate mutation)).2.row slot := by
  cases addressed : first.slot mutation with
  | error error =>
      have addressed' := (slot_congr sameCleared mutation).symm.trans addressed
      rw [perform_of_refused addressed, perform_of_refused addressed']
      refine ⟨rfl, fun slot inside => ?_⟩
      rw [address_eq_some, addressed] at inside
      cases inside
  | ok own =>
      have addressed' := (slot_congr sameCleared mutation).symm.trans addressed
      have same := sameRow own (address_eq_some.mpr addressed)
      have onlyOwn (slot : Slot) (inside : first.address mutation = some slot) : own = slot := by
        rw [address_eq_some, addressed] at inside
        exact Except.ok.inj inside
      cases effect : mutation.effect (first.row own) with
      | error error =>
          have effect' := same ▸ effect
          rw [perform_of_failed addressed effect, perform_of_failed addressed' effect']
          exact ⟨rfl, fun slot inside => onlyOwn slot inside ▸ same⟩
      | ok held =>
          have effect' := same ▸ effect
          rw [perform_of_done addressed effect, perform_of_done addressed' effect']
          refine ⟨rfl, fun slot inside => ?_⟩
          obtain ⟨table, known⟩ := known_of_slot addressed
          obtain ⟨table', known'⟩ := known_of_slot addressed'
          rw [← onlyOwn slot inside, row_setRow_self known, row_setRow_self known']

namespace AgreeOn

variable {Own : Slot → Prop} {first second : Registry}

theorem perform (agree : AgreeOn Own first second) (mutation : Mutation) :
    AgreeOn Own (first.perform (.mutate mutation)).2 (second.perform (.mutate mutation)).2 := by
  refine ⟨by rw [cleared_perform, cleared_perform, agree.cleared], fun slot own => ?_⟩
  by_cases addressed : first.address mutation = some slot
  · refine (perform_congr agree.cleared fun other inside => ?_).2 slot addressed
    cases addressed.symm.trans inside
    exact agree.rows slot own
  · have addressed' : second.address mutation ≠ some slot := by
      rwa [← address_congr agree.cleared]
    rw [row_perform_of_ne addressed, row_perform_of_ne addressed']
    exact agree.rows slot own

/-- A mutation that addresses none of the slots of interest can be skipped. -/
theorem skip (agree : AgreeOn Own first second) {mutation : Mutation}
    (elsewhere : ∀ slot, Own slot → first.address mutation ≠ some slot) :
    AgreeOn Own (first.perform (.mutate mutation)).2 second := by
  refine ⟨by rw [cleared_perform, agree.cleared], fun slot own => ?_⟩
  rw [row_perform_of_ne (elsewhere slot own)]
  exact agree.rows slot own

end AgreeOn

/-- Mutations that address none of the slots of interest can be left out of a run. -/
theorem AgreeOn.run_filter {Own : Slot → Prop} {first second : Registry}
    (agree : AgreeOn Own first second) (keep : Mutation → Bool) (mutations : List Mutation)
    (elsewhere : ∀ mutation ∈ mutations, keep mutation = false →
      ∀ slot, Own slot → first.address mutation ≠ some slot) :
    AgreeOn Own (first.run (mutations.map .mutate)).2
      (second.run ((mutations.filter keep).map .mutate)).2 := by
  induction mutations generalizing first second with
  | nil => exact agree
  | cons mutation rest ih =>
      have elsewhereRest : ∀ later ∈ rest, keep later = false → ∀ slot, Own slot →
          (first.perform (.mutate mutation)).2.address later ≠ some slot := by
        intro later inside dropped slot own
        rw [address_congr (cleared_perform first _)]
        exact elsewhere later (List.mem_cons_of_mem _ inside) dropped slot own
      cases kept : keep mutation with
      | true =>
          rw [List.filter_cons_of_pos kept]
          exact ih (agree.perform mutation) elsewhereRest
      | false =>
          rw [List.filter_cons_of_neg (by rw [kept]; exact Bool.false_ne_true)]
          exact ih (agree.skip (elsewhere mutation List.mem_cons_self kept)) elsewhereRest

/-- What a slot holds after a run is what it holds after the mutations of the run that address
it. -/
theorem row_run_filter (registry : Registry) (slot : Slot) (mutations : List Mutation) :
    (registry.run (mutations.map .mutate)).2.row slot =
      (registry.run ((mutations.filter fun mutation =>
        registry.address mutation = some slot).map .mutate)).2.row slot := by
  have agree := (AgreeOn.refl (· = slot) registry).run_filter
    (fun mutation => registry.address mutation = some slot) mutations
    (by
      rintro mutation - dropped other rfl
      exact of_decide_eq_false dropped)
  exact agree.rows slot rfl

/-! ## Reordering -/

/-- Two orders of the same mutations.  Those that address one slot are in the same order in both. -/
structure Reordering (registry : Registry) (first second : List Mutation) where
  position : Fin first.length ≃ Fin second.length
  same : ∀ i, second[position i] = first[i]
  ordered : ∀ i j slot, i < j → registry.address first[i] = some slot →
    registry.address first[j] = some slot → position i < position j

namespace Reordering

variable {registry : Registry} {first second : List Mutation}

theorem same_symm (moved : Reordering registry first second) (j : Fin second.length) :
    first[moved.position.symm j] = second[j] := by
  rw [← moved.same]
  exact congrArg (fun k => second[k]) (moved.position.apply_symm_apply j)

theorem filter_eq (moved : Reordering registry first second) (slot : Slot) :
    first.filter (fun mutation => registry.address mutation = some slot) =
      second.filter fun mutation => registry.address mutation = some slot := by
  have whole (list : List Mutation) := filter_take list list.length
    fun mutation => registry.address mutation = some slot
  simp only [List.take_length, Fin.is_lt, decide_true, Bool.and_true] at whole
  rw [whole, whole]
  have chosen := map_filter_finRange moved.position moved.same
    (fun i => registry.address first[i] = some slot)
    fun i j less addressed addressed' => moved.ordered i j slot less
      (of_decide_eq_true addressed) (of_decide_eq_true addressed')
  simp only [moved.same_symm] at chosen
  exact chosen

theorem lt_iff (moved : Reordering registry first second) {i j : Fin first.length} {slot : Slot}
    (here : registry.address first[i] = some slot) (there : registry.address first[j] = some slot) :
    moved.position j < moved.position i ↔ j < i := by
  constructor
  · intro less
    by_contra notLess
    rcases lt_or_eq_of_le (not_lt.mp notLess) with before | same
    · exact lt_asymm less (moved.ordered i j slot before here there)
    · rw [same] at less
      exact lt_irrefl _ less
  · intro less
    exact moved.ordered j i slot less there here

/-- Before a mutation the same mutations address its slot in both orders, in the same order. -/
theorem filter_take_eq (moved : Reordering registry first second) {i : Fin first.length}
    {slot : Slot} (here : registry.address first[i] = some slot) :
    (first.take i).filter (fun mutation => registry.address mutation = some slot) =
      (second.take (moved.position i)).filter fun mutation =>
        registry.address mutation = some slot := by
  rw [filter_take, filter_take]
  have chosen := map_filter_finRange moved.position moved.same
    (fun j => decide (registry.address first[j] = some slot) && decide (j < i))
    fun j k less before before' => by
      simp only [Bool.and_eq_true, decide_eq_true_eq] at before before'
      exact moved.ordered j k slot less before.1 before'.1
  refine chosen.trans (congrArg (List.map _) (List.filter_congr fun j _ => ?_))
  rw [← moved.same_symm j]
  by_cases there : registry.address first[moved.position.symm j] = some slot
  · have less := moved.lt_iff here there
    rw [Equiv.apply_symm_apply] at less
    simp only [there, decide_true, Bool.true_and, decide_eq_decide]
    exact less.symm
  · simp only [there, decide_false, Bool.false_and]

theorem run_eq (moved : Reordering registry first second) :
    (registry.run (second.map .mutate)).2 = (registry.run (first.map .mutate)).2 := by
  refine ext_row (by rw [cleared_run, cleared_run]) fun slot => ?_
  rw [row_run_filter registry slot second, ← moved.filter_eq slot, ← row_run_filter]

theorem outcome_eq (moved : Reordering registry first second) (i : Fin first.length) :
    (registry.run (second.map .mutate)).1[(moved.position i).val]? =
      (registry.run (first.map .mutate)).1[i.val]? := by
  have before (list : List Mutation) (position : Fin list.length) :
      (registry.run (list.map .mutate)).1[position.val]? =
        some ((registry.run ((list.take position).map .mutate)).2.perform
          (.mutate list[position])).1 := by
    rw [getElem?_run, List.getElem?_map, List.getElem?_eq_getElem position.isLt, List.map_take]
    rfl
  rw [before, before, moved.same]
  refine congrArg some (perform_congr ?_ fun slot addressed => ?_).1
  · rw [cleared_run, cleared_run]
  · rw [address_congr (cleared_run registry _), ← moved.same] at addressed
    rw [row_run_filter registry slot (second.take _), row_run_filter registry slot (first.take _)]
    rw [moved.filter_take_eq (moved.same i ▸ addressed)]

end Reordering

/-! ## Clients -/

variable {Client : Type}

/-- What the client of each call is told. -/
def answers (registry : Registry) (calls : List (Client × Mutation)) : List (Client × Outcome) :=
  (calls.map Prod.fst).zip (registry.run (calls.map fun call => .mutate call.2)).1

/-- No call of one client addresses a slot that a call of the other addresses. -/
def Apart (registry : Registry) (calls : List (Client × Mutation)) (one other : Client) : Prop :=
  ∀ call ∈ calls, ∀ call' ∈ calls, call.1 = one → call'.1 = other →
    ∀ slot, registry.address call.2 = some slot → registry.address call'.2 ≠ some slot

theorem answers_cons (registry : Registry) (call : Client × Mutation)
    (rest : List (Client × Mutation)) :
    registry.answers (call :: rest) =
      (call.1, (registry.perform (.mutate call.2)).1) ::
        (registry.perform (.mutate call.2)).2.answers rest := rfl

variable [DecidableEq Client]

theorem filter_answers_eq {one other : Client} (differ : one ≠ other) {Own : Slot → Prop}
    {first second : Registry} (agree : AgreeOn Own first second)
    (calls : List (Client × Mutation))
    (inside : ∀ call ∈ calls, call.1 = one →
      ∀ slot, first.address call.2 = some slot → Own slot)
    (outside : ∀ call ∈ calls, call.1 = other →
      ∀ slot, Own slot → first.address call.2 ≠ some slot) :
    (first.answers calls).filter (fun answer => answer.1 = one) =
      (second.answers (calls.filter fun call => call.1 ≠ other)).filter
        fun answer => answer.1 = one := by
  induction calls generalizing first second with
  | nil => rfl
  | cons call rest ih =>
      have addressNext (mutation : Mutation) :
          (first.perform (.mutate call.2)).2.address mutation = first.address mutation :=
        address_congr (cleared_perform first _) mutation
      have insideRest : ∀ later ∈ rest, later.1 = one → ∀ slot,
          (first.perform (.mutate call.2)).2.address later.2 = some slot → Own slot := by
        intro later isLater isOne slot addressed
        rw [addressNext] at addressed
        exact inside later (List.mem_cons_of_mem _ isLater) isOne slot addressed
      have outsideRest : ∀ later ∈ rest, later.1 = other → ∀ slot, Own slot →
          (first.perform (.mutate call.2)).2.address later.2 ≠ some slot := by
        intro later isLater isOther slot own
        rw [addressNext]
        exact outside later (List.mem_cons_of_mem _ isLater) isOther slot own
      by_cases isOther : call.1 = other
      · have notOne : ¬ call.1 = one := fun isOne => differ (isOne.symm.trans isOther)
        have skipped := agree.skip (outside call List.mem_cons_self isOther)
        rw [answers_cons, List.filter_cons_of_neg (by simpa using notOne),
          List.filter_cons_of_neg (by simpa using isOther)]
        exact ih skipped insideRest outsideRest
      · rw [List.filter_cons_of_pos (by simpa using isOther), answers_cons, answers_cons,
          List.filter_cons, List.filter_cons,
          ih (agree.perform call.2) insideRest outsideRest]
        by_cases isOne : call.1 = one
        · have same := (perform_congr agree.cleared fun slot addressed =>
            agree.rows slot (inside call List.mem_cons_self isOne slot addressed)).1
          rw [same]
        · simp only [isOne, decide_false, Bool.false_eq_true, ↓reduceIte]

/-- Mutations on different slots do not affect each other.  In two orders that agree on every slot,
each mutation has the same outcome, and both end in the same registry.  And when the calls of several
clients are interleaved, what one client is told does not change if another one, whose calls address
other slots, makes no calls at all. -/
theorem slots_independent (registry : Registry) :
    (∀ (first second : List Mutation) (moved : Reordering registry first second),
      (∀ i : Fin first.length,
        (registry.run (second.map .mutate)).1[(moved.position i).val]? =
          (registry.run (first.map .mutate)).1[i.val]?) ∧
      (registry.run (second.map .mutate)).2 = (registry.run (first.map .mutate)).2) ∧
    ∀ (calls : List (Client × Mutation)) (one other : Client), one ≠ other →
      Apart registry calls one other →
      (registry.answers calls).filter (fun answer => answer.1 = one) =
        (registry.answers (calls.filter fun call => call.1 ≠ other)).filter
          fun answer => answer.1 = one := by
  refine ⟨fun first second moved => ⟨moved.outcome_eq, moved.run_eq⟩, ?_⟩
  intro calls one other differ apart
  refine filter_answers_eq differ
    (AgreeOn.refl (fun slot => ∃ call ∈ calls, call.1 = one ∧ registry.address call.2 = some slot)
      registry) calls ?_ ?_
  · intro call isCall isOne slot addressed
    exact ⟨call, isCall, isOne, addressed⟩
  · rintro call isCall isOther slot ⟨call', isCall', isOne, addressed⟩
    exact apart call' isCall' call isCall isOne isOther slot addressed

/-- One host is inserted and removed, and another one is inserted before or after that. -/
def insertedFirst : List Mutation :=
  [.modifyEntry (host 1) true, .modifyEntry (host 2) true, .removeEntry (host 1)]

def insertedSecond : List Mutation :=
  [.modifyEntry (host 2) true, .modifyEntry (host 1) true, .removeEntry (host 1)]

def hostsReordered : Reordering accessRegistry insertedFirst insertedSecond where
  position := (Equiv.swap 0 1 : Fin 3 ≃ Fin 3)
  same := by decide
  ordered := by
    have ordered : ∀ i j : Fin insertedFirst.length, i < j →
        accessRegistry.address insertedFirst[i] = accessRegistry.address insertedFirst[j] →
        (Equiv.swap 0 1 : Fin 3 ≃ Fin 3) i < (Equiv.swap 0 1 : Fin 3 ≃ Fin 3) j := by
      decide +kernel
    intro i j slot less here there
    exact ordered i j less (here.trans there.symm)

/-- Where the other host is inserted does not show, neither in the end nor to the first client. -/
theorem hosts_independent :
    (accessRegistry.run (insertedSecond.map .mutate)).2 =
      (accessRegistry.run (insertedFirst.map .mutate)).2 ∧
    (accessRegistry.answers [(true, Mutation.modifyEntry (host 1) true),
        (false, Mutation.modifyEntry (host 2) true)]).filter (fun answer => answer.1 = true) =
      (accessRegistry.answers [(true, Mutation.modifyEntry (host 1) true)]).filter
        fun answer => answer.1 = true := by
  refine ⟨((@slots_independent Bool _ accessRegistry).1 _ _ hostsReordered).2, ?_⟩
  refine (@slots_independent Bool _ accessRegistry).2 _ true false (by decide) ?_
  have apart : ∀ call ∈ [(true, Mutation.modifyEntry (host 1) true),
      (false, Mutation.modifyEntry (host 2) true)], ∀ call' ∈ [
      (true, Mutation.modifyEntry (host 1) true), (false, Mutation.modifyEntry (host 2) true)],
      call.1 = true → call'.1 = false →
      accessRegistry.address call.2 ≠ accessRegistry.address call'.2 := by
    decide +kernel
  intro call isCall call' isCall' isOne isOther slot here there
  exact apart call isCall call' isCall' isOne isOther (here.trans there.symm)

end Registry

end MatchAction
