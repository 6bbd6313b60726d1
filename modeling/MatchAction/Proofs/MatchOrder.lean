import MatchAction.Proofs.KeyImage
import MatchAction.Proofs.Reachability

/-!
# The order of field matches

A table sorts the field matches of an entry before it looks at them, and the sort is stable: matches
on one field stay in the order in which they were given.  So it does not matter in which order an
entry lists its field matches, except among those on one field.  The main statements are
`rearrangement_invisible`, on whole runs of a table, and `rearranged_share_row`; matches on one field
that change places are told apart.
-/

namespace MatchAction

namespace FieldMatch

/-- The matches on one field, in their order. -/
def on (id : UInt32) (fieldMatches : List FieldMatch) : List FieldMatch :=
  fieldMatches.filter fun fieldMatch => fieldMatch.fieldId = id

/-- Another order of the same field matches, in which those on one field keep theirs. -/
structure Rearranged (first second : List FieldMatch) : Prop where
  perm : first.Perm second
  ordered : ∀ id, on id first = on id second

theorem on_cons (id : UInt32) (fieldMatch : FieldMatch) (rest : List FieldMatch) :
    on id (fieldMatch :: rest) =
      if fieldMatch.fieldId = id then fieldMatch :: on id rest else on id rest := by
  simp only [on, List.filter_cons, decide_eq_true_eq]

/-- Sorting leaves matches on one field in their order. -/
theorem on_sort (id : UInt32) (fieldMatches : List FieldMatch) :
    on id (sort fieldMatches) = on id fieldMatches :=
  filter_sort_by fieldId id fieldMatches

/-- Sorted field matches are known by those on each field. -/
theorem eq_of_pairwise_of_on {first second : List FieldMatch} (perm : first.Perm second)
    (sorted : first.Pairwise fun a b => a.fieldId ≤ b.fieldId)
    (sorted' : second.Pairwise fun a b => a.fieldId ≤ b.fieldId)
    (ordered : ∀ id, on id first = on id second) : first = second := by
  induction first generalizing second with
  | nil => exact (List.nil_perm.mp perm).symm
  | cons fieldMatch rest ih =>
      cases second with
      | nil => exact absurd perm.symm (List.nil_perm.not.mpr (List.cons_ne_nil _ _))
      | cons fieldMatch' rest' =>
          -- Each list begins with a match on the least of the fields, which are the same in both.
          have least : ∀ m ∈ fieldMatch :: rest, fieldMatch.fieldId ≤ m.fieldId := by
            rintro m (_ | ⟨_, inside⟩)
            · exact UInt32.le_refl _
            · exact (List.pairwise_cons.mp sorted).1 m inside
          have least' : ∀ m ∈ fieldMatch' :: rest', fieldMatch'.fieldId ≤ m.fieldId := by
            rintro m (_ | ⟨_, inside⟩)
            · exact UInt32.le_refl _
            · exact (List.pairwise_cons.mp sorted').1 m inside
          have sameId : fieldMatch.fieldId = fieldMatch'.fieldId :=
            UInt32.le_antisymm (least _ (perm.mem_iff.mpr List.mem_cons_self))
              (least' _ (perm.mem_iff.mp List.mem_cons_self))
          have heads := ordered fieldMatch.fieldId
          rw [on_cons, on_cons, if_pos rfl, if_pos sameId.symm] at heads
          obtain ⟨rfl, -⟩ := List.cons.inj heads
          have orderedRest : ∀ id, on id rest = on id rest' := by
            intro id
            have whole := ordered id
            rw [on_cons, on_cons] at whole
            split at whole
            · exact (List.cons.inj whole).2
            · exact whole
          rw [ih perm.cons_inv (List.pairwise_cons.mp sorted).2 (List.pairwise_cons.mp sorted').2
            orderedRest]

/-- Two lists of field matches are the same once sorted exactly if they are rearrangements. -/
theorem sort_eq_sort_iff {first second : List FieldMatch} :
    sort first = sort second ↔ Rearranged first second := by
  have permSort (fieldMatches : List FieldMatch) : (sort fieldMatches).Perm fieldMatches :=
    List.mergeSort_perm _ _
  constructor
  · intro same
    refine ⟨(permSort first).symm.trans (same ▸ permSort second), fun id => ?_⟩
    rw [← on_sort id first, same, on_sort]
  · rintro ⟨perm, ordered⟩
    refine eq_of_pairwise_of_on ?_ (pairwise_sort first) (pairwise_sort second) fun id => ?_
    · exact (permSort first).trans (perm.trans (permSort second).symm)
    · rw [on_sort, on_sort, ordered id]

/-- If no field is matched twice, every order of the field matches is a rearrangement. -/
theorem Rearranged.of_nodup {first second : List FieldMatch} (perm : first.Perm second)
    (distinct : (first.map fieldId).Nodup) : Rearranged first second := by
  refine ⟨perm, fun id => ?_⟩
  have permOn : (on id first).Perm (on id second) := perm.filter _
  have distinctOn : ((on id first).map fieldId).Nodup :=
    distinct.sublist (List.filter_sublist.map fieldId)
  have all : ∀ m ∈ on id first, m.fieldId = id := fun m inside =>
    of_decide_eq_true (List.mem_filter.mp inside).2
  match matched : on id first with
  | [] => exact (List.nil_perm.mp (matched ▸ permOn)).symm
  | [m] => exact (List.perm_singleton.mp (matched ▸ permOn.symm)).symm
  | m :: m' :: rest =>
      rw [matched] at all distinctOn
      have sameId : m.fieldId = m'.fieldId :=
        (all m List.mem_cons_self).trans
          (all m' (List.mem_cons_of_mem _ List.mem_cons_self)).symm
      have differ := (List.nodup_cons.mp distinctOn).1
      exact absurd (sameId ▸ List.mem_cons_self) differ

/-- The field matches with those on one field in front. -/
def front (id : UInt32) (fieldMatches : List FieldMatch) : List FieldMatch :=
  on id fieldMatches ++ fieldMatches.filter fun fieldMatch => ¬ fieldMatch.fieldId = id

theorem rearranged_front (id : UInt32) (fieldMatches : List FieldMatch) :
    Rearranged fieldMatches (front id fieldMatches) := by
  constructor
  · have parted := List.filter_append_perm (fun m : FieldMatch => decide (m.fieldId = id)) fieldMatches
    simp only [← decide_not] at parted
    exact parted.symm
  · intro other
    simp only [on, front, List.filter_append, List.filter_filter]
    by_cases same : other = id
    · subst same
      simp
    · have never (m : FieldMatch) : (decide (m.fieldId = other) && decide (m.fieldId = id)) = false := by
        simp only [Bool.and_eq_false_iff, decide_eq_false_iff_not]
        by_cases isOther : m.fieldId = other
        · exact .inr fun isId => same (isOther.symm.trans isId)
        · exact .inl isOther
      have always (m : FieldMatch) : (decide (m.fieldId = other) && decide (¬ m.fieldId = id)) =
          decide (m.fieldId = other) := by
        by_cases isOther : m.fieldId = other
        · simp [isOther, same]
        · simp [isOther]
      simp only [never, always, List.filter_false, List.nil_append]

end FieldMatch

/-! ## Entries with rearranged matches -/

/-- Entries that differ at most in the order of their field matches, and keep that of the matches on
one field. -/
structure TableEntry.Rearranged (first second : TableEntry) : Prop where
  fieldMatches : FieldMatch.Rearranged first.fieldMatches second.fieldMatches
  others : second = { first with fieldMatches := second.fieldMatches }

namespace TableEntry.Rearranged

variable {first second : TableEntry}

theorem isDefaultAction_eq (rearranged : first.Rearranged second) :
    second.isDefaultAction = first.isDefaultAction := by rw [rearranged.others]

theorem sorted_eq (rearranged : first.Rearranged second) : second.sorted = first.sorted := by
  have sameMatches : FieldMatch.sort second.fieldMatches = FieldMatch.sort first.fieldMatches :=
    (FieldMatch.sort_eq_sort_iff.mpr rearranged.fieldMatches).symm
  rw [sorted, sorted, sameMatches, rearranged.others]

theorem isEmpty_eq (rearranged : first.Rearranged second) :
    second.fieldMatches.isEmpty = first.fieldMatches.isEmpty := by
  rw [Bool.eq_iff_iff, List.isEmpty_iff, List.isEmpty_iff]
  constructor
  · intro bare
    exact List.perm_nil.mp (bare ▸ rearranged.fieldMatches.perm)
  · intro bare
    exact List.nil_perm.mp (bare ▸ rearranged.fieldMatches.perm)

theorem eq_of_bare (rearranged : first.Rearranged second)
    (bare : first.fieldMatches.isEmpty = true) : second = first := by
  have bare' := rearranged.isEmpty_eq.trans bare
  rw [rearranged.others, List.isEmpty_iff.mp bare', ← List.isEmpty_iff.mp bare]

end TableEntry.Rearranged

namespace Mutation

/-- Mutations that differ at most in the order of the field matches of their entries. -/
inductive Rearranged : Mutation → Mutation → Prop where
  | modifyEntry {first second : TableEntry} (entries : first.Rearranged second) (insert : Bool) :
      Rearranged (.modifyEntry first insert) (.modifyEntry second insert)
  | removeEntry {first second : TableEntry} (entries : first.Rearranged second) :
      Rearranged (.removeEntry first) (.removeEntry second)
  | modifyCounter {first second : TableEntry} (entries : first.Rearranged second)
      (data : CounterData) (insert : Bool) :
      Rearranged (.modifyCounter ⟨first, data⟩ insert) (.modifyCounter ⟨second, data⟩ insert)
  | modifyMeter {first second : TableEntry} (entries : first.Rearranged second)
      (config : Option MeterConfig) (counterData : Option MeterCounterData) (insert : Bool) :
      Rearranged (.modifyMeter ⟨first, config, counterData⟩ insert)
        (.modifyMeter ⟨second, config, counterData⟩ insert)

/-- Whether a mutation changes a direct resource and not an entry. -/
def isDirect : Mutation → Bool
  | modifyEntry .. | removeEntry _ => false
  | modifyCounter .. | modifyMeter .. => true

end Mutation

namespace Table

theorem keyedPlace_rearranged {first second : TableEntry} (rearranged : first.Rearranged second)
    (table : Table) : table.keyedPlace second = table.keyedPlace first := by
  have sameMatches : FieldMatch.sort second.fieldMatches = FieldMatch.sort first.fieldMatches :=
    (FieldMatch.sort_eq_sort_iff.mpr rearranged.fieldMatches).symm
  rw [keyedPlace, keyedPlace, keyOf, keyOf, Key.ofMatches, Key.ofMatches, sameMatches]

theorem place_rearranged {mutation other : Mutation} (rearranged : mutation.Rearranged other)
    (table : Table) : table.place other = table.place mutation := by
  cases rearranged with
  | modifyEntry entries insert =>
      simp only [place, entries.isDefaultAction_eq, entries.isEmpty_eq,
        keyedPlace_rearranged entries]
  | removeEntry entries =>
      simp only [place, entries.isDefaultAction_eq, keyedPlace_rearranged entries]
  | modifyCounter entries data insert => exact keyedPlace_rearranged entries table
  | modifyMeter entries config counterData insert => exact keyedPlace_rearranged entries table

/-- At the place addressed, mutations of rearranged entries do the same.  Only a direct resource
that is not there is refused with the entry as it was given, so that the order shows. -/
theorem effect_rearranged {table : Table} {mutation other : Mutation} {place : Place}
    (rearranged : mutation.Rearranged other) (addressed : table.place mutation = .ok place)
    (held : Option Row) :
    other.effect held = mutation.effect held ∨
      mutation.isDirect = true ∧ mutation.effect held = .error (.entryNotFound mutation.entry) ∧
        other.effect held = .error (.entryNotFound other.entry) := by
  cases rearranged with
  | @modifyEntry first second entries insert =>
      left
      cases isDefault : first.isDefaultAction with
      | false =>
          simp only [Mutation.effect, entries.isDefaultAction_eq, entries.sorted_eq, isDefault]
          rfl
      | true =>
          have bare : first.fieldMatches.isEmpty = true := by
            simp only [Table.place, isDefault, ↓reduceIte] at addressed
            cases insert with
            | true => cases addressed
            | false =>
                cases bare : first.fieldMatches.isEmpty with
                | true => rfl
                | false => rw [bare] at addressed; cases addressed
          rw [entries.eq_of_bare bare]
  | removeEntry entries => exact .inl rfl
  | modifyCounter entries data insert =>
      cases held with
      | none => exact .inr ⟨rfl, rfl, rfl⟩
      | some row => exact .inl rfl
  | modifyMeter entries config counterData insert =>
      cases held with
      | none => exact .inr ⟨rfl, rfl, rfl⟩
      | some row => exact .inl rfl

theorem mutate_rearranged {mutation other : Mutation} (rearranged : mutation.Rearranged other)
    (table : Table) :
    table.mutate other = table.mutate mutation ∨
      mutation.isDirect = true ∧ table.mutate mutation = .error (.entryNotFound mutation.entry) ∧
        table.mutate other = .error (.entryNotFound other.entry) := by
  rw [mutate_eq, mutate_eq, applyEffect, applyEffect, place_rearranged rearranged]
  cases addressed : table.place mutation with
  | error error => exact .inl rfl
  | ok place =>
      rcases effect_rearranged rearranged addressed (table.row place) with
        same | ⟨direct, missed, missed'⟩
      · left
        simp only [bind, Except.bind, same]
      · right
        simp only [bind, Except.bind, missed, missed', and_self, direct]

/-! ## Runs -/

/-- Commands that differ at most in the order of the field matches of the entry to be changed. -/
inductive Command.Rearranged : Command → Command → Prop where
  | mutate {mutation other : Mutation} (mutations : mutation.Rearranged other) :
      Rearranged (.mutate mutation) (.mutate other)
  | same (command : Command) : Rearranged command command

/-- Whether a command was refused since the row whose direct resource it should change is missing. -/
def Done.Misses (done : Done) : Prop :=
  ∃ mutation entry, done.command = .mutate mutation ∧ mutation.isDirect = true ∧
    done.outcome.result = .error (.entryNotFound entry)

/-- Commands that were performed to the same effect.  Their errors are of one kind, and the same
except for the order in which a missing row's entry is shown. -/
structure Done.Alike (one other : Done) : Prop where
  after : other.after = one.after
  calls : other.outcome.calls = one.outcome.calls
  kind : other.outcome.result.mapError Error.kind = one.outcome.result.mapError Error.kind
  result : ¬ one.Misses → other.outcome.result = one.outcome.result

theorem perform_rearranged {command other : Command} (rearranged : command.Rearranged other)
    (table : Table) : (table.perform command).Alike (table.perform other) := by
  cases rearranged with
  | same => exact ⟨rfl, rfl, rfl, fun _ => rfl⟩
  | @mutate mutation other mutations =>
      rcases mutate_rearranged mutations table with same | ⟨direct, missed, missed'⟩
      · rw [perform_mutate, perform_mutate, same]
        cases table.mutate mutation <;> exact ⟨rfl, rfl, rfl, fun _ => rfl⟩
      · rw [perform_mutate, perform_mutate, missed, missed']
        refine ⟨rfl, rfl, rfl, fun found => absurd ?_ found⟩
        exact ⟨mutation, mutation.entry, rfl, direct, rfl⟩

/-- It does not show in which order entries list their field matches, as long as matches on one field
keep their order: at every step of two such runs of a table the outcome is the same, but for the text
about a direct resource that is not there, and so is the table. -/
theorem rearrangement_invisible (table : Table) {first second : List Command}
    (rearranged : List.Forall₂ Command.Rearranged first second) :
    List.Forall₂ Done.Alike (table.run first) (table.run second) := by
  induction rearranged generalizing table with
  | nil => exact .nil
  | cons head _ ih =>
      have alike := perform_rearranged head table
      refine .cons alike ?_
      rw [alike.after]
      exact ih _

end Table

/-! ## A table of pairs -/

/-- A table with two match fields. -/
def pairList : TableSchema := .make 7 "acl" [.make 1 "src" 8 .exact, .make 2 "dst" 8 .exact]

def pairTable : Table := .make pairList 64

def onSource (byte : UInt8) : FieldMatch := ⟨1, .exact [byte]⟩

def onDestination (byte : UInt8) : FieldMatch := ⟨2, .exact [byte]⟩

def pair (fieldMatches : List FieldMatch) : TableEntry := .make 7 fieldMatches none

theorem pair_rearranged {first second : List FieldMatch}
    (rearranged : FieldMatch.Rearranged first second) : (pair first).Rearranged (pair second) :=
  ⟨rearranged, rfl⟩

/-- An entry is inserted, its counter is set, that of an entry that is not there cannot be set, and
too many field matches are refused. -/
def pairCommands (order : List FieldMatch → List FieldMatch) : List Table.Command :=
  [.mutate (.modifyEntry (pair (order [onSource 1, onDestination 2])) true),
    .mutate (.modifyCounter ⟨pair (order [onSource 1, onDestination 2]), ⟨640, 5⟩⟩ false),
    .mutate (.modifyCounter ⟨pair (order [onSource 3, onDestination 4]), ⟨640, 5⟩⟩ false),
    .mutate (.removeEntry (pair (order [onSource 1, onSource 2, onDestination 3])))]

/-- It makes no difference that all entries have their destination in front. -/
theorem destination_first_invisible :
    List.Forall₂ Table.Command.Rearranged (pairCommands id) (pairCommands (FieldMatch.front 2)) ∧
    List.Forall₂ Table.Done.Alike (pairTable.run (pairCommands id))
      (pairTable.run (pairCommands (FieldMatch.front 2))) := by
  have rearranged : List.Forall₂ Table.Command.Rearranged (pairCommands id)
      (pairCommands (FieldMatch.front 2)) := by
    have entries (fieldMatches : List FieldMatch) := pair_rearranged
      (FieldMatch.rearranged_front 2 fieldMatches)
    refine .cons ?_ (.cons ?_ (.cons ?_ (.cons ?_ .nil)))
    · exact .mutate (.modifyEntry (entries _) true)
    · exact .mutate (.modifyCounter (entries _) ⟨640, 5⟩ false)
    · exact .mutate (.modifyCounter (entries _) ⟨640, 5⟩ false)
    · exact .mutate (.removeEntry (entries _))
  exact ⟨rearranged, Table.rearrangement_invisible pairTable rearranged⟩

/-! ## Rows of rearranged matches -/

namespace Table

theorem place_insert {table : Table} {entry : TableEntry} {key : Key}
    (ordinary : entry.isDefaultAction = false) (keyed : table.keyOf entry.fieldMatches = .ok key) :
    table.place (.modifyEntry entry true) = .ok (.keyed key) :=
  place_of_keyOf (if_neg (Bool.eq_false_iff.mp ordinary)) keyed

/-- An entry is inserted if there is no row at its key. -/
theorem perform_insert_of_none {table : Table} {entry : TableEntry} {key : Key}
    (ordinary : entry.isDefaultAction = false) (keyed : table.keyOf entry.fieldMatches = .ok key)
    (free : table.row (.keyed key) = none) :
    table.perform (.mutate (.modifyEntry entry true)) =
      ⟨.mutate (.modifyEntry entry true), ⟨.ok (), []⟩,
        table.setRow (.keyed key) (some (Row.inserted entry.sorted))⟩ := by
  refine perform_of_done (place_insert ordinary keyed) ?_
  simp only [Mutation.effect, ordinary, free, Bool.false_eq_true, ↓reduceIte]

theorem perform_insert_of_some {table : Table} {entry : TableEntry} {key : Key} {row : Row}
    (ordinary : entry.isDefaultAction = false) (keyed : table.keyOf entry.fieldMatches = .ok key)
    (held : table.row (.keyed key) = some row) :
    table.perform (.mutate (.modifyEntry entry true)) =
      ⟨.mutate (.modifyEntry entry true), ⟨.error (.entryExists entry.sorted), []⟩, table⟩ := by
  refine perform_of_failed (place_insert ordinary keyed) ?_
  simp only [Mutation.effect, ordinary, held, Bool.false_eq_true, ↓reduceIte]

theorem schema_perform (table : Table) (command : Command) :
    (table.perform command).after.schema = table.schema := by
  rcases table.after_perform command with unchanged | step
  · rw [unchanged]
  · generalize (table.perform command).after = next at step
    cases step with
    | mutated done =>
        obtain ⟨place, held, -, -, rfl⟩ := mutate_eq_ok.mp done
        exact schema_setRow table place held
    | matched matcher => rfl

/-- After an attempt to insert an entry there is a row at its key. -/
theorem exists_row_after_insert (table : Table) {entry : TableEntry} {key : Key}
    (ordinary : entry.isDefaultAction = false) (keyed : table.keyOf entry.fieldMatches = .ok key) :
    ∃ row, (table.perform (.mutate (.modifyEntry entry true))).after.row (.keyed key) = some row := by
  cases held : table.row (.keyed key) with
  | none =>
      rw [perform_insert_of_none ordinary keyed held]
      refine ⟨Row.inserted entry.sorted, ?_⟩
      rw [row_setRow, if_pos rfl]
  | some row =>
      rw [perform_insert_of_some ordinary keyed held]
      exact ⟨row, held⟩

/-- Field matches that a table accepts have the same key in every order that keeps the order of those
on one field.  Of two entries with such field matches the table takes only the first. -/
theorem rearranged_share_row {first second : List FieldMatch}
    (rearranged : FieldMatch.Rearranged first second) (table : Table)
    (accepted : first.length ≤ table.schema.matchFields.length) :
    ∃ key, table.keyOf first = .ok key ∧ table.keyOf second = .ok key ∧
      ∀ entry other : TableEntry, entry.isDefaultAction = false → other.isDefaultAction = false →
        entry.fieldMatches = first → other.fieldMatches = second →
        let done := table.perform (.mutate (.modifyEntry entry true))
        (table.row (.keyed key) = none → done.outcome = ⟨.ok (), []⟩) ∧
        done.after.perform (.mutate (.modifyEntry other true)) =
          ⟨.mutate (.modifyEntry other true), ⟨.error (.entryExists other.sorted), []⟩,
            done.after⟩ := by
  have sameKey : table.keyOf second = table.keyOf first := by
    rw [keyOf, keyOf, Key.ofMatches, Key.ofMatches, FieldMatch.sort_eq_sort_iff.mpr rearranged]
  have keyed := Key.ofMatches_eq_ok accepted
  refine ⟨_, keyed, sameKey.trans keyed, ?_⟩
  rintro entry other ordinary ordinary' rfl rfl done
  refine ⟨fun free => ?_, ?_⟩
  · exact congrArg Done.outcome (perform_insert_of_none ordinary keyed free)
  · obtain ⟨row, held⟩ := exists_row_after_insert table ordinary keyed
    have sameSchema : done.after.schema = table.schema := schema_perform table _
    have keyed' : done.after.keyOf other.fieldMatches = table.keyOf entry.fieldMatches := by
      rw [keyOf, sameSchema]
      exact sameKey
    exact perform_insert_of_some ordinary' (keyed'.trans keyed) held

end Table

/-- Insertions of entries with the given field matches. -/
def insertions (lists : List (List FieldMatch)) : List Table.Command :=
  lists.map fun fieldMatches => .mutate (.modifyEntry (pair fieldMatches) true)

theorem two_fields : pairTable.schema.matchFields.length = 2 := List.length_mergeSort _

/-- An entry is in the table already if it is given with its destination in front. -/
theorem destination_first_refused :
    [onSource 1, onDestination 2].length ≤ pairTable.schema.matchFields.length ∧
    (pairTable.run (insertions [[onSource 1, onDestination 2], [onDestination 2, onSource 1]])).map
      Table.Done.outcome =
        [⟨.ok (), []⟩, ⟨.error (.entryExists (pair [onDestination 2, onSource 1]).sorted), []⟩] := by
  have accepted : [onSource 1, onDestination 2].length ≤ pairTable.schema.matchFields.length :=
    two_fields.ge
  have rearranged : FieldMatch.Rearranged [onSource 1, onDestination 2]
      [onDestination 2, onSource 1] := .of_nodup (.swap _ _ _) (by decide)
  obtain ⟨key, -, -, shared⟩ := Table.rearranged_share_row rearranged pairTable accepted
  obtain ⟨inserted, refused⟩ := shared (pair [onSource 1, onDestination 2])
    (pair [onDestination 2, onSource 1]) rfl rfl rfl rfl
  have free : pairTable.row (.keyed key) = none := Table.row_make _ _ _
  refine ⟨accepted, ?_⟩
  simp only [insertions, List.map_cons, List.map_nil, Table.run, inserted free, refused]

/-- Two matches on one field are told apart by their order: either order has its own key, and a table
takes both entries. -/
theorem repeated_field_told_apart :
    [onSource 1, onSource 2].Perm [onSource 2, onSource 1] ∧
    [onSource 1, onSource 2].length ≤ pairTable.schema.matchFields.length ∧
    pairTable.keyOf [onSource 1, onSource 2] ≠ pairTable.keyOf [onSource 2, onSource 1] ∧
    (pairTable.run (insertions [[onSource 1, onSource 2], [onSource 2, onSource 1]])).map
      Table.Done.outcome = [⟨.ok (), []⟩, ⟨.ok (), []⟩] := by
  have sort_twice (byte byte' : UInt8) : FieldMatch.sort [onSource byte, onSource byte'] =
      [onSource byte, onSource byte'] :=
    List.mergeSort_of_pairwise (by simp [onSource])
  have keyed_twice (byte byte' : UInt8) : pairTable.keyOf [onSource byte, onSource byte'] =
      .ok (Digest.ofBytes [1, byte, 1, byte']) := by
    refine (Key.ofMatches_eq_ok two_fields.ge).trans ?_
    rw [sort_twice]
    rfl
  have keyed := keyed_twice 1 2
  have keyed' := keyed_twice 2 1
  have differ : Digest.ofBytes [1, 1, 1, 2] ≠ Digest.ofBytes [1, 2, 1, 1] := by decide +kernel
  refine ⟨List.Perm.swap _ _ _, two_fields.ge, ?_, ?_⟩
  · rw [keyed, keyed']
    exact fun same => differ (Except.ok.inj same)
  · have free : pairTable.row (.keyed (Digest.ofBytes [1, 1, 1, 2])) = none :=
      Table.row_make _ _ _
    have inserted : pairTable.perform (.mutate (.modifyEntry (pair [onSource 1, onSource 2]) true)) =
        _ := Table.perform_insert_of_none rfl keyed free
    let next := pairTable.setRow (.keyed (Digest.ofBytes [1, 1, 1, 2]))
      (some (Row.inserted (pair [onSource 1, onSource 2]).sorted))
    have keyedNext : next.keyOf [onSource 2, onSource 1] = .ok (Digest.ofBytes [1, 2, 1, 1]) := by
      rw [Table.keyOf, Table.schema_setRow]
      exact keyed'
    have freeNext : next.row (.keyed (Digest.ofBytes [1, 2, 1, 1])) = none := by
      rw [Table.row_setRow, if_neg fun same => differ (Place.keyed.inj same).symm]
      exact Table.row_make _ _ _
    have insertedNext : next.perform (.mutate (.modifyEntry (pair [onSource 2, onSource 1]) true)) =
        _ := Table.perform_insert_of_none rfl keyedNext freeNext
    simp only [insertions, List.map_cons, List.map_nil, Table.run, inserted]
    rw [insertedNext]

end MatchAction
