import MatchAction.Proofs.DefaultAction
import MatchAction.Proofs.ReadBack
import MatchAction.Proofs.RowAlgebra

/-!
# Views of a table

A table tells how many entries it has, lists them, and delivers them to readers, and all three tell of
the same rows.  The rows that a run leaves are those of ordinary entries, no two of which agree in
their field matches, and after them that of the default action.  Each call adds one row, takes one away
or keeps their number, and which of these it does shows in the call and in the calls before it.
-/

namespace MatchAction

namespace Table

/-! ## Runs -/

/-- The table after commands. -/
def lead (table : Table) : List Command → Table
  | [] => table
  | command :: rest => (table.perform command).after.lead rest

/-- The default action was set. -/
def Done.SetsDefault (done : Done) : Prop :=
  ∃ entry, done.command = .modify entry ∧ entry.isDefaultAction = true ∧
    done.outcome.result = .ok ()

/-- A command that added a row, after the ones performed earlier: an entry was inserted, or the default
action was set for the first time. -/
inductive Done.Adds (earlier : List Done) (done : Done) : Prop where
  | inserts (entry : TableEntry) (command : done.command = .insert entry)
      (ok : done.outcome.result = .ok ())
  | setsFirst (sets : done.SetsDefault) (first : ∀ before ∈ earlier, ¬ before.SetsDefault)

/-- A command that took the row at its entry's key from the table. -/
def Done.Drops (table : Table) (done : Done) : Prop :=
  ∃ entry key row, done.command = .remove entry ∧ table.Keys key entry ∧
    table.row (.keyed key) = some row

/-- How a command changed the size of the table that it was performed on. -/
structure Done.Accounts (earlier : List Done) (table : Table) (done : Done) : Prop where
  grows : done.after.size = table.size + 1 ↔ done.Adds earlier
  shrinks : done.after.size + 1 = table.size ↔ done.Drops table
  stays : ¬ done.Adds earlier → ¬ done.Drops table → done.after.size = table.size

/-- The size, the entries and the reads of a table tell of the same rows. -/
structure Agrees (table : Table) : Prop where
  entries : table.entries.length = table.size
  /-- Whatever a reader took of a read that succeeded, it took the entries in their order, each in the
  form asked for. -/
  read : table.matcher = Matcher.all → ∀ (request : TableEntry) (type : ReadType) (sender : Sender),
    (table.read request type sender).1 = .ok () →
      ∃ entities, sender.Took entities (table.read request type sender).2 ∧
        entities.length = table.size ∧ entities.map Entity.owner = table.entries.map some ∧
        (type = .tableEntry → entities = table.entries.map Entity.tableEntry)
  distinct : ((table.entries.filter fun entry => !entry.isDefaultAction).map fun entry =>
    FieldMatch.sort entry.fieldMatches).Nodup
  last : ∃ (front : List TableEntry) (last : Option TableEntry),
    table.entries = front ++ last.toList ∧ (∀ entry ∈ front, entry.isDefaultAction = false) ∧
      ∀ entry ∈ last, entry.isDefaultAction = true

variable {table : Table}

@[simp] theorem command_perform (table : Table) (command : Command) :
    (table.perform command).command = command := by
  cases command with
  | mutate mutation =>
      rcases table.perform_cases mutation with ⟨error, refused⟩ | ⟨place, held, -, -, performed⟩
      · rw [refused]
      · rw [performed]
  | setMatcher matcher => rfl
  | read request type answer => rw [perform_read]

theorem reachable_perform {schema : TableSchema} {batchSize : Nat}
    (reachable : table.Reachable schema batchSize) (command : Command) :
    (table.perform command).after.Reachable schema batchSize := by
  rcases table.after_perform command with unchanged | step
  · rwa [unchanged]
  · exact reachable.step step

theorem reachable_lead {schema : TableSchema} {batchSize : Nat}
    (reachable : table.Reachable schema batchSize) (commands : List Command) :
    (table.lead commands).Reachable schema batchSize := by
  induction commands generalizing table with
  | nil => exact reachable
  | cons command rest ih => exact ih (reachable_perform reachable command)

/-! ## What a mutation makes of its place -/

/-- Mutations that only ever change a row that is there. -/
inductive Updates : Mutation → Prop where
  | entry {entry : TableEntry} (ordinary : entry.isDefaultAction = false) :
      Updates (.modifyEntry entry false)
  | counter (entry : DirectCounterEntry) (insert : Bool) : Updates (.modifyCounter entry insert)
  | meter (entry : DirectMeterEntry) (insert : Bool) : Updates (.modifyMeter entry insert)

/-- What a mutation that succeeds finds at its place and what it leaves there. -/
inductive Change (table : Table) : Mutation → Place → Option Row → Prop where
  | inserts {entry : TableEntry} {key : Key} (free : table.row (.keyed key) = none) (row : Row) :
      Change table (.modifyEntry entry true) (.keyed key) (some row)
  | setsDefault {entry : TableEntry} (isDefault : entry.isDefaultAction = true) (row : Row) :
      Change table (.modifyEntry entry false) .default (some row)
  | removes {entry : TableEntry} {key : Key} (keys : table.Keys key entry) :
      Change table (.removeEntry entry) (.keyed key) none
  | updates {mutation : Mutation} {key : Key} {old : Row} (kind : Updates mutation)
      (held : table.row (.keyed key) = some old) (row : Row) :
      Change table mutation (.keyed key) (some row)

/-- A mutation that resets the row under its entry's key, if there is one. -/
theorem change_of_reset {mutation : Mutation} (kind : Updates mutation)
    (addresses : table.place mutation = table.keyedPlace mutation.entry) {error : Error}
    (absent : mutation.effect none = .error error)
    (present : ∀ row, mutation.effect (some row) = .ok (some (mutation.reset row))) {place : Place}
    {held : Option Row} (addressed : table.place mutation = .ok place)
    (done : mutation.effect (table.row place) = .ok held) : table.Change mutation place held := by
  rw [addresses] at addressed
  obtain ⟨key, -, rfl⟩ := keyedPlace_eq_ok.mp addressed
  cases found : table.row (.keyed key) with
  | none =>
      rw [found, absent] at done
      cases done
  | some old =>
      rw [found, present] at done
      cases done
      exact .updates kind found _

theorem change_of_done {mutation : Mutation} {place : Place} {held : Option Row}
    (addressed : table.place mutation = .ok place)
    (done : mutation.effect (table.row place) = .ok held) : table.Change mutation place held := by
  cases mutation with
  | modifyEntry entry insert =>
      cases isDefault : entry.isDefaultAction with
      | true =>
          simp only [Table.place, isDefault, ↓reduceIte] at addressed
          simp only [Mutation.effect, isDefault, ↓reduceIte] at done
          cases done
          cases insert with
          | true => cases addressed
          | false =>
              cases bare : entry.fieldMatches.isEmpty with
              | false => rw [bare] at addressed; cases addressed
              | true =>
                  rw [bare] at addressed
                  cases addressed
                  exact .setsDefault isDefault _
      | false =>
          simp only [Table.place, isDefault, Bool.false_eq_true, ↓reduceIte] at addressed
          simp only [Mutation.effect, isDefault, Bool.false_eq_true, ↓reduceIte] at done
          obtain ⟨key, -, rfl⟩ := keyedPlace_eq_ok.mp addressed
          cases found : table.row (.keyed key) with
          | none =>
              rw [found] at done
              cases insert <;> cases done
              exact .inserts found _
          | some old =>
              rw [found] at done
              cases insert <;> cases done
              exact .updates (.entry isDefault) found _
  | removeEntry entry =>
      cases isDefault : entry.isDefaultAction with
      | true =>
          simp only [Table.place, isDefault, ↓reduceIte] at addressed
          cases addressed
      | false =>
          simp only [Table.place, isDefault, Bool.false_eq_true, ↓reduceIte] at addressed
          obtain ⟨key, derived, rfl⟩ := keyedPlace_eq_ok.mp addressed
          cases done
          exact .removes ⟨isDefault, derived⟩
  | modifyCounter entry insert =>
      exact change_of_reset (.counter entry insert) rfl rfl (fun _ => rfl) addressed done
  | modifyMeter entry insert =>
      exact change_of_reset (.meter entry insert) rfl rfl (fun _ => rfl) addressed done

/-! ## The default action -/

theorem not_setsDefault_of_ne {done : Done} (other : ∀ entry, done.command ≠ .modify entry) :
    ¬ done.SetsDefault := by
  rintro ⟨entry, same, -, -⟩
  exact other entry same

theorem not_setsDefault_of_error {done : Done} {error : Error}
    (failed : done.outcome.result = .error error) : ¬ done.SetsDefault := by
  rintro ⟨entry, -, -, ok⟩
  cases failed.symm.trans ok

theorem not_setsDefault_of_updates {mutation : Mutation} (kind : Updates mutation)
    (outcome : Outcome) (next : Table) : ¬ (Done.mk (.mutate mutation) outcome next).SetsDefault := by
  rintro ⟨entry, command, isDefault, -⟩
  cases kind with
  | entry ordinary =>
      cases command
      exact Bool.false_ne_true (ordinary.symm.trans isDefault)
  | counter => cases command
  | meter => cases command

/-- A step leaves the default action unset if it was and the step does not set it. -/
theorem defaultRow_perform (table : Table) (command : Command) :
    (table.perform command).after.defaultRow = none ↔
      table.defaultRow = none ∧ ¬ (table.perform command).SetsDefault := by
  cases command with
  | setMatcher matcher =>
      refine (and_iff_left (not_setsDefault_of_ne fun entry same => ?_)).symm
      cases same
  | read request type answer =>
      rw [perform_read]
      refine (and_iff_left (not_setsDefault_of_ne fun entry same => ?_)).symm
      cases same
  | mutate mutation =>
      rcases table.perform_cases mutation with
        ⟨error, refused⟩ | ⟨place, held, addressed, done, performed⟩
      · rw [refused]
        exact (and_iff_left (not_setsDefault_of_error rfl)).symm
      · rw [performed]
        cases change_of_done addressed done with
        | inserts free row =>
            refine (and_iff_left (not_setsDefault_of_ne fun entry same => ?_)).symm
            cases same
        | removes keys =>
            refine (and_iff_left (not_setsDefault_of_ne fun entry same => ?_)).symm
            cases same
        | updates kind held row =>
            exact (and_iff_left (not_setsDefault_of_updates kind _ _)).symm
        | @setsDefault entry isDefault row =>
            exact iff_of_false (Option.some_ne_none row)
              fun unset => unset.2 ⟨entry, rfl, isDefault, rfl⟩

theorem defaultRow_lead (table : Table) (commands : List Command) :
    (table.lead commands).defaultRow = none ↔
      table.defaultRow = none ∧ ∀ done ∈ table.run commands, ¬ done.SetsDefault := by
  induction commands generalizing table with
  | nil => simp [lead, run]
  | cons command rest ih =>
      rw [lead, ih, defaultRow_perform, run, List.forall_mem_cons, and_assoc]

/-! ## Sizes -/

/-- What a place holds counts once, before and after it is set. -/
theorem size_setRow (table : Table) (place : Place) (held : Option Row) :
    (table.setRow place held).size + (table.row place).toList.length =
      table.size + held.toList.length := by
  cases place with
  | default =>
      simp only [setRow, size, row]
      omega
  | keyed key =>
      cases found : table.row (.keyed key) with
      | none =>
          cases held with
          | none => rw [← found, setRow_row]
          | some row =>
              rw [size_setRow_of_none found]
              rfl
      | some old =>
          cases held with
          | none => exact size_setRow_none found
          | some row =>
              rw [size_setRow_of_some found]
              rfl

theorem not_adds_of_error {done : Done} {error : Error} (failed : done.outcome.result = .error error)
    (earlier : List Done) : ¬ done.Adds earlier := by
  rintro (⟨entry, -, ok⟩ | ⟨sets, -⟩)
  · cases failed.symm.trans ok
  · exact not_setsDefault_of_error failed sets

theorem not_adds_of_ne {done : Done} (notInsert : ∀ entry, done.command ≠ .insert entry)
    (notSet : ¬ done.SetsDefault) (earlier : List Done) : ¬ done.Adds earlier := by
  rintro (⟨entry, same, -⟩ | ⟨sets, -⟩)
  · exact notInsert entry same
  · exact notSet sets

theorem not_drops_of_ne {done : Done} (notRemove : ∀ entry, done.command ≠ .remove entry) :
    ¬ done.Drops table := by
  rintro ⟨entry, key, row, same, -, -⟩
  exact notRemove entry same

/-- A removal by a key that is there is not refused. -/
theorem not_drops_of_error {command : Command} {error : Error} {next : Table}
    (refused : table.perform command = ⟨command, ⟨.error error, []⟩, next⟩) :
    ¬ (table.perform command).Drops table := by
  rintro ⟨entry, key, row, same, keys, -⟩
  rw [refused] at same
  change command = _ at same
  rw [same, keys.remove] at refused
  cases refused

/-- A command that succeeded added a row, took one away or did neither, and the size went with it. -/
theorem size_of_change {mutation : Mutation} {place : Place} {held : Option Row}
    (change : table.Change mutation place held) {earlier : List Done}
    (known : table.defaultRow = none ↔ ∀ before ∈ earlier, ¬ before.SetsDefault) :
    let done := Done.mk (.mutate mutation) ⟨.ok (), []⟩ (table.setRow place held)
    (done.Adds earlier ∧ done.after.size = table.size + 1) ∨
    (done.Drops table ∧ done.after.size + 1 = table.size) ∨
    (¬ done.Adds earlier ∧ ¬ done.Drops table ∧ done.after.size = table.size) := by
  intro done
  have sizes := table.size_setRow place held
  cases change with
  | @inserts entry key free row =>
      rw [free] at sizes
      exact .inl ⟨.inserts entry rfl rfl, sizes⟩
  | @setsDefault entry isDefault row =>
      have sets : done.SetsDefault := ⟨entry, rfl, isDefault, rfl⟩
      cases before : table.row .default with
      | none =>
          rw [before] at sizes
          exact .inl ⟨.setsFirst sets (known.mp before), sizes⟩
      | some old =>
          rw [before] at sizes
          refine .inr (.inr ⟨?_, not_drops_of_ne fun other same => ?_, Nat.succ_inj.mp sizes⟩)
          · rintro (⟨other, same, -⟩ | ⟨-, first⟩)
            · cases same
            · cases (known.mpr first).symm.trans before
          · cases same
  | @removes entry key keys =>
      cases found : table.row (.keyed key) with
      | none =>
          rw [found] at sizes
          refine .inr (.inr ⟨not_adds_of_ne (fun other same => ?_)
            (not_setsDefault_of_ne fun other same => ?_) earlier, ?_, sizes⟩)
          · cases same
          · cases same
          · rintro ⟨entry', key', row, same, keys', held⟩
            cases same
            cases keys.keyed.symm.trans keys'.keyed
            cases found.symm.trans held
      | some old =>
          rw [found] at sizes
          exact .inr (.inl ⟨⟨entry, key, old, rfl, keys, found⟩, sizes⟩)
  | updates kind held row =>
      rw [held] at sizes
      refine .inr (.inr ⟨not_adds_of_ne (fun other same => ?_)
        (not_setsDefault_of_updates kind _ _) earlier, not_drops_of_ne fun other same => ?_,
        Nat.succ_inj.mp sizes⟩)
      · cases kind <;> cases same
      · cases kind <;> cases same

theorem size_perform (table : Table) (command : Command) {earlier : List Done}
    (known : table.defaultRow = none ↔ ∀ before ∈ earlier, ¬ before.SetsDefault) :
    let done := table.perform command
    (done.Adds earlier ∧ done.after.size = table.size + 1) ∨
    (done.Drops table ∧ done.after.size + 1 = table.size) ∨
    (¬ done.Adds earlier ∧ ¬ done.Drops table ∧ done.after.size = table.size) := by
  intro done
  have quiet (notMutate : ∀ mutation, command ≠ .mutate mutation) :
      ¬ done.Adds earlier ∧ ¬ done.Drops table := by
    have other (mutation : Mutation) : done.command ≠ .mutate mutation := by
      rw [command_perform]
      exact notMutate mutation
    exact ⟨not_adds_of_ne (fun entry => other _) (not_setsDefault_of_ne fun entry => other _) earlier,
      not_drops_of_ne fun entry => other _⟩
  cases command with
  | setMatcher matcher =>
      obtain ⟨notAdds, notDrops⟩ := quiet fun mutation => Command.noConfusion
      exact .inr (.inr ⟨notAdds, notDrops, rfl⟩)
  | read request type answer =>
      obtain ⟨notAdds, notDrops⟩ := quiet fun mutation => Command.noConfusion
      have unchanged : done.after = table := congrArg Done.after (table.perform_read request type answer)
      exact .inr (.inr ⟨notAdds, notDrops, congrArg size unchanged⟩)
  | mutate mutation =>
      rcases table.perform_cases mutation with
        ⟨error, refused⟩ | ⟨place, held, addressed, effect, performed⟩
      · have failed : done.outcome.result = .error error :=
          congrArg (fun done => done.outcome.result) refused
        refine .inr (.inr ⟨not_adds_of_error failed earlier, not_drops_of_error refused, ?_⟩)
        exact congrArg (fun done => done.after.size) refused
      · have sized := size_of_change (change_of_done addressed effect) known
        rw [← performed] at sized
        exact sized

theorem not_drops_of_adds {earlier : List Done} {done : Done} (adds : done.Adds earlier) :
    ¬ done.Drops table := by
  rintro ⟨entry, key, row, command, -, -⟩
  rcases adds with ⟨entry', command', -⟩ | ⟨⟨entry', command', -, -⟩, -⟩
  · cases command.symm.trans command'
  · cases command.symm.trans command'

theorem accounts_perform (table : Table) (command : Command) {earlier : List Done}
    (known : table.defaultRow = none ↔ ∀ before ∈ earlier, ¬ before.SetsDefault) :
    (table.perform command).Accounts earlier table := by
  rcases table.size_perform command known with
    ⟨adds, more⟩ | ⟨drops, less⟩ | ⟨notAdds, notDrops, same⟩
  · have notDrops : ¬ (table.perform command).Drops table := not_drops_of_adds adds
    exact ⟨iff_of_true more adds, iff_of_false (by omega) notDrops, fun notAdds => absurd adds notAdds⟩
  · have notAdds : ¬ (table.perform command).Adds earlier := fun adds => not_drops_of_adds adds drops
    exact ⟨iff_of_false (by omega) notAdds, iff_of_true less drops,
      fun _ notDrops => absurd drops notDrops⟩
  · exact ⟨iff_of_false (by omega) notAdds, iff_of_false (by omega) notDrops, fun _ _ => same⟩

/-! ## Entries and reads -/

theorem length_entries (table : Table) : table.entries.length = table.size := by
  rw [entries, List.length_map, List.length_append, Maps.length_values]
  rfl

theorem entries_eq (table : Table) :
    table.entries = table.rows.values.map Row.entry ++ (table.defaultRow.map Row.entry).toList := by
  rw [entries, List.map_append, Option.toList_map]

theorem OwnPlaces.ordinary (own : table.OwnPlaces) {row : Row} (inside : row ∈ table.rows.values) :
    row.entry.isDefaultAction = false := by
  obtain ⟨key, held⟩ := Maps.mem_values.mp inside
  have placed := own (.keyed key) row held
  cases isDefault : row.entry.isDefaultAction with
  | false => rfl
  | true =>
      rw [placeOf, if_pos isDefault] at placed
      cases placed

theorem OwnPlaces.isDefault (own : table.OwnPlaces) {row : Row}
    (held : table.defaultRow = some row) : row.entry.isDefaultAction = true := by
  have placed := own .default row held
  cases ordinary : row.entry.isDefaultAction with
  | true => rfl
  | false =>
      rw [placeOf, if_neg (Bool.eq_false_iff.mp ordinary)] at placed
      obtain ⟨key, -, same⟩ := keyedPlace_eq_ok.mp placed
      cases same

/-- Ordinary entries that agree in their sorted field matches belong to one place. -/
theorem placeOf_of_sort_eq {first second : TableEntry} (ordinary : first.isDefaultAction = false)
    (ordinary' : second.isDefaultAction = false)
    (same : FieldMatch.sort first.fieldMatches = FieldMatch.sort second.fieldMatches) :
    table.placeOf first = table.placeOf second := by
  rw [placeOf, placeOf, if_neg (Bool.eq_false_iff.mp ordinary),
    if_neg (Bool.eq_false_iff.mp ordinary'), keyedPlace, keyedPlace, keyOf, keyOf, Key.ofMatches,
    Key.ofMatches, same]

theorem OwnPlaces.nodup_sort (own : table.OwnPlaces) :
    (table.rows.values.map fun row => FieldMatch.sort row.entry.fieldMatches).Nodup := by
  rw [List.Nodup, List.pairwise_map]
  refine own.distinct_values.imp_of_mem fun {first second} inside inside' apart same => apart ?_
  exact placeOf_of_sort_eq (own.ordinary inside) (own.ordinary inside') same

theorem OwnPlaces.filter_ordinary (own : table.OwnPlaces) :
    (table.entries.filter fun entry => !entry.isDefaultAction) =
      table.rows.values.map Row.entry := by
  rw [entries_eq, List.filter_append, List.filter_eq_self.mpr, List.filter_eq_nil_iff.mpr,
    List.append_nil]
  · intro entry inside
    obtain ⟨row, held, rfl⟩ := Option.map_eq_some_iff.mp (Option.mem_toList.mp inside)
    simp only [own.isDefault held, Bool.not_true, Bool.false_eq_true, not_false_eq_true]
  · intro entry inside
    obtain ⟨row, held, rfl⟩ := List.mem_map.mp inside
    rw [own.ordinary held, Bool.not_false]

/-- A read that succeeded handed over what answers the request. -/
theorem took_of_ok {request : TableEntry} {type : ReadType} {sender : Sender}
    (ok : (table.read request type sender).1 = .ok ()) :
    sender.Took (table.listing request type) (table.read request type sender).2 := by
  rw [read_eq_offer] at ok ⊢
  obtain ⟨takes, same⟩ := Sender.offer_of_ok ok
  rw [same]
  refine ⟨Sender.answer_handed sender _, ?_⟩
  rw [Sender.delivered_handed takes, List.flatten_append, flatten_batches]

theorem OwnPlaces.agrees (own : table.OwnPlaces) : table.Agrees where
  entries := table.length_entries
  read := by
    intro matchesAll request type sender ok
    refine ⟨table.listing request type, took_of_ok ok, ?_, ?_, ?_⟩
    · rw [← table.length_entries, listing_of_all matchesAll, Table.entries, List.length_map,
        List.length_map]
    · rw [listing_of_all matchesAll, Table.entries, List.map_map, List.map_map]
      exact List.map_congr_left fun row _ => row.owner_entity type
    · rintro rfl
      exact listing_entries_of_all matchesAll request
  distinct := by
    rw [own.filter_ordinary, List.map_map]
    exact own.nodup_sort
  last := by
    refine ⟨table.rows.values.map Row.entry, table.defaultRow.map Row.entry, table.entries_eq,
      ?_, ?_⟩
    · intro entry inside
      obtain ⟨row, held, rfl⟩ := List.mem_map.mp inside
      exact own.ordinary held
    · intro entry inside
      obtain ⟨row, held, rfl⟩ := Option.map_eq_some_iff.mp inside
      exact own.isDefault held

/-- After any commands the views of a table agree, and the next command changes its size by the row that
it adds or takes away. -/
theorem views_agree (schema : TableSchema) (batchSize : Nat) (commands : List Command) :
    let start := make schema batchSize
    (start.lead commands).Agrees ∧
    ∀ command, ((start.lead commands).perform command).Accounts (start.run commands)
      (start.lead commands) := by
  intro start
  have reachable : (start.lead commands).Reachable schema batchSize :=
    reachable_lead .made commands
  have unset : start.defaultRow = none := rfl
  refine ⟨reachable.ownPlaces.agrees, fun command => accounts_perform _ command ?_⟩
  rw [defaultRow_lead, unset]
  exact and_iff_right rfl

/-- An entry counts once, and so does the default action, however often they are written. -/
example : ((make accessList 64).run [.insert (host 1), .insert (host 1),
    .modify (.defaultAction 7 (.profileGroup 3)), .modify (.defaultAction 7 (.profileGroup 4)),
    .remove (host 1), .remove (host 1)]).map (fun done => done.after.size) = [1, 1, 2, 2, 1, 1] := by
  decide +kernel

end Table

end MatchAction
