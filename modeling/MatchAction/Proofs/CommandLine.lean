import MatchAction.Proofs.AuditTrail
import MatchAction.Proofs.Output

/-!
# A run of the command line

A run goes through its inputs one after the other: the configuration, the schemas, the script and
the table to be read.  If all of them are good, it prints the state that the script leaves, and it
tells on the way which updates failed and how many did not.  If one of them is not, it prints nothing
and fails.  `Options.Give` says what good inputs are, and the stages of a run are compared with it one
by one.
-/

namespace MatchAction

namespace CommandLine

/-! ## Good inputs -/

/-- A file holds a value if it has a text that decodes to the value. -/
def Holds {α : Type} (codec : Json.Codec α) (file : File) (x : α) : Prop :=
  ∃ text, file.text = .ok text ∧ codec.ofText text = .ok x

/-- What a run is made with: a configuration, schemas and updates, none of these without a script. -/
structure Inputs where
  config : Config
  schemas : List TableSchema
  updates : List Update

/-- The outcomes of the updates, each written to what those before it leave, and the registry after
all of them. -/
def Inputs.performed (inputs : Inputs) : List Outcome × Registry :=
  (Registry.make inputs.schemas inputs.config).1.run (inputs.updates.map .write)

/-- The configuration beside the option for the batch size, which must be good even if its batch size
is replaced. -/
structure Options.Own (options : Options) (files : Files) (own : Config) : Prop where
  held : match options.config with
    | some path => Holds Config.codec (files path) own
    | none => own = ⟨64⟩
  positive : own.readBatchSize ≠ 0

namespace Options

variable {options : Options} {files : Files}

end Options

/-! ## The events of a run -/

/-- The events that a run shows without a filter of its own. -/
def shown (events : List Event) : List Event := events.filter LogFilter.standard.shows

/-- The events of the updates that failed, with their positions, the first of which is given. -/
def failures (start : Nat) (outcomes : List Outcome) : List Event :=
  (outcomes.zipIdx start).filterMap fun done =>
    match done.1.result with
    | .ok () => none
    | .error error => some (.updateFailed done.2 error)

theorem failures_append (start : Nat) (first second : List Outcome) :
    failures start (first ++ second) =
      failures start first ++ failures (start + first.length) second := by
  rw [failures, List.zipIdx_append, List.filterMap_append]
  rfl

namespace Progress

/-- Updates lead from one progress to another one: each is written to the registry that the ones before
it left, those that succeed are counted, and those that fail are shown. -/
structure Leads (before : Progress) (updates : List Update) (after : Progress) : Prop where
  registry : after.registry = (before.registry.run (updates.map .write)).2
  applied : after.applied = before.applied +
    (before.registry.run (updates.map .write)).1.countP Outcome.succeeded
  seen : after.seen = before.seen + updates.length
  shown : shown after.events.toList = shown before.events.toList ++
    failures before.seen (before.registry.run (updates.map .write)).1

theorem Leads.refl (progress : Progress) : progress.Leads [] progress :=
  ⟨rfl, rfl, rfl, (List.append_nil _).symm⟩

theorem Leads.trans {before between after : Progress} {first second : List Update}
    (former : before.Leads first between) (latter : between.Leads second after) :
    before.Leads (first ++ second) after := by
  have ran : before.registry.run ((first ++ second).map .write) =
      ((before.registry.run (first.map .write)).1 ++ (between.registry.run (second.map .write)).1,
        (between.registry.run (second.map .write)).2) := by
    rw [List.map_append, Registry.run_append, former.registry]
  refine ⟨?_, ?_, ?_, ?_⟩
  · rw [latter.registry, ran]
  · rw [latter.applied, former.applied, ran, List.countP_append, Nat.add_assoc]
  · rw [latter.seen, former.seen, List.length_append, Nat.add_assoc]
  · rw [latter.shown, former.shown, ran, failures_append, former.seen, Registry.length_run,
      List.length_map, List.append_assoc]

end Progress

/-! ## Reading back -/

/-- The request for the table that is to be read. -/
def Options.request (options : Options) : TableEntry :=
  { TableEntry.empty with tableId := options.read }

end CommandLine

end MatchAction
