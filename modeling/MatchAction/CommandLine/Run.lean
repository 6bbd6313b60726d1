import MatchAction.CommandLine.Options
import MatchAction.Format.Schema
import MatchAction.LogFilter
import MatchAction.Registry

/-!
# A run of the command line

Tables are made from a schema file, the updates of a second file are applied to them in order, and
the state is read back, one line of JSON for each batch.  An update that fails is reported and
passed over; every other failure ends the run.
-/

namespace MatchAction.CommandLine

/-- Why a run ends early. -/
inductive Failure where
  | config (cause : ConfigError)
  | load (cause : LoadError)
  | read (table : UInt32) (cause : Error)

/-- The messages from the outermost cause in. -/
def Failure.chain : Failure → List String
  | config cause => cause.chain
  | load cause => cause.chain
  | read table cause =>
      let context := s!"reading table {table.toNat} failed"
      match cause with
      | .send reason => [context, cause.message, reason]
      | _ => [context, cause.message]

/-- What a run leaves behind: the batches it printed, the events it reported, and why it failed. -/
structure Report where
  batches : List (List Entity)
  events : List Event
  failure : Option Failure

namespace Report

def exitCode (report : Report) : Nat := if report.failure.isSome then 1 else 0

/-- One line for each batch. -/
def output (report : Report) : String :=
  report.batches.foldl (fun out batch =>
    (Json.write out ((Json.Codec.list Entity.codec).encode batch)).push '\n') ""

/-- The lines of the events that a filter shows. -/
def log (report : Report) (filter : LogFilter) : List String :=
  (report.events.filter filter.shows).map Event.line

def errorChain (report : Report) : List String := report.failure.elim [] Failure.chain

/-- What is said of a failure: its outermost message, then its causes, numbered if there are several. -/
def errorText (report : Report) : String :=
  match report.errorChain with
  | [] => ""
  | [message] => s!"Error: {message}\n"
  | [message, cause] => s!"Error: {message}\n\nCaused by:\n    {cause}\n"
  | message :: causes =>
      let lines := causes.zipIdx.map fun (cause, position) => s!"    {position}: {cause}\n"
      s!"Error: {message}\n\nCaused by:\n" ++ String.join lines

end Report

/-- What each path leads to. -/
abbrev Files := String → File

namespace Options

/-- The configuration: that of a file if one is given, with the batch size replaced by the one given
beside it.  The file's own batch size has to be valid even when it is replaced. -/
def configure (options : Options) (files : Files) : Except ConfigError Config := do
  let config ← match options.config with
    | some path => Config.load path (files path)
    | none => .ok Config.standard
  match options.batchSize with
  | some size => Config.check { config with readBatchSize := size } none
  | none => .ok config

def schemas (options : Options) (files : Files) : Except LoadError (List TableSchema) :=
  (files options.schema).load (.list TableSchema.codec) options.schema

/-- The updates of the script, if one is given. -/
def script (options : Options) (files : Files) : Except LoadError (Option (List Update)) :=
  match options.updates with
  | some path => ((files path).load (.list Update.codec) path).map some
  | none => .ok none

/-- The files that have to be read first: the configuration, then the schemas. -/
def inputs (options : Options) (files : Files) : Except Failure (Config × List TableSchema) := do
  let config ← (options.configure files).mapError .config
  let schemas ← (options.schemas files).mapError .load
  return (config, schemas)

end Options

/-- The state of a script: the registry, the events so far, and the updates applied and seen. -/
structure Progress where
  registry : Registry
  events : Array Event
  applied : Nat
  seen : Nat

namespace Progress

/-- Applies the next update. -/
def apply (progress : Progress) (update : Update) : Progress :=
  let (result, registry, events) := (Registry.write update).on progress.registry []
  let events := progress.events ++ events
  match result with
  | .ok () => ⟨registry, events, progress.applied + 1, progress.seen + 1⟩
  | .error error =>
      ⟨registry, events.push (.updateFailed progress.seen error), progress.applied, progress.seen + 1⟩

end Progress

/-- Applies a script to the registry of a progress, and reports how many updates took effect. -/
def applyScript (progress : Progress) (updates : List Update) : Progress :=
  let done := updates.foldl Progress.apply progress
  { done with events := done.events.push (.updatesApplied done.applied done.seen) }

/-- Reads the state that a script left. -/
def readBack (options : Options) (progress : Progress) : Report :=
  let request := { TableEntry.empty with tableId := options.read }
  let (result, sender) := progress.registry.read request options.readType Sender.willing
  let failure := match result with
    | .ok () => none
    | .error cause => some (.read options.read cause)
  ⟨sender.delivered, progress.events.toList ++ sender.events, failure⟩

def run (options : Options) (files : Files) : Report :=
  match options.inputs files with
  | .error failure => ⟨[], [], some failure⟩
  | .ok (config, schemas) =>
      let (registry, created) := Registry.make schemas config
      let events := schemas.map .schemaRead ++ created ++
        [.tablesLoaded registry.size options.schema]
      let progress : Progress := ⟨registry, events.toArray, 0, 0⟩
      match options.script files with
      | .error cause => ⟨[], events, some (.load cause)⟩
      | .ok none => readBack options progress
      | .ok (some updates) => readBack options (applyScript progress updates)

end MatchAction.CommandLine
