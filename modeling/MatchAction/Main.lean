import MatchAction.CommandLine.Run

/-!
# Command line

Reads the files that the options name, prints the batches of the run and, on the other stream, its
log and what is said of its failure.
-/

open MatchAction MatchAction.CommandLine

/-- What a path leads to on this machine. -/
def lookAt (path : String) : IO File := do
  try
    return .content (← IO.FS.readBinFile path)
  catch
    | .noFileOrDirectory .. => return .missing
    | .permissionDenied .. => return .denied
    | _ => return .directory

def usage : String :=
  "usage: --schema FILE [--updates FILE] [--read TABLE] [--read-type TYPE] [--config FILE] " ++
    "[--batch-size SIZE]"

def main (arguments : List String) : IO UInt32 := do
  match Options.ofArguments arguments with
  | none =>
      IO.eprintln usage
      return 2
  | some options =>
      let paths := options.schema :: options.updates.toList ++ options.config.toList
      let found ← paths.mapM fun path => return (path, ← lookAt path)
      let report := run options fun path => (found.lookup path).getD .missing
      let filter := (← IO.getEnv "RUST_LOG").elim LogFilter.standard LogFilter.ofText
      for line in report.log filter do
        IO.eprintln line
      IO.print report.output
      IO.eprint report.errorText
      return UInt32.ofNat report.exitCode
