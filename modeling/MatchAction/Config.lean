import MatchAction.File

/-!
# Configuration

The one setting of a registry: how many entities a read hands over at once.  It must not be zero;
whoever makes a configuration is to check that.
-/

namespace MatchAction

structure Config where
  readBatchSize : UInt64
  deriving DecidableEq

/-- Why there is no configuration. -/
inductive ConfigError where
  | load (cause : LoadError)
  /-- The batch size is zero, in the file at a path or wherever else it is given. -/
  | zeroBatchSize (path : Option String)
  deriving DecidableEq

namespace ConfigError

def zeroMessage : String := "read_batch_size must be at least 1"

/-- The messages from the outermost cause in. -/
def chain : ConfigError → List String
  | load cause => cause.chain
  | zeroBatchSize (some path) => [s!"{path}: invalid configuration", zeroMessage]
  | zeroBatchSize none => [zeroMessage]

end ConfigError

namespace Config

open Json

def standard : Config := ⟨64⟩

def fields : Fields (UInt64 × Unit) :=
  .optional "read_batch_size" .unsigned64 standard.readBatchSize .nil

def codec : Codec Config :=
  .strictRecord fields (fun c => (c.readBatchSize, ())) (fun (readBatchSize, ()) => ⟨readBatchSize⟩)

/-- The configuration, if its batch size is not zero; the path is that of its file. -/
def check (config : Config) (path : Option String) : Except ConfigError Config :=
  if config.readBatchSize = 0 then .error (.zeroBatchSize path) else .ok config

/-- Reads and checks a configuration file. -/
def load (path : String) (file : File) : Except ConfigError Config := do
  let config ← (file.load codec path).mapError .load
  config.check (some path)

end Config

end MatchAction
