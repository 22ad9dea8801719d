import KindSchema.Config.Loading

/-!
# Sessions

What a command does: it reads and writes files, tells its user what it has done, and may fail.
What it has told stays told when it fails.
-/

namespace KindSchema

/-- Why a command stops. -/
inductive Failure
  | loading (cause : LoadError)
  | config (cause : ConfigError)
  /-- The configuration in a file was read, but does not hold together. -/
  | invalidConfig (path : Path) (cause : ConfigError)
  /-- A single rendering failed. -/
  | rendering (kind : String) (generator : Generator) (cause : CellError)
  /-- Cells of a run failed. -/
  | cellsFailed (failed total : Nat)
  /-- Cells of a run that writes nothing failed. -/
  | cellsRejected (failed : Nat)
  | invalidLogLevel (text : String)

namespace Failure

/-- The text of a failure, followed by those of its causes. -/
def chain : Failure → List String
  | .loading cause => cause.chain
  | .config cause => cause.chain
  | .invalidConfig path cause => ("Invalid config: " ++ path.text) :: cause.chain
  | .rendering kind generator cause =>
    ["Failed to render " ++ kind ++ " with " ++ generator.name, cause.message]
  | .cellsFailed failed total =>
    [toString failed ++ " of " ++ toString total ++ " cell(s) failed"]
  | .cellsRejected failed => [toString failed ++ " cell(s) failed to generate"]
  | .invalidLogLevel text => [LogLevel.unreadable text]

/-- The text of `f` in one line. -/
def message (f : Failure) : String :=
  ": ".intercalate f.chain

end Failure

/-- What a command has told its user: ordinary text, and text about what went wrong. -/
structure Console where
  out : String := ""
  err : String := ""
deriving DecidableEq, Repr

/-- A part of a command over the files of the monad `m`. -/
abbrev Session (m : Type → Type) := ExceptT Failure (StateT Console m)

namespace Session

variable {m : Type → Type} [Monad m]

/-- Tells the user `text`. -/
def print (text : String) : Session m Unit :=
  modify fun console => { console with out := console.out ++ text }

/-- Tells the user `line`. -/
def say (line : String) : Session m Unit :=
  print (line ++ "\n")

/-- Tells the user `line`, about what went wrong. -/
def warn (line : String) : Session m Unit :=
  modify fun console => { console with err := console.err ++ line ++ "\n" }

/-- Goes on with what `action` has loaded. -/
def loaded {α : Type} (action : m (Except LoadError α)) : Session m α := do
  match ← (action : Session m _) with
  | .ok a => return a
  | .error e => throw (.loading e)

/-- Goes on with the value of `result` unless the configuration is wrong. -/
def orConfigError {α : Type} (result : Except ConfigError α) : Session m α :=
  match result with
  | .ok a => return a
  | .error e => throw (.config e)

/-- Runs `session` from the start: whether it failed, and what it told. -/
def run {α : Type} (session : Session m α) : m (Except Failure α × Console) :=
  StateT.run (ExceptT.run session) {}

end Session

end KindSchema
