import KindSchema.Command.Session

/-!
# The commands `generate` and `check`

`generate` runs the pipeline of a configuration and writes its files, or checks that the files
that are there are up to date. `check` runs the same pipeline without touching any file. Both
report every cell, and fail if a cell failed.
-/

namespace KindSchema

/-- The configuration file of a command for which none is given. -/
def standardConfigFile : String := "kindgen.toml"

/-- What can be given to `generate`. -/
structure GenerateOptions where
  config : Option String := none
  output : Option String := none
  variant : Option String := none
  logLevel : Option String := none
  /-- Compare with the files that are there instead of writing. -/
  check : Bool := false
deriving DecidableEq, Repr

/-- Adds the kinds of `rejected`, with their errors on loading, to the `report` of a run. -/
def Pipeline.rejectAll (p : Pipeline) (rejected : List (String × SchemaError)) (report : Report) :
    Report :=
  rejected.foldl (fun report (name, e) => p.reject name e report) report

namespace Session

variable {m : Type → Type} [Monad m] [FileStore m]

/-- Reads the configuration at `path` and checks it. -/
def loadValidConfig (path : String) : Session m Config := do
  let c ← loaded (Config.load ⟨path⟩)
  match c.validate with
  | .ok () => return c
  | .error e => throw (.invalidConfig ⟨path⟩ e)

/-- Tells of the cells that `report` counts as failed. -/
def warnOfFailures (report : Report) : Session m Unit :=
  report.failures.forM fun f =>
    warn ("  ✗ " ++ f.cell.text ++ " [" ++ f.error.category ++ "]: " ++ f.error.message)

/-- Runs the pipeline of `c` over its kinds. Kind files that could not be used count as failed
cells. -/
def execute (c : Config) (options : GenerateOptions) : Session m Report := do
  let found ← loaded c.loadKinds
  let root := (options.output.map Path.mk).getD c.outputPath
  let pipeline ← orConfigError (c.pipeline options.variant)
  say ((if options.check then "Checking " else "Generating ") ++ toString found.kinds.length ++
    " kind(s) into " ++ root.text)
  let writer : Writer := { root, mode := if options.check then .verify else .write }
  let report ← (pipeline.run writer found.kinds : m Report)
  return pipeline.rejectAll found.rejected report

/-- The command `generate`. -/
def generate (options : GenerateOptions) : Session m Unit := do
  let c ← loadValidConfig (options.config.getD standardConfigFile)
  let _ ← orConfigError (c.logLevel options.logLevel)
  let report ← execute c options
  report.written.forM fun f => say ("  ✓ " ++ f.path.text)
  report.skipped.forM fun cell => say ("  - " ++ cell.text ++ " (variant not supported by kind)")
  warnOfFailures report
  if !report.isSuccess then
    throw (.cellsFailed report.failures.length (report.failures.length + report.written.length))
  if options.check then say "✓ Generated output is up to date"
  else say ("✓ Generated " ++ toString report.written.length ++ " file(s)")

/-- Renders every cell of `c` without writing, and gives the number of cells that failed. -/
def checkConfig (c : Config) : Session m Nat := do
  let found ← loaded c.loadKinds
  let pipeline ← orConfigError (c.pipeline none)
  let report ← (pipeline.run { root := c.outputPath, mode := .dryRun } found.kinds : m Report)
  let report := pipeline.rejectAll found.rejected report
  report.written.forM fun f => say ("  ✓ " ++ f.cell.text ++ " -> " ++ f.path.text)
  warnOfFailures report
  return report.failures.length

/-- The command `check`. -/
def check (config logLevel : Option String) : Session m Unit := do
  let path := config.getD standardConfigFile
  say ("Checking config: " ++ path)
  let c ← loadValidConfig path
  let _ ← orConfigError (c.logLevel logLevel)
  say "✓ Config is valid"
  let failed ← checkConfig c
  if failed ≠ 0 then throw (.cellsRejected failed)
  say "✓ All kinds generate cleanly"

end Session

end KindSchema
