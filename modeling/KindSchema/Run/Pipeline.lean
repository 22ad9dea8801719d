import KindSchema.Output.Header
import KindSchema.Output.Location
import KindSchema.Output.Rendering
import KindSchema.Run.Outcomes

/-!
# Pipelines

A pipeline runs generators in variants over kinds. `Pipeline.plan` renders everything and finds
the conflicts between cells; it touches no file. `Pipeline.run` then hands the files of the cells
that are left to a writer and reports what became of every cell. A cell that fails stops no other.
-/

namespace KindSchema

/-- The generators and variants of a run. -/
structure Pipeline where
  generators : List Generator
  /-- The variants; if there is none, the one without parameters. -/
  variants : List Variant := []
  /-- The subdirectory that is configured for a generator. -/
  subdirectories : List (Generator × String) := []
deriving DecidableEq, Repr

/-- The file of an aggregate cell, and the failures of the kinds that are left out of it. -/
structure AggregateOutput where
  file : Except CellError GeneratedFile
  excluded : List CellFailure

/-- What a run would write, and what it would not. -/
structure Plan where
  outcomes : List Outcome
  /-- The kinds that are left out of aggregate files. -/
  excluded : List CellFailure
  skipped : List CellId

namespace Pipeline

/-- The generators of `p` that render every kind on its own. -/
def perKind (p : Pipeline) : List Generator :=
  p.generators.filter (!·.isAggregate)

/-- The generators of `p` that render all kinds together. -/
def aggregates (p : Pipeline) : List Generator :=
  p.generators.filter (·.isAggregate)

/-- The variants that a run of `p` covers. -/
def effectiveVariants (p : Pipeline) : List Variant :=
  if p.variants.isEmpty then [{ id := .noParams }] else p.variants

/-- The subdirectory of `g` in `p`. -/
def subdirectory? (p : Pipeline) (g : Generator) : Option String :=
  p.subdirectories.lookup g

/-- The file that `g` makes of `kind` in the variant `v`: `content` at `path`, with a header if `v`
has one. -/
def finish (kind : String) (g : Generator) (v : Variant) (path : Path) (content : String) :
    GeneratedFile :=
  { kind, generator := g, variant := v.id, path
    content :=
      match v.effective.header with
      | some main => withHeader path main g.name content
      | none => content }

/-- The files that `g` makes of `k` in the variant `v`. -/
def generate (p : Pipeline) (k : Kind) (g : Generator) (v : Variant) :
    Except CellError (List GeneratedFile) := do
  let resolved ← (k.resolve g.policy).mapError .schema
  let files ← (g.render v.effective resolved).mapError .unsupported
  let directory := kindDirectory resolved.machineName g v.id (p.subdirectory? g)
  return files.map fun f => finish k.name g v (directory.join ⟨f.name⟩) f.content

/-- The kind `k` as it stands in the aggregate file of `kinds`, resolved, or the error for which it
is left out. -/
def memberOf (kinds : List Kind) (g : Generator) (k : Kind) : Except SchemaError ResolvedKind :=
  match machineNameClash? kinds k.name with
  | some clash => .error clash
  | none => k.resolve g.policy

/-- Those of `kinds` that are part of the aggregate file of `g`, by machine name. -/
def membersOf (kinds : List Kind) (g : Generator) : List ResolvedKind :=
  (kinds.filterMap fun k => (memberOf kinds g k).toOption).mergeSort fun a b =>
    decide (a.machineName ≤ b.machineName)

/-- The failures of those of `kinds` that are left out of the aggregate file of `g`. -/
def excludedOf (kinds : List Kind) (g : Generator) (v : VariantId) : List CellFailure :=
  kinds.filterMap fun k =>
    match memberOf kinds g k with
    | .ok _ => none
    | .error e => some { cell := ⟨k.name, g, v⟩, error := .schema e }

/-- The file that `g` makes of all those of `kinds` that have no error of their own. -/
def generateAggregate (p : Pipeline) (kinds : List Kind) (g : Generator) (v : Variant) :
    AggregateOutput where
  file := do
    let content ← (g.renderAll (membersOf kinds g)).mapError .unsupported
    return finish CellId.allKinds g v (aggregatePath g.suffix g v.id (p.subdirectory? g)) content
  excluded := excludedOf kinds g v.id

/-! ### The plan of a run -/

/-- The cells of a run of `p` over `kinds` that are about single kinds: kind by kind, generator by
generator, variant by variant. -/
def cells (p : Pipeline) (kinds : List Kind) : List (Kind × Generator × Variant) :=
  kinds.flatMap fun k =>
    p.perKind.flatMap fun g =>
      p.effectiveVariants.map fun v => (k, g, v)

/-- The cells of a run of `p` that are about all kinds together. -/
def aggregateCells (p : Pipeline) : List (Generator × Variant) :=
  p.aggregates.flatMap fun g => p.effectiveVariants.map fun v => (g, v)

/-- The outcome of the cell of the single kind `k`, `g` and `v`. -/
def outcomeOf (p : Pipeline) (kinds : List Kind) (k : Kind) (g : Generator) (v : Variant) :
    Outcome where
  cell := ⟨k.name, g, v.id⟩
  result :=
    match machineNameClash? kinds k.name with
    | some clash => .error (.schema clash)
    | none => p.generate k g v

/-- What a run of `p` over `kinds` would write. -/
def plan (p : Pipeline) (kinds : List Kind) : Plan :=
  let (rendered, skipped) := (p.cells kinds).partition fun (k, _, v) => k.supports v.id
  let aggregates := p.aggregateCells.map fun (g, v) =>
    (g, v, p.generateAggregate (kinds.filter (·.supports v.id)) g v)
  { outcomes := rejectSharedPaths (
      (rendered.map fun (k, g, v) => p.outcomeOf kinds k g v) ++
      aggregates.map fun (g, v, output) =>
        { cell := ⟨CellId.allKinds, g, v.id⟩, result := output.file.map ([·]) })
    excluded := aggregates.flatMap fun (_, _, output) => output.excluded
    skipped :=
      (skipped.map fun (k, g, v) => ⟨k.name, g, v.id⟩) ++
      p.aggregateCells.flatMap fun (g, v) =>
        (kinds.filter (!·.supports v.id)).map fun k => ⟨k.name, g, v.id⟩ }

/-! ### Runs -/

section

variable {m : Type → Type} [Monad m] [FileStore m]

/-- Writes files with `w` one after the other, up to the first that fails. -/
def writeAll (w : Writer) : List GeneratedFile → m (Except WriteError (List Path))
  | [] => return .ok []
  | file :: files => do
    match ← w.write file with
    | .error e => return .error e
    | .ok path =>
      match ← writeAll w files with
      | .error e => return .error e
      | .ok paths => return .ok (path :: paths)

/-- Writes the files of the cell `o` with `w`, and adds what became of them to `report`. -/
def flush (w : Writer) (report : Report) (o : Outcome) : m Report := do
  match o.result with
  | .error e => return { report with failures := report.failures ++ [⟨o.cell, e⟩] }
  | .ok files =>
    match ← writeAll w files with
    -- The files before the one that failed stay on the disk, but the cell counts as failed.
    | .error e => return { report with failures := report.failures ++ [⟨o.cell, .write e⟩] }
    | .ok paths =>
      return { report with written := report.written ++ paths.map fun path => ⟨o.cell, path⟩ }

/-- Runs `p` over `kinds` with `w` as its writer. -/
def run (p : Pipeline) (w : Writer) (kinds : List Kind) : m Report := do
  let plan := p.plan kinds
  let report ← plan.outcomes.foldlM (flush w)
    { failures := plan.excluded, skipped := plan.skipped }
  return report.sorted

end

/-- Adds to `report` the kind `kind` that could not take part in the run because of `e`: it failed
in every cell it would have had. -/
def reject (p : Pipeline) (kind : String) (e : SchemaError) (report : Report) : Report :=
  let failures := (p.perKind ++ p.aggregates).flatMap fun g =>
    p.effectiveVariants.map fun v => ⟨⟨kind, g, v.id⟩, .schema e⟩
  { report with failures := report.failures ++ failures : Report }.sorted

end Pipeline

end KindSchema
