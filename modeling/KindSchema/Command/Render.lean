import KindSchema.Command.Session

/-!
# The command `render`

Prints what one generator makes of one kind. If there are several files, each is printed after a
line with its path.
-/

namespace KindSchema

/-- What is given to `render`. -/
structure RenderOptions where
  kind : Path
  generator : String
  variant : String := "NoParams"
  /-- The file of the parameters. -/
  params : Option Path := none
deriving DecidableEq, Repr

/-- The files that `g` makes of the kind `k` in the variant `v`. An aggregate generator makes its
file of `k` alone, and fails if `k` would be left out. -/
def renderFiles (k : Kind) (g : Generator) (v : Variant) : Except CellError (List GeneratedFile) :=
  let pipeline : Pipeline := { generators := [g] }
  if g.isAggregate then
    let output := pipeline.generateAggregate [k] g v
    match output.excluded with
    | failure :: _ => .error failure.error
    | [] => output.file.map ([·])
  else pipeline.generate k g v

/-- The text of some files: of a single one its content, of several their contents, each after its
path. -/
def showFiles : List GeneratedFile → String
  | [file] => file.content
  | files =>
    "\n".intercalate (files.map fun file => "==> " ++ file.path.text ++ " <==\n" ++ file.content)

namespace Session

variable {m : Type → Type} [Monad m] [FileStore m]

/-- The command `render`. -/
def render (options : RenderOptions) : Session m Unit := do
  let params ← (match options.params with
    | some path => loaded (Params.load path)
    | none => return {})
  let k ← loaded (Kind.load options.kind)
  let g ← orConfigError (parseGenerator options.generator)
  let id ← orConfigError (parseVariant options.variant)
  match renderFiles k g { id, params } with
  | .ok files => print (showFiles files)
  | .error cause => throw (.rendering k.name g cause)

end Session

end KindSchema
