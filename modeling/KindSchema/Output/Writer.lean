import KindSchema.Files.FileStore
import KindSchema.Output.Generator

/-!
# Writing generated files

A writer puts generated files below an output directory. It can also check that the files that are
there have the content they should, or do nothing but say where files would go.
-/

namespace KindSchema

/-- A generated file, with its path from the output directory. -/
structure GeneratedFile where
  kind : String
  generator : Generator
  variant : VariantId
  path : Path
  content : String
deriving DecidableEq, Repr

/-- What a writer does with a file. -/
inductive WriteMode
  /-- Write it, whatever is there. -/
  | write
  /-- Compare it with the file that is there. -/
  | verify
  /-- Nothing. -/
  | dryRun
deriving DecidableEq, Repr

/-- Why a file could not be written or is not as it should be. -/
inductive WriteError
  | io (path : Path) (cause : FileError)
  /-- The file is missing or has another content. -/
  | stale (path : Path)
deriving DecidableEq, Repr

/-- The text of an error. -/
def WriteError.message : WriteError → String
  | .io path cause => "I/O error at " ++ path.text ++ ": " ++ cause.reason
  | .stale path => "generated output is stale: " ++ path.text

/-- Puts files below an output directory. -/
structure Writer where
  root : Path
  mode : WriteMode := .write
deriving DecidableEq, Repr

namespace Writer

variable {m : Type → Type} [Monad m] [FileStore m]

/-- Writes `content` to `path`, in a directory that is made if it is missing. -/
def put (path : Path) (content : String) : m (Except WriteError Unit) := do
  let parent := path.parent?
  match ← (match parent with
    | some directory => FileStore.makeDirectories directory
    | none => return .ok ()) with
  | .error cause => return .error (.io (parent.getD path) cause)
  | .ok () =>
    match ← FileStore.writeText path content with
    | .error cause => return .error (.io path cause)
    | .ok () => return .ok ()

/-- Compares the file at `path` with `content`. -/
def compare (path : Path) (content : String) : m (Except WriteError Unit) := do
  match ← FileStore.readText path with
  | .ok existing => return if existing = content then .ok () else .error (.stale path)
  | .error .notFound => return .error (.stale path)
  | .error cause => return .error (.io path cause)

/-- Where `file` goes. -/
def target (w : Writer) (file : GeneratedFile) : Path :=
  w.root.join file.path

/-- Does with `file` what the mode of `w` says, and gives its path. -/
def write (w : Writer) (file : GeneratedFile) : m (Except WriteError Path) := do
  let path := w.target file
  let done ← (match w.mode with
    | .write => put path file.content
    | .verify => compare path file.content
    | .dryRun => return .ok ())
  return done.map fun () => path

end Writer

end KindSchema
