import KindSchema.Config.Decoding
import KindSchema.Kind.Decoding
import KindSchema.Text.Quoted

/-!
# Loading configurations and kinds

Reading a configuration from a file, finding the kind files it names, and reading the kinds in
them. A kind file that cannot be used is rejected on its own, and so is one that defines a kind of
a name that a file before it has defined.
-/

namespace KindSchema

/-- Why something could not be loaded. -/
inductive LoadError
  | unreadableConfig (path : Path) (cause : FileError)
  | unparsableConfig
  | unreadableDirectory (path : Path) (cause : FileError)
  /-- A directory that is named as one of kind files has none. -/
  | noKindFiles (directory : Path)
  | unreadableKind (path : Path) (cause : FileError)
  | unparsableKind (path : Path) (cause : Json.Problem)
  | unreadableParams (path : Path) (cause : FileError)
  | unparsableParams

namespace LoadError

/-- The text of an error, followed by those of its causes. -/
def chain : LoadError → List String
  | .unreadableConfig path cause =>
    ["Failed to read config: " ++ quoted path.text, cause.reason]
  | .unparsableConfig => ["Failed to parse config"]
  | .unreadableDirectory path cause =>
    ["Failed to read kinds directory: " ++ quoted path.text, cause.reason]
  | .noKindFiles directory => ["no *.json kind files in " ++ quoted directory.text]
  | .unreadableKind path cause => ["Failed to read kind: " ++ quoted path.text, cause.reason]
  | .unparsableKind path cause =>
    ["Failed to parse kind: " ++ quoted path.text, cause.message]
  | .unreadableParams path cause =>
    ["Failed to read params: " ++ quoted path.text, cause.reason]
  | .unparsableParams => ["Failed to parse params"]

/-- The text of `e` in one line. -/
def message (e : LoadError) : String :=
  ": ".intercalate e.chain

end LoadError

/-- The kinds of a configuration, and the files that were rejected by their names without
extension. -/
structure LoadedKinds where
  kinds : List Kind := []
  rejected : List (String × SchemaError) := []

/-- The name of the source at `path`: that of the file without extension, else the whole path. -/
def sourceName (path : Path) : String :=
  path.fileStem?.getD path.text

/-- The error of the kind file at `path` if it cannot be used, with `message` as its reason. -/
def malformedSource (path : Path) (message : String) : String × SchemaError :=
  (sourceName path, .malformed (sourceName path) message)

/-- Adds what the kind file at `path` gave to the kinds loaded before it. -/
def LoadedKinds.add (loaded : LoadedKinds) (path : Path) (kind : Except LoadError Kind) :
    LoadedKinds :=
  match kind with
  | .error e => { loaded with rejected := loaded.rejected ++ [malformedSource path e.message] }
  | .ok k =>
    -- The first file that defines a kind of a name wins.
    if loaded.kinds.any (·.name == k.name) then
      { loaded with
        rejected := loaded.rejected ++
          [malformedSource path ("kind '" ++ k.name ++ "' is defined more than once")] }
    else { loaded with kinds := loaded.kinds ++ [k] }

section

variable {m : Type → Type} [Monad m] [FileStore m]

/-- Reads a configuration from the file at `path`. -/
def Config.load (path : Path) : m (Except LoadError Config) := do
  match ← FileStore.readText path with
  | .error cause => return .error (.unreadableConfig path cause)
  | .ok text =>
    match Config.ofText? text with
    | none => return .error .unparsableConfig
    | some c => return .ok { c with base := path.parent?.getD ⟨""⟩ }

/-- The kind files that the entry `path` of a configuration names: the file itself, or those of a
directory in the order of their paths. -/
def kindFilesAt (path : Path) : m (Except LoadError (List Path)) := do
  if ← FileStore.isDirectory path then
    match ← FileStore.entryNames path with
    | .error cause => return .error (.unreadableDirectory path cause)
    | .ok names =>
      let files := (names.map fun name => path.join ⟨name⟩).filter (·.extension? == some "json")
      if files.isEmpty then return .error (.noKindFiles path)
      else return .ok (files.mergeSort fun a b => (a.compare b).isLE)
  else return .ok [path]

/-- The kind files at some paths. -/
def kindFilesAtAll : List Path → m (Except LoadError (List Path))
  | [] => return .ok []
  | path :: paths => do
    match ← kindFilesAt path with
    | .error e => return .error e
    | .ok files =>
      match ← kindFilesAtAll paths with
      | .error e => return .error e
      | .ok more => return .ok (files ++ more)

/-- The kind files of `c`. -/
def Config.kindFiles (c : Config) : m (Except LoadError (List Path)) :=
  kindFilesAtAll (c.kinds.map fun entry => c.base.join ⟨entry⟩)

/-- Reads a kind from the file at `path`. -/
def Kind.load (path : Path) : m (Except LoadError Kind) := do
  match ← FileStore.readText path with
  | .error cause => return .error (.unreadableKind path cause)
  | .ok text =>
    match Kind.ofText text with
    | .error cause => return .error (.unparsableKind path cause)
    | .ok k => return .ok k

/-- Reads the kinds of `files`. -/
def loadFiles (files : List Path) : m LoadedKinds :=
  files.foldlM (fun loaded path => do return loaded.add path (← Kind.load path)) {}

/-- Reads parameters from the file at `path`. -/
def Params.load (path : Path) : m (Except LoadError Params) := do
  match ← FileStore.readText path with
  | .error cause => return .error (.unreadableParams path cause)
  | .ok text =>
    match Params.ofToml? text with
    | some params => return .ok params
    | none => return .error .unparsableParams

/-- Reads the kinds of `c`. -/
def Config.loadKinds (c : Config) : m (Except LoadError LoadedKinds) := do
  match ← c.kindFiles with
  | .error e => return .error e
  | .ok files => return .ok (← loadFiles files)

end

end KindSchema
