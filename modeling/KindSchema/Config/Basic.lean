import KindSchema.Config.LogLevel
import KindSchema.Output.Generator
import KindSchema.Output.Params
import KindSchema.Run.Pipeline

/-!
# Configurations

A configuration says which kinds to render, with which generators, in which variants, and to
where. Its parts are kept as they are written; `Config.generatorIds`, `Config.effectiveVariants`
and `Config.logLevel` read them, and `Config.validate` checks everything that a run depends on.
-/

namespace KindSchema

/-- What can be wrong with a configuration. -/
inductive ConfigError
  | noKinds
  | noGenerators
  | unknownGenerator (name : String)
  | unknownVariant (name : String)
  /-- Both a single variant and a list of variants are given. -/
  | variantTwice
  | invalidLogLevel (text : String)
  /-- A subdirectory is given for something that is no generator. -/
  | subdirectoryOfUnknown (name : String)
  /-- A subdirectory is given for a generator that is not enabled. -/
  | subdirectoryOfDisabled (name : String)
  | noOutputDirectory
deriving DecidableEq, Repr

/-- The text of an error, followed by those of its causes. -/
def ConfigError.chain : ConfigError → List String
  | .noKinds => ["kinds cannot be empty"]
  | .noGenerators => ["generators cannot be empty"]
  | .unknownGenerator name =>
    ["unknown generator '" ++ name ++ "' (expected one of: " ++
      ", ".intercalate (Generator.all.map Generator.name) ++ ")"]
  | .unknownVariant name =>
    ["unknown variant '" ++ name ++ "' (expected NoParams or WithParams)"]
  | .variantTwice => ["set either variant or variants, not both"]
  | .invalidLogLevel text => ["Invalid log level", LogLevel.unreadable text]
  | .subdirectoryOfUnknown name => ["prefix configured for unknown generator '" ++ name ++ "'"]
  | .subdirectoryOfDisabled name =>
    ["prefix configured for generator '" ++ name ++ "' which is not enabled"]
  | .noOutputDirectory => ["output_dir cannot be empty"]

/-- The text of `e` in one line. -/
def ConfigError.message (e : ConfigError) : String :=
  ": ".intercalate e.chain

/-- Reads `name` as that of a generator. -/
def parseGenerator (name : String) : Except ConfigError Generator :=
  match Generator.ofName? name with
  | some g => .ok g
  | none => .error (.unknownGenerator name)

/-- Reads `name` as that of a variant. -/
def parseVariant (name : String) : Except ConfigError VariantId :=
  match VariantId.ofName? name with
  | some v => .ok v
  | none => .error (.unknownVariant name)

/-- A configuration. -/
structure Config where
  /-- Kind files, or directories of kind files. -/
  kinds : List String
  generators : List String := Generator.defaults.map Generator.name
  /-- A single variant. -/
  variant : Option String := none
  variants : List String := []
  outputDirectory : String := "generated"
  logLevelText : Option String := none
  /-- The subdirectories of generators, in the order of the names. -/
  subdirectories : List (String × String) := []
  /-- The parameters of the variant with parameters. -/
  params : Params := {}
  /-- The directory of the configuration. Paths that are not absolute start from it. -/
  base : Path := ⟨""⟩
deriving DecidableEq, Repr

namespace Config

/-- The generators enabled in `c`, each once, in the order in which they are first named. -/
def generatorIds (c : Config) : Except ConfigError (List Generator) := do
  return (← c.generators.mapM parseGenerator).eraseDups

/-- The names of the variants of a run of `c`; the one that is `requested` takes the place of those
that are configured. -/
def variantNames (c : Config) (requested : Option String) : Except ConfigError (List String) :=
  match requested, c.variant with
  | some name, _ => .ok [name]
  | none, some name => if c.variants.isEmpty then .ok [name] else .error .variantTwice
  | none, none => .ok (if c.variants.isEmpty then [VariantId.noParams.name] else c.variants)

/-- The variants of a run of `c`, each once, in the order in which they are first named. -/
def effectiveVariants (c : Config) (requested : Option String) :
    Except ConfigError (List Variant) := do
  let ids ← (← c.variantNames requested).mapM parseVariant
  return ids.eraseDups.map fun id => { id, params := c.params }

/-- The log level of `c`; the one that is `requested` takes the place of the one that is
configured. -/
def logLevel (c : Config) (requested : Option String) : Except ConfigError LogLevel :=
  match requested.or c.logLevelText with
  | none => .ok LogLevel.standard
  | some text =>
    match LogLevel.ofText? text with
    | some level => .ok level
    | none => .error (.invalidLogLevel text)

/-- The output directory of `c`. -/
def outputPath (c : Config) : Path :=
  c.base.join ⟨c.outputDirectory⟩

/-- The subdirectories of `c` by generator. -/
def subdirectoryList (c : Config) : Except ConfigError (List (Generator × String)) :=
  c.subdirectories.mapM fun (name, subdirectory) => do
    return (← parseGenerator name, subdirectory)

/-- Checks that the subdirectories belong to generators enabled in `c`. -/
def validateSubdirectories (c : Config) : List (String × String) → Except ConfigError Unit
  | [] => .ok ()
  | (name, _) :: rest =>
    if (Generator.ofName? name).isNone then .error (.subdirectoryOfUnknown name)
    else if name ∉ c.generators then .error (.subdirectoryOfDisabled name)
    else c.validateSubdirectories rest

/-- Checks `c`: the first thing that is wrong with it, if there is one. -/
def validate (c : Config) : Except ConfigError Unit := do
  if c.kinds.isEmpty then throw .noKinds
  if c.generators.isEmpty then throw .noGenerators
  let _ ← c.generatorIds
  let _ ← c.effectiveVariants none
  let _ ← c.logLevel none
  c.validateSubdirectories c.subdirectories
  if isBlankText c.outputDirectory then throw .noOutputDirectory

/-- The pipeline of `c`, for the variant `requested` if there is one. -/
def pipeline (c : Config) (requested : Option String) : Except ConfigError Pipeline := do
  return {
    generators := ← c.generatorIds
    variants := ← c.effectiveVariants requested
    subdirectories := ← c.subdirectoryList }

end Config

end KindSchema
