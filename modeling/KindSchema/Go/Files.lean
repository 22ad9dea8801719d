import KindSchema.Go.Conversion
import KindSchema.Output.Arrangement

/-!
# The Go files of a kind

`typesFile` puts everything in one file: the kind as a struct of its sections, and all
declarations that these depend on.

`sectionFiles` makes four. The first holds the kind, whose members are of types named for the
sections. Each of the others declares one of these types, and the declarations it depends on that
no section before it has claimed.
-/

namespace KindSchema.Go

/-- The package of the files of `k`: the one given in `params`, else the machine name. -/
def packageOf (params : Params) (k : ResolvedKind) : String :=
  params.package.getD k.machineName

/-- The Go file of `k`. -/
def typesFile (params : Params) (k : ResolvedKind) : Except Unsupported File :=
  let presented := k.presented params
  let declarations := presented.reachableDeclarations
  fileOf (packageOf params k)
    (presented.envelope.any (usesTime ·.type) || declarationsUseTime declarations)
    (structDeclaration k.name k.description presented.envelope) declarations

/-! ### Sections -/

/-- The name of the Go type of the section `f`: the identifier made of its name. It is empty if
there is none, but then the kind has no files of sections. -/
def sectionTypeName (f : Field Shape) : String :=
  (Naming.identifier? f.name).getD ""

/-- A Go file with its name. -/
structure NamedFile where
  name : String
  file : File
deriving Repr

/-- The files of some sections; `claimed` holds the names of the declarations in files before
them. -/
def filesOfSections (package : String) (k : ResolvedKind) (claimed : List String) :
    List (Field Shape) → Except Unsupported (List NamedFile)
  | [] => .ok []
  | f :: sections => do
    let declarations := (k.reachable [f.type]).filter fun d => d.name ∉ claimed
    let file ← fileOf package (usesTime f.type || declarationsUseTime declarations)
      (shapeDeclaration (sectionTypeName f) f.docs f.type) declarations
    let rest ← filesOfSections package k (claimed ++ declarations.map (·.name)) sections
    return { name := k.machineName ++ "_" ++ Naming.lower f.name ++ "_gen.go", file } :: rest

/-- The Go files of `k` in sections, that of the kind itself first. -/
def sectionFiles (params : Params) (k : ResolvedKind) : Except Unsupported (List NamedFile) := do
  let presented := k.presented params
  if let some f := presented.envelope.find? (fun f => (Naming.identifier? f.name).isNone) then
    throw (.sectionName f.name)
  let names := presented.envelope.map sectionTypeName
  if let some d := presented.reachableDeclarations.find? (names.contains ·.name) then
    throw (.sectionShadowed d.name)
  let members := presented.envelope.map fun f => f.withType (Shape.named (sectionTypeName f))
  let package := packageOf params k
  let resource ← fileOf package false (structDeclaration k.name k.description members) []
  let rest ← filesOfSections package presented [] presented.envelope
  return { name := k.machineName ++ "_gen.go", file := resource } :: rest

end KindSchema.Go
