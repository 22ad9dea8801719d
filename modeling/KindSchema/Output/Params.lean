import KindSchema.Kind.Basic
import KindSchema.Json.Decoding

/-!
# Parameters of a rendering

The switches that a user can set for the variant with parameters, their defaults, and how they are
read from JSON. The variant without parameters always has the defaults in effect.
-/

namespace KindSchema

/-- How the `metadata` section is rendered. -/
inductive MetadataMode
  /-- The shape it refers to in its place. -/
  | expanded
  /-- A reference to the shared declaration. -/
  | reference
deriving DecidableEq, Repr

/-- The name of a mode. -/
def MetadataMode.name : MetadataMode → String
  | .expanded => "inline"
  | .reference => "reference"

/-- The words for the modes. -/
def MetadataMode.words : List (String × MetadataMode) :=
  [("inline", .expanded), ("reference", .reference)]

/-- The order of the members of structs. -/
inductive MemberOrder
  /-- As the schema declares them. -/
  | declared
  /-- By name. -/
  | alphabetical
deriving DecidableEq, Repr

/-- The name of an order. -/
def MemberOrder.name : MemberOrder → String
  | .declared => "declared"
  | .alphabetical => "alphabetical"

/-- The words for the orders. -/
def MemberOrder.words : List (String × MemberOrder) :=
  [("declared", .declared), ("alphabetical", .alphabetical)]

/-- The switches of a rendering. -/
structure Params where
  metadata : MetadataMode := .expanded
  memberOrder : MemberOrder := .declared
  /-- The order of the members of the standalone `spec` declaration. -/
  specDeclarationOrder : MemberOrder := .alphabetical
  /-- The main generator that the headers of files name; no headers if there is none. -/
  header : Option String := none
  /-- The name of the Go package, instead of the machine name of the kind. -/
  package : Option String := none
deriving DecidableEq, Repr

namespace Params

/-- The JSON form of `p`. -/
def toJson (p : Params) : Json :=
  .object [("metadata", .string p.metadata.name),
    ("memberOrder", .string p.memberOrder.name),
    ("specDeclarationOrder", .string p.specDeclarationOrder.name),
    ("header", (p.header.map Json.string).getD .null),
    ("package", (p.package.map Json.string).getD .null)]

open Json in
/-- How parameters are read from JSON within `budget`. Every switch may be left out. -/
def format (budget : Nat) : RecordFormat Params Params where
  title := "struct GeneratorParams"
  keys := ["metadata", "memberOrder", "specDeclarationOrder", "header", "package"]
  empty := {}
  put draft key value :=
    match key with
    | "metadata" => do
      return { draft with metadata := ← decodeChoice budget MetadataMode.words value }
    | "memberOrder" => do
      return { draft with memberOrder := ← decodeChoice budget MemberOrder.words value }
    | "specDeclarationOrder" => do
      return { draft with specDeclarationOrder := ← decodeChoice budget MemberOrder.words value }
    | "header" => do return { draft with header := ← decodeOptionalString value }
    | "package" => do return { draft with package := ← decodeOptionalString value }
    | _ => .ok draft
  finish draft _ := .ok draft

open Json in
/-- The parameters that the JSON text `text` stands for, or the first problem of the text. -/
def ofText (text : String) : Decoded Params := do
  let (reading, trailing) := Reading.ofText text
  let params ← RecordFormat.decode false nestingLimit format reading
  proceed trailing
  return params

end Params

/-- A variant with the parameters it was given. -/
structure Variant where
  id : VariantId
  params : Params := {}
deriving DecidableEq, Repr

/-- The parameters in effect for `v`: those given, or the defaults for the variant without
parameters. -/
def Variant.effective (v : Variant) : Params :=
  match v.id with
  | .noParams => {}
  | .withParams => v.params

end KindSchema
