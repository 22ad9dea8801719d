import KindSchema.Kind.TypeExpr
import KindSchema.Naming

/-!
# Kinds

A kind is the unit of a schema: an envelope of the three sections `metadata`, `spec` and `status`,
together with definitions of its own that types may refer to by name.

This file holds the type, the shapes that every kind shares (`commonMetadata`, `operatorState`,
`standardStatus`, and the definitions that are built in), and the names derived from a kind.
-/

namespace KindSchema

/-- A named type that references can mean. -/
structure Definition where
  name : String
  docs : List String := []
  type : TypeExpr
deriving DecidableEq, Repr

/-- How far a kind has matured. -/
inductive Maturity
  | merged
  | experimental
  | stable
  | mature
deriving DecidableEq, Repr

namespace Maturity

/-- All milestones, in increasing order. -/
def all : List Maturity := [.merged, .experimental, .stable, .mature]

/-- The name of a milestone. -/
def name : Maturity → String
  | .merged => "merged"
  | .experimental => "experimental"
  | .stable => "stable"
  | .mature => "mature"

/-- The place of a milestone in the order. -/
def rank : Maturity → Nat
  | .merged => 0
  | .experimental => 1
  | .stable => 2
  | .mature => 3

/-- Milestones compare by their rank. -/
instance : Ord Maturity := ⟨fun a b => compare a.rank b.rank⟩

end Maturity

/-- The two modes a kind can be rendered in: with fixed settings, or with settings given by the
user. -/
inductive VariantId
  | noParams
  | withParams
deriving DecidableEq, Repr

namespace VariantId

/-- All variants, in order. -/
def all : List VariantId := [.noParams, .withParams]

/-- The name of a variant. -/
def name : VariantId → String
  | .noParams => "NoParams"
  | .withParams => "WithParams"

/-- The place of a variant in the order. -/
def rank : VariantId → Nat
  | .noParams => 0
  | .withParams => 1

/-- Reads the name of a variant, in either spelling that configurations use. -/
def ofName? : String → Option VariantId
  | "NoParams" | "no-params" => some .noParams
  | "WithParams" | "with-params" => some .withParams
  | _ => none

/-- A variant is read back from its name. -/
@[simp] theorem ofName?_name (v : VariantId) : ofName? v.name = some v := by
  cases v <;> rfl

end VariantId

/-- The name of the built-in definition of the metadata that all kinds share. -/
def commonMetadataName : String := "CommonMetadata"

/-- A section of the envelope whose type may be given by reference. -/
structure MetadataSection where
  docs : List String := []
  type : TypeExpr := .reference commonMetadataName
deriving DecidableEq, Repr

/-! ### Shapes shared by every kind -/

/-- Object metadata shared by all kinds. -/
def commonMetadata : StructType where
  fields := [
    { name := "updateTimestamp", type := .dateTime },
    { name := "createdBy", type := .string },
    { name := "updatedBy", type := .string },
    { name := "uid", type := .string },
    { name := "creationTimestamp", type := .dateTime },
    { name := "deletionTimestamp", type := .dateTime, optional := true },
    { name := "finalizers", type := .array .string },
    { name := "resourceVersion", type := .string },
    { name := "extraFields", type := .map .any
      docs := ["extraFields is reserved for any fields that are pulled from the API server " ++
        "metadata but do not have concrete fields in the CUE metadata"] },
    { name := "labels", type := .map .string }]

/-- The states an operator can report, in order. -/
def operatorStates : List String := ["success", "in_progress", "failed"]

/-- The last evaluation of a resource by one operator. -/
def operatorState : StructType where
  fields := [
    { name := "lastEvaluation", type := .string
      docs := ["lastEvaluation is the ResourceVersion last evaluated"] },
    { name := "state", type := .enum operatorStates
      docs := ["state describes the state of the lastEvaluation.",
        "It is limited to three possible states for machine evaluation."] },
    { name := "descriptiveState", type := .string, optional := true
      docs := ["descriptiveState is an optional more descriptive state field which has no " ++
        "requirements on format"] },
    { name := "details", type := .map .any, optional := true
      docs := ["details contains any extra information that is operator-specific"] }]

/-- The status of a kind that gives none: the states of its operators and a field for extensions. -/
def standardStatus : StructType where
  fields := [
    { name := "operatorStates", type := .map (.struct operatorState), optional := true
      docs := ["operatorStates is a map of operator ID to operator state evaluations.",
        "Any operator which consumes this kind SHOULD add its state evaluation information to " ++
        "this field."] },
    { name := "additionalFields", type := .map .any, optional := true
      docs := ["additionalFields is reserved for future use"] }]

/-- The definitions that any kind can refer to. -/
def builtinDefinitions : List Definition :=
  [{ name := commonMetadataName, type := .struct commonMetadata }]

/-- The built-in definition of `name`. -/
def builtinDefinition? (name : String) : Option Definition :=
  builtinDefinitions.find? (·.name == name)

/-! ### The kind -/

/-- The unit of a schema. Its machine name and plural name are derived from its name unless they are
given. -/
structure Kind where
  name : String
  givenMachineName : Option String := none
  givenPluralName : Option String := none
  description : List String := []
  maturity : Maturity := .merged
  /-- The variants in which the kind may be rendered. -/
  variants : List VariantId := VariantId.all
  metadata : MetadataSection := {}
  spec : StructType
  status : StructType := standardStatus
  definitions : List Definition := []
deriving DecidableEq, Repr

namespace Kind

/-- The name of `k` in paths and packages: the given one, else its name in snake case. -/
def machineName (k : Kind) : String :=
  k.givenMachineName.getD (Naming.snake k.name)

/-- The plural: the given one, else the name followed by `s`. -/
def pluralName (k : Kind) : String :=
  k.givenPluralName.getD (k.name ++ "s")

/-- Whether `k` may be rendered in `variant`. -/
def supports (k : Kind) (variant : VariantId) : Bool :=
  k.variants.contains variant

/-- The definition of `name` in `k`: the first of that name, else the built-in one. -/
def definition? (k : Kind) (name : String) : Option Definition :=
  (k.definitions.find? (·.name == name)).or (builtinDefinition? name)

end Kind

end KindSchema
