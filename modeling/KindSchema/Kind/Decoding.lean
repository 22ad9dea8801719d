import KindSchema.Kind.Basic
import KindSchema.Json.Decoding

/-!
# Kinds from JSON text

`Kind.ofText` reads a kind from its JSON form, or finds the first problem of the text.

A type expression is read in full before its parts are looked at, so that a flaw of the text
inside it wins over a misfit inside it. Two misfits are found while it is read: a `kind` that
names no form, and a second `kind`. Inside another type expression the form may also be given by
its number.

At most `Json.nestingLimit` brackets may be nested in the values that are read.
-/

namespace KindSchema

open Json

/-! ### Fields and structs -/

/-- A field that is being read. -/
structure FieldDraft where
  name : Option String := none
  type : Option TypeExpr := none
  optional : Option Bool := none
  docs : Option (List String) := none

/-- How a field is read within `budget`, given by `decodeType` how its type is read. -/
def fieldFormat (decodeType : Nat → Reading → Decoded TypeExpr) (budget : Nat) :
    RecordFormat FieldDraft (Field TypeExpr) where
  title := "struct Field"
  keys := ["name", "type", "optional", "docs"]
  empty := {}
  put draft key value :=
    match key with
    | "name" => do return { draft with name := some (← decodeString value) }
    | "type" => do return { draft with type := some (← decodeType budget value) }
    | "optional" => do return { draft with optional := some (← decodeBool value) }
    | "docs" => do return { draft with docs := some (← decodeStrings budget value) }
    | _ => .ok draft
  finish draft missing := do
    let name ← required missing "name" draft.name
    let type ← required missing "type" draft.type
    return { name, type, optional := draft.optional.getD false, docs := draft.docs.getD [] }

/-- A struct that is being read. -/
structure StructDraft where
  name : Option (Option String) := none
  docs : Option (List String) := none
  fields : Option (List (Field TypeExpr)) := none

/-- How a struct is read within `budget`, given by `decodeType` how the types of its fields are
read. -/
def structFormat (inside : Bool) (decodeType : Nat → Reading → Decoded TypeExpr) (budget : Nat) :
    RecordFormat StructDraft StructType where
  title := "struct StructType"
  keys := ["name", "docs", "fields"]
  empty := {}
  put draft key value :=
    match key with
    | "name" => do return { draft with name := some (← decodeOptionalString value) }
    | "docs" => do return { draft with docs := some (← decodeStrings budget value) }
    | "fields" => do
      let fields ← decodeList budget
        (fun budget item => RecordFormat.decode inside budget (fieldFormat decodeType) item) value
      return { draft with fields := some fields }
    | _ => .ok draft
  finish draft missing := do
    let fields ← required missing "fields" draft.fields
    return { name := draft.name.getD none, docs := draft.docs.getD [], fields }

/-! ### Type expressions -/

/-- The forms of type expressions. -/
inductive TypeForm
  | scalar
  | enum
  | array
  | map
  | struct
  | reference
deriving DecidableEq

/-- The words for the forms of type expressions, by number. -/
def TypeForm.words : List (String × TypeForm) :=
  [("scalar", .scalar), ("enum", .enum), ("array", .array), ("map", .map), ("struct", .struct),
    ("reference", .reference)]

/-- The form that `r` names. When it is `inside` another type expression, it may be given by
number. -/
def TypeForm.decode (inside : Bool) (r : Reading) : Decoded TypeForm :=
  match inside, r with
  | true, .number numeral =>
    match numeral.number? with
    | some (.natural n) =>
      match words[n]? with
      | some (_, form) => .ok form
      | none => unfit (.invalidValue (.number (.natural n)) "variant index 0 <= i < 6")
    | _ => unexpected "variant identifier" r
  | _, r => decodeIdentifier words r

/-- A struct called `title` with the single key `key`. -/
def singleFormat {α : Type} (title key : String) (decode : Reading → Decoded α) :
    RecordFormat (Option α) α where
  title := title
  keys := [key]
  empty := none
  put _ _ value := do return some (← decode value)
  finish draft missing := required missing key draft

/-- The words for the leaf types. -/
def Scalar.words : List (String × Scalar) :=
  Scalar.all.map fun s => (s.name, s)

/-- What a tagged value holds besides its tag: the further items of an array, or the other members
of an object. -/
inductive Payload
  | items (values : List Reading)
  | members (values : List (Reading × Reading))

/-- Decodes a payload as a struct of the given `format`. -/
def Payload.decode {δ α : Type} (format : RecordFormat δ α) : Payload → Decoded α
  | .items values => format.ofItems values
  | .members values => format.ofMembers values none

/-- Reads the members of a tagged object within `budget`: the form its tag names, and the other
members in order. All of it is read in full. -/
def readTagged (inside : Bool) (budget : Nat) (form : Option TypeForm) :
    List (Reading × Reading) → Decoded (Option TypeForm × List (Reading × Reading))
  | [] => .ok (form, [])
  | (key, value) :: members => do
    if (← ofFlaw key.key) = "kind" then
      if form.isSome then unfit (.duplicateField "kind")
      else
        let form ← TypeForm.decode inside value
        readTagged inside budget (some form) members
    else
      ofFlaw (value.check budget)
      let (form, others) ← readTagged inside budget form members
      return (form, (key, value) :: others)

/-- Decodes `payload` as that of a type expression of a given form. -/
def TypeForm.decodePayload (decodeType : Nat → Reading → Decoded TypeExpr) (budget : Nat)
    (payload : Payload) : TypeForm → Decoded TypeExpr
  | .scalar => do
    return .scalar (← payload.decode
      (singleFormat "struct variant TypeRef::Scalar" "scalar" (decodeChoiceInside Scalar.words)))
  | .enum => do
    return .enum (← payload.decode
      (singleFormat "struct variant TypeRef::EnumLiteral" "values" (decodeStrings budget)))
  | .array => do
    return .array (← payload.decode
      (singleFormat "struct variant TypeRef::Array" "items" (decodeType budget)))
  | .map => do
    return .map (← payload.decode
      (singleFormat "struct variant TypeRef::Map" "values" (decodeType budget)))
  | .struct => do
    return .struct (← payload.decode (structFormat true decodeType budget))
  | .reference => do
    return .reference (← payload.decode
      (singleFormat "struct variant TypeRef::Reference" "name" decodeString))

/-- Decodes a type expression in which at most `levels` others are nested. -/
def TypeExpr.decodeLevels : Nat → Bool → Nat → Reading → Decoded TypeExpr
  | 0, _, _, _ => flawed .malformed
  | levels + 1, inside, budget, r =>
    match r, budget with
    | .array .., 0 | .object .., 0 => flawed .malformed
    | .array [] finish, _ => do
      proceed finish
      unfit (.missingField "kind")
    | .array (tag :: items) finish, budget + 1 => do
      let form ← TypeForm.decode inside tag
      ofFlaw (checkItems budget items)
      proceed finish
      form.decodePayload (decodeLevels levels true) budget (.items items)
    | .object members finish, budget + 1 => do
      let (form, others) ← readTagged inside budget none members
      proceed finish
      let form ← required .missingField "kind" form
      form.decodePayload (decodeLevels levels true) budget (.members others)
    | r, _ => unexpected "internally tagged enum TypeRef" r

/-- Decodes the type expression `r`, which is not inside another one. Every nested one takes a
bracket of `budget`, so there are no more of them than that. -/
def TypeExpr.decode (budget : Nat) (r : Reading) : Decoded TypeExpr :=
  decodeLevels (budget + 1) false budget r

/-- Decodes the struct `r`, which is not inside a type expression. -/
def StructType.decode (budget : Nat) (r : Reading) : Decoded StructType :=
  RecordFormat.decode false budget (structFormat false TypeExpr.decode) r

/-! ### Kinds -/

/-- A definition that is being read. -/
structure DefinitionDraft where
  name : Option String := none
  docs : Option (List String) := none
  type : Option TypeExpr := none

/-- How a definition is read within `budget`. -/
def definitionFormat (budget : Nat) : RecordFormat DefinitionDraft Definition where
  title := "struct Definition"
  keys := ["name", "docs", "type"]
  empty := {}
  put draft key value :=
    match key with
    | "name" => do return { draft with name := some (← decodeString value) }
    | "docs" => do return { draft with docs := some (← decodeStrings budget value) }
    | "type" => do return { draft with type := some (← TypeExpr.decode budget value) }
    | _ => .ok draft
  finish draft missing := do
    let name ← required missing "name" draft.name
    let type ← required missing "type" draft.type
    return { name, docs := draft.docs.getD [], type }

/-- A section that is being read. -/
structure SectionDraft where
  docs : Option (List String) := none
  type : Option TypeExpr := none

/-- How a section is read within `budget`. -/
def sectionFormat (budget : Nat) : RecordFormat SectionDraft MetadataSection where
  title := "struct Section"
  keys := ["docs", "type"]
  empty := {}
  put draft key value :=
    match key with
    | "docs" => do return { draft with docs := some (← decodeStrings budget value) }
    | "type" => do return { draft with type := some (← TypeExpr.decode budget value) }
    | _ => .ok draft
  finish draft missing := do
    let type ← required missing "type" draft.type
    return { docs := draft.docs.getD [], type }

/-- The words for the milestones. -/
def Maturity.words : List (String × Maturity) :=
  Maturity.all.map fun m => (m.name, m)

/-- The words for the variants. -/
def VariantId.words : List (String × VariantId) :=
  VariantId.all.map fun v => (v.name, v)

/-- A kind that is being read. -/
structure KindDraft where
  name : Option String := none
  machineName : Option (Option String) := none
  pluralName : Option (Option String) := none
  description : Option (List String) := none
  maturity : Option Maturity := none
  variants : Option (List VariantId) := none
  metadata : Option MetadataSection := none
  spec : Option StructType := none
  status : Option StructType := none
  definitions : Option (List Definition) := none

/-- How a kind is read within `budget`. -/
def kindFormat (budget : Nat) : RecordFormat KindDraft Kind where
  title := "struct Kind"
  keys := ["name", "machineName", "pluralName", "description", "maturity", "variants", "metadata",
    "spec", "status", "definitions"]
  empty := {}
  put draft key value :=
    match key with
    | "name" => do return { draft with name := some (← decodeString value) }
    | "machineName" => do
      return { draft with machineName := some (← decodeOptionalString value) }
    | "pluralName" => do return { draft with pluralName := some (← decodeOptionalString value) }
    | "description" => do
      return { draft with description := some (← decodeStrings budget value) }
    | "maturity" => do
      return { draft with maturity := some (← decodeChoice budget Maturity.words value) }
    | "variants" => do
      let variants ← decodeList budget (fun budget => decodeChoice budget VariantId.words) value
      return { draft with variants := some variants }
    | "metadata" => do
      let metadata ← RecordFormat.decode false budget sectionFormat value
      return { draft with metadata := some metadata }
    | "spec" => do return { draft with spec := some (← StructType.decode budget value) }
    | "status" => do return { draft with status := some (← StructType.decode budget value) }
    | "definitions" => do
      let definitions ← decodeList budget
        (fun budget => RecordFormat.decode false budget definitionFormat) value
      return { draft with definitions := some definitions }
    | _ => .ok draft
  finish draft missing := do
    let name ← required missing "name" draft.name
    let spec ← required missing "spec" draft.spec
    return {
      name
      givenMachineName := draft.machineName.getD none
      givenPluralName := draft.pluralName.getD none
      description := draft.description.getD []
      maturity := draft.maturity.getD .merged
      variants := draft.variants.getD VariantId.all
      metadata := draft.metadata.getD {}
      spec
      status := draft.status.getD standardStatus
      definitions := draft.definitions.getD [] }

namespace Kind

/-- The kind that the JSON text `text` stands for, or the first problem of the text. -/
def ofText (text : String) : Decoded Kind := do
  let (reading, trailing) := Reading.ofText text
  let kind ← RecordFormat.decode false nestingLimit kindFormat reading
  proceed trailing
  return kind

end Kind

end KindSchema
