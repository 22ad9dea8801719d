import KindSchema.Kind.Basic
import KindSchema.Json.Basic

/-!
# Kinds as JSON

The JSON form of kinds and of their parts. A type expression is an object whose member `kind`
tells its form. Names that are not given and empty lists of documentation, of description and of
definitions are left out; everything else is always written.
-/

namespace KindSchema

/-- The member `docs` of an object, left out when there is no documentation. -/
def docsMember (docs : List String) : List (String × Json) :=
  if docs.isEmpty then [] else [("docs", .texts docs)]

/-- The member `key` for a text that may be missing. -/
def optionalMember (key : String) : Option String → List (String × Json)
  | none => []
  | some text => [(key, .string text)]

mutual

/-- The JSON form of a type expression. -/
def TypeExpr.toJson : TypeExpr → Json
  | .scalar s => .object [("kind", .string "scalar"), ("scalar", .string s.name)]
  | .enum values => .object [("kind", .string "enum"), ("values", .texts values)]
  | .array items => .object [("kind", .string "array"), ("items", items.toJson)]
  | .map values => .object [("kind", .string "map"), ("values", values.toJson)]
  | .struct ⟨name, docs, fields⟩ =>
    .object (("kind", .string "struct") :: optionalMember "name" name ++ docsMember docs ++
      [("fields", .array (fieldsToJson fields))])
  | .reference name => .object [("kind", .string "reference"), ("name", .string name)]

/-- The JSON forms of some fields. -/
def fieldsToJson : List (Field TypeExpr) → List Json
  | [] => []
  | ⟨name, type, optional, docs⟩ :: fields =>
    .object ([("name", .string name), ("type", type.toJson), ("optional", .bool optional)] ++
      docsMember docs) :: fieldsToJson fields

end

/-- The JSON form of `s`. -/
def StructType.toJson (s : StructType) : Json :=
  .object (optionalMember "name" s.name ++ docsMember s.docs ++
    [("fields", .array (fieldsToJson s.fields))])

/-- The JSON form of `d`. -/
def Definition.toJson (d : Definition) : Json :=
  .object (("name", .string d.name) :: docsMember d.docs ++ [("type", d.type.toJson)])

/-- The JSON form of `s`, a section given by its type. -/
def MetadataSection.toJson (s : MetadataSection) : Json :=
  .object (docsMember s.docs ++ [("type", s.type.toJson)])

/-- The JSON form of `k`. -/
def Kind.toJson (k : Kind) : Json :=
  .object ([("name", .string k.name)] ++
    optionalMember "machineName" k.givenMachineName ++
    optionalMember "pluralName" k.givenPluralName ++
    (if k.description.isEmpty then [] else [("description", .texts k.description)]) ++
    [("maturity", .string k.maturity.name),
      ("variants", .texts (k.variants.map VariantId.name)),
      ("metadata", k.metadata.toJson),
      ("spec", k.spec.toJson),
      ("status", k.status.toJson)] ++
    (if k.definitions.isEmpty then []
      else [("definitions", .array (k.definitions.map Definition.toJson))]))

/-- The text of `k`. -/
def Kind.toText (k : Kind) : String :=
  k.toJson.compact

end KindSchema
