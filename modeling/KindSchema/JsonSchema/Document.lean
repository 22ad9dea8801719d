import KindSchema.Json.Basic
import KindSchema.Output.Arrangement

/-!
# JSON Schemas

The JSON Schema (draft 7) of a kind: an object with the sections as its properties, and a
definition for every declaration that these depend on. Documentation is the description of what it
documents, its lines joined.
-/

namespace KindSchema.JsonSchema

/-- The members of the schema of a leaf type. -/
def scalarSchema : Scalar → List (String × Json)
  | .string => [("type", .string "string")]
  | .dateTime => [("type", .string "string"), ("format", .string "date-time")]
  | .boolean => [("type", .string "boolean")]
  | .int64 => [("type", .string "integer")]
  | .float64 => [("type", .string "number")]
  | .any => []

/-- The members of the schema of an enumeration of `values`. -/
def enumSchema (values : List String) : List (String × Json) :=
  [("type", .string "string"), ("enum", .texts values)]

/-- The members of `schema` with the documentation `docs` added. -/
def describe (docs : List String) (schema : List (String × Json)) : List (String × Json) :=
  if docs.isEmpty then schema
  else schema ++ [("description", .string ("\n".intercalate docs))]

/-- The names of those among `fields` that are not optional. -/
def requiredNames (fields : List (Field Shape)) : List String :=
  (fields.filter fun f => !f.optional).map (·.name)

/-- The members of the schema of a struct of `fields`, given their schemas in `properties`. -/
def objectSchema (fields : List (Field Shape)) (properties : List (String × Json)) :
    List (String × Json) :=
  let names := requiredNames fields
  [("type", .string "object"), ("properties", .object properties)] ++
    if names.isEmpty then [] else [("required", .texts names)]

/-- What a reference to the declaration `name` points to. -/
def definitionPointer (name : String) : String :=
  "#/definitions/" ++ name

mutual

/-- The members of the schema of a shape. -/
def schema : Shape → List (String × Json)
  | .scalar kind => scalarSchema kind
  | .enum values => enumSchema values
  | .array items => [("type", .string "array"), ("items", .object (schema items))]
  | .map values =>
    [("type", .string "object"), ("additionalProperties", .object (schema values))]
  | .struct fields => objectSchema fields (propertySchemas fields)
  | .named name => [("$ref", .string (definitionPointer name))]

/-- The schemas of some fields, by name. -/
def propertySchemas : List (Field Shape) → List (String × Json)
  | [] => []
  | ⟨name, type, _, docs⟩ :: fields =>
    (name, .object (describe docs (schema type))) :: propertySchemas fields

end

/-- The members of the schema of a body. -/
def bodySchema : Body → List (String × Json)
  | .struct fields => schema (.struct fields)
  | .enum values => enumSchema values
  | .synonym shape => schema shape

/-- The schema of `k`. -/
def document (params : Params) (k : ResolvedKind) : Json :=
  let presented := k.presented params
  let definitions := presented.reachableDeclarations.map fun d =>
    (d.name, Json.object (describe d.docs (bodySchema d.body)))
  .object (
    describe k.description
      [("$schema", .string "http://json-schema.org/draft-07/schema#"), ("title", .string k.name)] ++
    schema (.struct presented.envelope) ++
    if definitions.isEmpty then [] else [("definitions", .object definitions)])

/-- The text of the schema of `k`. -/
def text (params : Params) (k : ResolvedKind) : String :=
  (document params k).pretty ++ "\n"

end KindSchema.JsonSchema
