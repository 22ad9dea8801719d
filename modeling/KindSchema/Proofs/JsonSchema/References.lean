import KindSchema.JsonSchema.Document
import KindSchema.Proofs.Resolution.Reachability

/-!
# References in a JSON Schema

`Json.references` are the targets of all references in a JSON value, wherever they stand.

* `references_schema`: the schema of a shape refers to the names that the shape mentions.
* `references_document`, `definitions_document`: what the schema of a kind refers to and what it
  defines.
-/

namespace KindSchema

namespace Json

/-- The target of a member with the key `key`, if it is a reference. -/
def target (key : String) : Json → List String
  | .string s => if key = "$ref" then [s] else []
  | .null | .bool _ | .array _ | .object _ => []

mutual

/-- The targets of the references in a value, at any depth. -/
def references : Json → List String
  | .null | .bool _ | .string _ => []
  | .array items => itemReferences items
  | .object members => memberReferences members

/-- The targets of the references in some items. -/
def itemReferences : List Json → List String
  | [] => []
  | item :: items => references item ++ itemReferences items

/-- The targets of the references among some members and in their values. -/
def memberReferences : List (String × Json) → List String
  | [] => []
  | (key, value) :: members =>
    value.target key ++ references value ++ memberReferences members

end

private theorem memberReferences_append (members others : List (String × Json)) :
    memberReferences (members ++ others) = memberReferences members ++ memberReferences others := by
  induction members with
  | nil => rfl
  | cons member members ih =>
    obtain ⟨key, value⟩ := member
    simp only [List.cons_append, memberReferences, ih, List.append_assoc]

/-- A list of texts has no references. -/
private theorem references_texts (lines : List String) : (texts lines).references = [] := by
  rw [texts, references]
  induction lines with
  | nil => rfl
  | cons line lines ih => rw [List.map_cons, itemReferences, references, ih, List.append_nil]

/-- A member that holds an object is not a reference, but the object may have some. -/
private theorem memberReferences_object (key : String) (members others : List (String × Json)) :
    memberReferences ((key, .object members) :: others) =
      memberReferences members ++ memberReferences others := by
  rw [memberReferences, target, references, List.nil_append]

/-- A text under another key is not a reference. -/
private theorem memberReferences_string {key : String} (hkey : key ≠ "$ref") (s : String)
    (others : List (String × Json)) :
    memberReferences ((key, .string s) :: others) = memberReferences others := by
  rw [memberReferences, target, if_neg hkey, references, List.nil_append, List.nil_append]

/-- The member of an object with the key `key`. -/
def member? (key : String) : Json → Option Json
  | .object members => members.lookup key
  | _ => none

end Json

namespace JsonSchema

open Json

/-! ### Parts of a schema -/

private theorem references_scalarSchema (kind : Scalar) :
    memberReferences (scalarSchema kind) = [] := by
  cases kind <;> rfl

private theorem references_enumSchema (values : List String) :
    memberReferences (enumSchema values) = [] := by
  rw [enumSchema, memberReferences_string (by decide), memberReferences, references_texts]
  rfl

/-- Documentation has no references. -/
private theorem references_describe (docs : List String) (members : List (String × Json)) :
    memberReferences (describe docs members) = memberReferences members := by
  unfold describe
  split
  · rfl
  · rw [memberReferences_append, memberReferences_string (by decide), memberReferences,
      List.append_nil]

private theorem references_objectSchema (fields : List (Field Shape))
    (properties : List (String × Json)) :
    memberReferences (objectSchema fields properties) = memberReferences properties := by
  have hrequired : memberReferences (if (requiredNames fields).isEmpty then []
      else [("required", .texts (requiredNames fields))]) = [] := by
    split
    · rfl
    · rw [memberReferences, references_texts]
      rfl
  unfold objectSchema
  dsimp only
  rw [memberReferences_append, hrequired, memberReferences_string (by decide),
    memberReferences_object, memberReferences, List.append_nil, List.append_nil]

mutual

/-- The schema of `shape` refers to the names that `shape` mentions. -/
theorem references_schema : ∀ shape : Shape,
    memberReferences (schema shape) = shape.names.map definitionPointer
  | .scalar kind => by
    rw [schema, references_scalarSchema, Shape.names, List.map_nil]
  | .enum values => by
    rw [schema, references_enumSchema, Shape.names, List.map_nil]
  | .array items => by
    rw [schema, memberReferences_string (by decide), memberReferences_object, memberReferences,
      List.append_nil, references_schema items, Shape.names]
  | .map values => by
    rw [schema, memberReferences_string (by decide), memberReferences_object, memberReferences,
      List.append_nil, references_schema values, Shape.names]
  | .struct fields => by
    rw [schema, references_objectSchema, references_propertySchemas fields, Shape.names]
  | .named name => by
    rw [schema, Shape.names]
    rfl

/-- The schemas of `fields` refer to the names that `fields` mention. -/
theorem references_propertySchemas : ∀ fields : List (Field Shape),
    memberReferences (propertySchemas fields) =
      (Shape.fieldNames fields).map definitionPointer
  | [] => rfl
  | ⟨name, type, optional, docs⟩ :: fields => by
    rw [propertySchemas, memberReferences_object, references_describe, references_schema type,
      references_propertySchemas fields, Shape.fieldNames, List.map_append]

end

/-- The schema of a body refers to the names that the body mentions. -/
private theorem references_bodySchema (b : Body) :
    memberReferences (bodySchema b) = b.names.map definitionPointer := by
  cases b with
  | struct fields =>
    rw [bodySchema, references_schema, Shape.names]
    rfl
  | enum values => exact references_enumSchema values
  | synonym shape => exact references_schema shape

/-! ### The schema of a kind -/

/-- The definition of `d`, with its name. -/
def definition (d : Declaration) : String × Json :=
  (d.name, .object (describe d.docs (bodySchema d.body)))

private theorem references_definitions (declarations : List Declaration) :
    memberReferences (declarations.map definition) =
      (declarations.flatMap (·.body.names)).map definitionPointer := by
  induction declarations with
  | nil => rfl
  | cons d declarations ih =>
    rw [List.map_cons, definition, memberReferences_object, references_describe,
      references_bodySchema, ih, List.flatMap_cons, List.map_append]

variable (params : Params) (k : ResolvedKind)

/-- The schema of `k` refers to what the sections and the declarations mention. -/
theorem references_document : (document params k).references =
    (Shape.fieldNames (k.presented params).envelope ++
      (k.presented params).reachableDeclarations.flatMap (·.body.names)).map
        definitionPointer := by
  have hdefinitions : memberReferences
      (if ((k.presented params).reachableDeclarations.map definition).isEmpty then []
        else [("definitions",
          .object ((k.presented params).reachableDeclarations.map definition))]) =
      ((k.presented params).reachableDeclarations.flatMap (·.body.names)).map
        definitionPointer := by
    rw [← references_definitions]
    split
    · next hempty => rw [List.isEmpty_iff.mp hempty]
    · rw [memberReferences_object, memberReferences, List.append_nil]
  unfold document
  dsimp only
  rw [references, memberReferences_append, memberReferences_append, references_describe,
    memberReferences_string (by decide), memberReferences_string (by decide), memberReferences,
    List.nil_append, references_schema, Shape.names, List.map_append]
  exact congrArg _ hdefinitions

/-- The documentation that is added to `members` is a member of its own. -/
theorem lookup_describe {key : String} (hkey : key ≠ "description") (docs : List String)
    (members : List (String × Json)) : (describe docs members).lookup key = members.lookup key := by
  unfold describe
  split
  · rfl
  · rw [List.lookup_append, List.lookup_cons, beq_eq_false_iff_ne.mpr hkey, List.lookup_nil]
    exact Option.or_none

/-- The schema of a struct has no definitions. -/
private theorem lookup_objectSchema (fields : List (Field Shape))
    (properties : List (String × Json)) :
    (objectSchema fields properties).lookup "definitions" = none := by
  unfold objectSchema
  dsimp only
  split <;> rfl

/-- The schema of `k` defines what the kind depends on. -/
theorem definitions_document : (document params k).member? "definitions" =
    if (k.presented params).reachableDeclarations.isEmpty then none
    else some (.object ((k.presented params).reachableDeclarations.map definition)) := by
  unfold document member?
  dsimp only
  rw [List.lookup_append, List.lookup_append, lookup_describe (by decide), schema,
    lookup_objectSchema, List.isEmpty_map]
  split <;> rfl

end JsonSchema

end KindSchema
