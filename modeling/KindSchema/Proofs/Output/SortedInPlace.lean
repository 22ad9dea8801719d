import KindSchema.JsonSchema.Document
import KindSchema.Proofs.Output.Documentation
import KindSchema.Proofs.Resolution.Reachability
import KindSchema.TypeScript.Types

/-!
# Members sorted in place

The members of all structs are put in order once, before a kind is rendered. A renderer could as
well leave the kind alone, and put the members of a struct in order where it comes to write them.
Here the renderers are written that way, and what they write is the same.

* `Shape.arrange_struct`: to arrange a struct is to sort its fields and to arrange their types.
* `ResolvedKind.reachable_arrange`: an arranged kind depends on the declarations that the kind
  depends on, in the same order.
* `TypeScript.typeText_arrange`, `JsonSchema.schema_arrange`: what is written of an arranged shape
  is what is written of the shape with its structs sorted in place, by induction on shapes.
* `TypeScript.moduleText_eq`, `JsonSchema.document_eq`: so it is with what is written of a kind.
-/

namespace KindSchema

/-! ### Shapes -/

namespace Shape

/-- The type of `f` is smaller than a struct that has the field `f`, in whatever order. -/
theorem sizeOf_type_lt {order : MemberOrder} {fields : List (Field Shape)} {f : Field Shape}
    (h : f ∈ order.sort fields) : sizeOf f.type < sizeOf (Shape.struct fields) := by
  have hfield := List.sizeOf_lt_of_mem ((order.sort_perm fields).mem_iff.mp h)
  obtain ⟨name, type, optional, docs⟩ := f
  simp only [Field.mk.sizeOf_spec, Shape.struct.sizeOf_spec] at hfield ⊢
  omega

/-- Induction over shapes, to show `motive`: a struct is settled once the types of its fields
are. -/
@[elab_as_elim]
theorem fieldwiseInduction {motive : Shape → Prop}
    (scalar : ∀ kind, motive (.scalar kind)) (enum : ∀ values, motive (.enum values))
    (named : ∀ name, motive (.named name)) (array : ∀ items, motive items → motive (.array items))
    (map : ∀ values, motive values → motive (.map values))
    (struct : ∀ fields, (∀ f ∈ fields, motive f.type) → motive (.struct fields)) (shape : Shape) :
    motive shape := by
  cases shape with
  | scalar kind => exact scalar kind
  | enum values => exact enum values
  | named name => exact named name
  | array items => exact array items (fieldwiseInduction scalar enum named array map struct items)
  | map values => exact map values (fieldwiseInduction scalar enum named array map struct values)
  | struct fields =>
    exact struct fields fun f hf =>
      fieldwiseInduction scalar enum named array map struct f.type
termination_by sizeOf shape
decreasing_by
  · simp
  · simp
  · have hdeclared : f ∈ MemberOrder.declared.sort fields := hf
    exact sizeOf_type_lt hdeclared

/-- The field `f` with its type arranged. -/
def arrangeType (order : MemberOrder) (f : Field Shape) : Field Shape :=
  f.withType (f.type.arrange order)

variable (order : MemberOrder)

/-- The fields `fields` are sorted before their types are arranged, or after. -/
theorem sort_arrangeTypes (fields : List (Field Shape)) :
    order.sort (arrangeTypes order fields) = (order.sort fields).map (arrangeType order) := by
  have hname (f : Field Shape) : (arrangeType order f).name = f.name := rfl
  rw [arrangeTypes_eq_map]
  exact order.sort_map hname fields

/-- To arrange the struct of `fields` is to sort them and to arrange their types. -/
theorem arrange_struct (fields : List (Field Shape)) :
    (Shape.struct fields).arrange order =
      .struct ((order.sort fields).map (arrangeType order)) := by
  rw [arrange, sort_arrangeTypes]

end Shape

open Shape (arrangeType)

/-! ### Declarations that are depended on -/

namespace ResolvedKind

variable (k : ResolvedKind) (order : MemberOrder)

/-- The arranged kind depends on the declarations that `k` depends on, in the same order. -/
theorem reachable_arrange (roots : List Shape) :
    (k.arrange order).reachable (roots.map (·.arrange order)) =
      (k.reachable roots).map (·.arrange order) := by
  have hroots (name : String) : name ∈ (roots.map (·.arrange order)).flatMap Shape.names ↔
      name ∈ roots.flatMap Shape.names := by
    rw [List.flatMap_map, List.mem_flatMap, List.mem_flatMap]
    exact exists_congr fun s => and_congr_right fun _ => (Shape.names_arrange order s).mem_iff
  have hreached (d : Declaration) (hd : d ∈ k.declarations) :
      d.arrange order ∈ (k.arrange order).reachable (roots.map (·.arrange order)) ↔
        d ∈ k.reachable roots := by
    rw [mem_reachable, mem_reachable, and_iff_right hd, arrange_declarations,
      and_iff_right (List.mem_map_of_mem hd)]
    exact reaches_congr (fun _ _ => within_arrange order) hroots
  -- Both sides select from the same declarations, so it is enough that they agree on each.
  rw [reachable, reachable, arrange_declarations, List.filter_map]
  refine congrArg _ (List.filter_congr fun d hd => Bool.eq_iff_iff.mpr ?_)
  have hiff := hreached d hd
  rw [reachable, reachable, List.mem_filter, List.mem_filter, arrange_declarations,
    and_iff_right hd, and_iff_right (List.mem_map_of_mem hd)] at hiff
  exact hiff

/-- The declarations that are rendered of `k` are those that the sections depend on before anything
is sorted. -/
theorem reachableDeclarations_presented (params : Params) :
    (k.presented params).reachableDeclarations =
      (k.expandMetadata params.metadata).reachableDeclarations.map
        (·.arrange params.memberOrder) := by
  have henvelope (r : ResolvedKind) : (r.arrange params.memberOrder).envelope.map (·.type) =
      (r.envelope.map (·.type)).map (·.arrange params.memberOrder) := rfl
  rw [reachableDeclarations, presented, henvelope]
  exact reachable_arrange _ _ _

theorem presented_envelope (params : Params) : (k.presented params).envelope =
    (k.expandMetadata params.metadata).envelope.map (arrangeType params.memberOrder) :=
  rfl

end ResolvedKind

/-! ### TypeScript -/

namespace TypeScript

/-- The line of the field `f` at a level, ended by `mark`, where its type is written as `type`. -/
def memberText (level : Nat) (mark : String) (f : Field Shape) (type : String) : String :=
  docComment level f.docs ++ indent level ++ propertyName f.name ++
    (if f.optional then "?" else "") ++ ": " ++ type ++ mark ++ "\n"

/-- The text of a type, as `typeText` has it, but with the members of structs sorted in place. -/
def typeTextInPlace (order : MemberOrder) (argument : Bool) (level : Nat) : Shape → String
  | .scalar kind => scalarName kind
  | .enum values => union values
  | .array items => "Array<" ++ typeTextInPlace order true level items ++ ">"
  | .map values => "Record<string, " ++ typeTextInPlace order true level values ++ ">"
  | .struct fields =>
    let line (level : Nat) (mark : String) (f : { f // f ∈ order.sort fields }) : String :=
      memberText level mark f.1 (typeTextInPlace order false level f.1.type)
    if fields.isEmpty then "\x7b\x7d"
    else if argument then
      "\x7b\n" ++ String.join ((order.sort fields).attach.map (line 1 ",")) ++ "\x7d"
    else
      "\x7b\n" ++ String.join ((order.sort fields).attach.map (line (level + 1) ";")) ++
        indent level ++ "\x7d"
  | .named name => name
termination_by shape => sizeOf shape
decreasing_by
  · simp
  · simp
  · exact Shape.sizeOf_type_lt f.2

/-- The lines of `fields`, which are in order, at a level, each ended by `mark`. -/
def membersTextInPlace (order : MemberOrder) (level : Nat) (mark : String)
    (fields : List (Field Shape)) : String :=
  String.join (fields.map fun f =>
    memberText level mark f (typeTextInPlace order false level f.type))

/-- An exported interface with `fields`, which are in order. -/
def interfaceTextInPlace (order : MemberOrder) (name : String) (fields : List (Field Shape)) :
    String :=
  "export interface " ++ name ++ " \x7b\n" ++ membersTextInPlace order 1 ";" fields ++ "\x7d\n"

/-- The text of the declaration `d`. -/
def declarationTextInPlace (order : MemberOrder) (d : Declaration) : String :=
  docComment 0 d.docs ++
    match d.body with
    | .struct fields => interfaceTextInPlace order d.name (order.sort fields)
    | .enum values => "export type " ++ d.name ++ " = " ++ union values ++ ";\n"
    | .synonym shape =>
      "export type " ++ d.name ++ " = " ++ typeTextInPlace order false 0 shape ++ ";\n"

private theorem membersText_eq_join (level : Nat) (mark : String) (fields : List (Field Shape)) :
    membersText level mark fields = String.join (fields.map fun f =>
      memberText level mark f (typeText false level f.type)) := by
  induction fields with
  | nil => rw [membersText]; rfl
  | cons f fields ih =>
    obtain ⟨name, type, optional, docs⟩ := f
    rw [membersText, ih, List.map_cons, String.join_cons, memberText]

/-- The text of a struct, by its fields. -/
private theorem typeText_struct (argument : Bool) (level : Nat) (fields : List (Field Shape)) :
    typeText argument level (.struct fields) =
      if fields.isEmpty then "\x7b\x7d"
      else if argument then "\x7b\n" ++ membersText 1 "," fields ++ "\x7d"
      else "\x7b\n" ++ membersText (level + 1) ";" fields ++ indent level ++ "\x7d" := by
  cases fields with
  | nil => unfold typeText; rfl
  | cons f fields => rw [typeText]; rfl

section InPlace

variable (order : MemberOrder)

private theorem typeTextInPlace_struct (argument : Bool) (level : Nat)
    (fields : List (Field Shape)) :
    typeTextInPlace order argument level (.struct fields) =
      if fields.isEmpty then "\x7b\x7d"
      else if argument then
        "\x7b\n" ++ membersTextInPlace order 1 "," (order.sort fields) ++ "\x7d"
      else
        "\x7b\n" ++ membersTextInPlace order (level + 1) ";" (order.sort fields) ++
          indent level ++ "\x7d" := by
  have hlines (level : Nat) (mark : String) :
      (order.sort fields).attach.map (fun f =>
          memberText level mark f.1 (typeTextInPlace order false level f.1.type)) =
        (order.sort fields).map fun f =>
          memberText level mark f (typeTextInPlace order false level f.type) :=
    List.attach_map_val (f := fun f =>
      memberText level mark f (typeTextInPlace order false level f.type))
  rw [typeTextInPlace]
  simp only [membersTextInPlace, hlines]

/-- The lines of fields whose types are written as if they were sorted in place. -/
private theorem membersText_map {fields : List (Field Shape)}
    (h : ∀ f ∈ fields, ∀ argument level, typeText argument level (f.type.arrange order) =
      typeTextInPlace order argument level f.type) (level : Nat) (mark : String) :
    membersText level mark (fields.map (arrangeType order)) =
      membersTextInPlace order level mark fields := by
  rw [membersText_eq_join, membersTextInPlace, List.map_map]
  refine congrArg String.join (List.map_congr_left fun f hf => ?_)
  exact congrArg (memberText level mark f) (h f hf false level)

/-- What is written of `shape`, arranged, is what is written with structs sorted in place. -/
theorem typeText_arrange (shape : Shape) : ∀ argument level,
    typeText argument level (shape.arrange order) = typeTextInPlace order argument level shape := by
  induction shape using Shape.fieldwiseInduction with
  | scalar kind =>
    intro argument level
    rw [Shape.arrange, typeTextInPlace]
    unfold typeText
    rfl
  | enum values =>
    intro argument level
    rw [Shape.arrange, typeTextInPlace]
    unfold typeText
    rfl
  | array items ih =>
    intro argument level
    rw [Shape.arrange, typeTextInPlace, ← ih]
    conv_lhs => unfold typeText
  | map values ih =>
    intro argument level
    rw [Shape.arrange, typeTextInPlace, ← ih]
    conv_lhs => unfold typeText
  | struct fields ih =>
    intro argument level
    -- Sorting and then arranging the types is the same as arranging them where they are printed.
    have hsorted : ∀ f ∈ order.sort fields, ∀ argument level,
        typeText argument level (f.type.arrange order) =
          typeTextInPlace order argument level f.type :=
      fun f hf => ih f ((order.sort_perm fields).mem_iff.mp hf)
    have hempty : ((order.sort fields).map (arrangeType order)).isEmpty = fields.isEmpty := by
      rw [List.isEmpty_map, (order.sort_perm fields).isEmpty_eq]
    rw [Shape.arrange_struct, typeText_struct, typeTextInPlace_struct, hempty,
      membersText_map order hsorted, membersText_map order hsorted]
  | named name =>
    intro argument level
    rw [Shape.arrange, typeTextInPlace]
    unfold typeText
    rfl

private theorem membersText_arrange (level : Nat) (mark : String) (fields : List (Field Shape)) :
    membersText level mark (fields.map (arrangeType order)) =
      membersTextInPlace order level mark fields :=
  membersText_map order (fun f _ => typeText_arrange order f.type) level mark

private theorem interfaceText_arrange (name : String) (fields : List (Field Shape)) :
    interfaceText name (fields.map (arrangeType order)) =
      interfaceTextInPlace order name fields := by
  unfold interfaceText interfaceTextInPlace
  rw [membersText_arrange]

private theorem declarationText_arrange (d : Declaration) :
    declarationText (d.arrange order) = declarationTextInPlace order d := by
  obtain ⟨name, docs, body, origin⟩ := d
  unfold Declaration.arrange declarationText declarationTextInPlace
  cases body with
  | struct fields =>
    dsimp only [Body.arrange]
    rw [Shape.sort_arrangeTypes, interfaceText_arrange]
  | enum values => dsimp only [Body.arrange]
  | synonym shape =>
    dsimp only [Body.arrange]
    rw [typeText_arrange]

/-- The module of `k`, with the members of structs sorted where they are written: those of the
standalone spec in an order of its own, while the sections stay in the order they have. -/
theorem moduleText_eq (params : Params) (k : ResolvedKind) : moduleText params k =
    interfaceTextInPlace params.memberOrder "spec"
        (params.specDeclarationOrder.sort k.specFields) ++ "\n" ++
      docComment 0 k.description ++
      interfaceTextInPlace params.memberOrder k.name
        (k.expandMetadata params.metadata).envelope ++
      String.join ((k.expandMetadata params.metadata).reachableDeclarations.map fun d =>
        "\n" ++ declarationTextInPlace params.memberOrder d) := by
  have hspec : k.standaloneSpec params = (params.specDeclarationOrder.sort k.specFields).map
      (arrangeType params.memberOrder) := by
    have hname (f : Field Shape) : (arrangeType params.memberOrder f).name = f.name := rfl
    rw [ResolvedKind.standaloneSpec, Shape.arrangeTypes_eq_map]
    exact params.specDeclarationOrder.sort_map hname k.specFields
  unfold moduleText
  dsimp only
  rw [hspec, k.presented_envelope, k.reachableDeclarations_presented, interfaceText_arrange,
    interfaceText_arrange, List.map_map]
  simp only [Function.comp_def, declarationText_arrange]

end InPlace

end TypeScript

/-! ### JSON Schema -/

namespace JsonSchema

/-- The members of the schema of a shape, as `schema` has them, but with the fields of structs
sorted in place. -/
def schemaInPlace (order : MemberOrder) : Shape → List (String × Json)
  | .scalar kind => scalarSchema kind
  | .enum values => enumSchema values
  | .array items => [("type", .string "array"), ("items", .object (schemaInPlace order items))]
  | .map values =>
    [("type", .string "object"), ("additionalProperties", .object (schemaInPlace order values))]
  | .struct fields =>
    objectSchema (order.sort fields) ((order.sort fields).attach.map fun f =>
      (f.1.name, .object (describe f.1.docs (schemaInPlace order f.1.type))))
  | .named name => [("$ref", .string (definitionPointer name))]
termination_by shape => sizeOf shape
decreasing_by
  · simp
  · simp
  · exact Shape.sizeOf_type_lt f.2

/-- The members of the schema of a struct with `fields`, which are in order. -/
def objectSchemaInPlace (order : MemberOrder) (fields : List (Field Shape)) :
    List (String × Json) :=
  objectSchema fields (fields.map fun f =>
    (f.name, .object (describe f.docs (schemaInPlace order f.type))))

/-- The members of the schema of a body, with its structs sorted by `order` in place. -/
def bodySchemaInPlace (order : MemberOrder) : Body → List (String × Json)
  | .struct fields => objectSchemaInPlace order (order.sort fields)
  | .enum values => enumSchema values
  | .synonym shape => schemaInPlace order shape

private theorem propertySchemas_eq_map (fields : List (Field Shape)) :
    propertySchemas fields = fields.map fun f =>
      (f.name, .object (describe f.docs (schema f.type))) := by
  induction fields with
  | nil => rfl
  | cons f fields ih =>
    obtain ⟨name, type, optional, docs⟩ := f
    rw [propertySchemas, ih, List.map_cons]

section InPlace

variable (order : MemberOrder)

private theorem schemaInPlace_struct (fields : List (Field Shape)) :
    schemaInPlace order (.struct fields) = objectSchemaInPlace order (order.sort fields) := by
  rw [schemaInPlace, objectSchemaInPlace]
  exact congrArg _ (List.attach_map_val (f := fun f : Field Shape =>
    (f.name, Json.object (describe f.docs (schemaInPlace order f.type)))))

/-- The schema of a struct whose fields have schemas as if they were sorted in place. -/
private theorem objectSchema_map {fields : List (Field Shape)}
    (h : ∀ f ∈ fields, schema (f.type.arrange order) = schemaInPlace order f.type) :
    schema (.struct (fields.map (arrangeType order))) = objectSchemaInPlace order fields := by
  have hrequired : requiredNames (fields.map (arrangeType order)) = requiredNames fields := by
    unfold requiredNames
    rw [List.filter_map, List.map_map]
    rfl
  have hproperties : propertySchemas (fields.map (arrangeType order)) = fields.map fun f =>
      (f.name, .object (describe f.docs (schemaInPlace order f.type))) := by
    rw [propertySchemas_eq_map, List.map_map]
    refine List.map_congr_left fun f hf => ?_
    rw [← h f hf]
    rfl
  rw [schema, objectSchemaInPlace, hproperties]
  unfold objectSchema
  rw [hrequired]

/-- The schema of `shape`, arranged, is what it is with structs sorted in place. -/
theorem schema_arrange (shape : Shape) :
    schema (shape.arrange order) = schemaInPlace order shape := by
  induction shape using Shape.fieldwiseInduction with
  | scalar kind => rw [Shape.arrange, schemaInPlace, schema]
  | enum values => rw [Shape.arrange, schemaInPlace, schema]
  | array items ih => rw [Shape.arrange, schemaInPlace, schema, ih]
  | map values ih => rw [Shape.arrange, schemaInPlace, schema, ih]
  | struct fields ih =>
    rw [Shape.arrange_struct, schemaInPlace_struct]
    exact objectSchema_map order fun f hf => ih f ((order.sort_perm fields).mem_iff.mp hf)
  | named name => rw [Shape.arrange, schemaInPlace, schema]

private theorem schema_struct_arrange (fields : List (Field Shape)) :
    schema (.struct (fields.map (arrangeType order))) = objectSchemaInPlace order fields :=
  objectSchema_map order fun f _ => schema_arrange order f.type

private theorem bodySchema_arrange (body : Body) :
    bodySchema (body.arrange order) = bodySchemaInPlace order body := by
  cases body with
  | struct fields =>
    rw [Body.arrange, bodySchema, Shape.sort_arrangeTypes, bodySchemaInPlace,
      schema_struct_arrange]
  | enum values => rfl
  | synonym shape => rw [Body.arrange, bodySchema, bodySchemaInPlace, schema_arrange]

/-- The schema of `k`, with the fields of structs sorted where they are written, while the sections
stay in the order they have. -/
theorem document_eq (params : Params) (k : ResolvedKind) : document params k =
    let definitions := (k.expandMetadata params.metadata).reachableDeclarations.map fun d =>
      (d.name, Json.object (describe d.docs (bodySchemaInPlace params.memberOrder d.body)))
    .object (
      describe k.description [("$schema", .string "http://json-schema.org/draft-07/schema#"),
        ("title", .string k.name)] ++
      objectSchemaInPlace params.memberOrder (k.expandMetadata params.metadata).envelope ++
      if definitions.isEmpty then [] else [("definitions", .object definitions)]) := by
  have hdefinitions : (k.presented params).reachableDeclarations.map (fun d =>
        (d.name, Json.object (describe d.docs (bodySchema d.body)))) =
      (k.expandMetadata params.metadata).reachableDeclarations.map fun d =>
        (d.name, Json.object (describe d.docs (bodySchemaInPlace params.memberOrder d.body))) := by
    rw [k.reachableDeclarations_presented, List.map_map]
    refine List.map_congr_left fun d _ => ?_
    rw [← bodySchema_arrange]
    rfl
  unfold document
  dsimp only
  rw [hdefinitions, k.presented_envelope, schema_struct_arrange]

end InPlace

end JsonSchema

end KindSchema
