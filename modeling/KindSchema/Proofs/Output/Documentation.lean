import KindSchema.Proofs.Output.Outline

/-!
# Other documentation

A resolved kind with all of its documentation replaced: its description, and the documentation of
its declarations and of the fields of structs, at any depth. Nothing that is done to a kind before
it is rendered depends on documentation.

* `ResolvedKind.withDocs`: the kind with other documentation.
* `ResolvedKind.presented_withDocs`, `ResolvedKind.standaloneSpec_withDocs`,
  `ResolvedKind.reachableDeclarations_withDocs`: what is rendered of it.
-/

namespace KindSchema

variable (text : List String → List String)

/-- The field `f` with its documentation replaced, and that of the fields in its type. -/
def Field.withDocs (f : Field Shape) : Field Shape :=
  { f with type := f.type.recast id text, docs := text f.docs }

/-- The body with the documentation of its fields replaced. -/
def Body.withDocs : Body → Body
  | .struct fields => .struct (Shape.recastFields id text fields)
  | .enum values => .enum values
  | .synonym shape => .synonym (shape.recast id text)

/-- The declaration `d` with all of its documentation replaced. -/
def Declaration.withDocs (d : Declaration) : Declaration :=
  { d with docs := text d.docs, body := d.body.withDocs text }

/-- The kind `k` with all of its documentation replaced. -/
def ResolvedKind.withDocs (k : ResolvedKind) : ResolvedKind :=
  { k with
    description := text k.description
    metadata := k.metadata.withDocs text
    spec := k.spec.withDocs text
    status := k.status.withDocs text
    declarations := k.declarations.map (·.withDocs text) }

/-! ### Shapes -/

namespace Shape

theorem recastFields_eq_map (fields : List (Field Shape)) :
    recastFields id text fields = fields.map (·.withDocs text) := by
  induction fields with
  | nil => rfl
  | cons f fields ih =>
    obtain ⟨name, type, optional, docs⟩ := f
    rw [recastFields, ih]
    rfl

mutual

/-- The names that a shape mentions do not depend on documentation. -/
private theorem names_recast : ∀ shape : Shape, (shape.recast id text).names = shape.names
  | .scalar _ => by rw [recast, names, names]
  | .enum _ => by rw [recast]
  | .array items => by rw [recast, names, names, names_recast items]
  | .map values => by rw [recast, names, names, names_recast values]
  | .struct fields => by rw [recast, names, names, fieldNames_recastFields fields]
  | .named _ => by rw [recast]

private theorem fieldNames_recastFields : ∀ fields : List (Field Shape),
    fieldNames (recastFields id text fields) = fieldNames fields
  | [] => by rw [recastFields]
  | ⟨name, type, optional, docs⟩ :: fields => by
    rw [recastFields, fieldNames, fieldNames, names_recast type, fieldNames_recastFields fields]

end

end Shape

/-- If `change` keeps the names of fields, it keeps their order. -/
theorem MemberOrder.sort_map (order : MemberOrder) {change : Field Shape → Field Shape}
    (hname : ∀ f, (change f).name = f.name) (fields : List (Field Shape)) :
    order.sort (fields.map change) = (order.sort fields).map change := by
  cases order with
  | declared => rfl
  | alphabetical =>
    rw [sort, sort]
    exact (List.map_mergeSort fun f _ g _ => by rw [hname, hname]).symm

namespace Shape

variable (order : MemberOrder)

private theorem sort_recastFields (fields : List (Field Shape)) :
    order.sort (recastFields id text fields) = recastFields id text (order.sort fields) := by
  have hname (f : Field Shape) : (f.withDocs text).name = f.name := rfl
  rw [recastFields_eq_map, recastFields_eq_map]
  exact order.sort_map hname fields

mutual

/-- Members are put in order whatever their documentation is. -/
private theorem arrange_recast : ∀ shape : Shape,
    (shape.recast id text).arrange order = (shape.arrange order).recast id text
  | .scalar _ => by rw [recast, arrange, arrange, recast]
  | .enum _ => by rw [recast, arrange, recast]
  | .array items => by rw [recast, arrange, arrange, recast, arrange_recast items]
  | .map values => by rw [recast, arrange, arrange, recast, arrange_recast values]
  | .struct fields => by
    rw [recast, arrange, arrange, recast, arrangeTypes_recastFields fields, sort_recastFields]
  | .named _ => by rw [recast, arrange, recast]

private theorem arrangeTypes_recastFields : ∀ fields : List (Field Shape),
    arrangeTypes order (recastFields id text fields) =
      recastFields id text (arrangeTypes order fields)
  | [] => by rw [recastFields, arrangeTypes, recastFields]
  | ⟨name, type, optional, docs⟩ :: fields => by
    rw [recastFields, arrangeTypes, arrangeTypes, recastFields, arrange_recast type,
      arrangeTypes_recastFields fields]

end

end Shape

namespace Body

private theorem names_withDocs (body : Body) : (body.withDocs text).names = body.names := by
  cases body with
  | struct fields => exact Shape.fieldNames_recastFields text fields
  | enum values => rfl
  | synonym shape => exact Shape.names_recast text shape

private theorem arrange_withDocs (order : MemberOrder) (body : Body) :
    (body.withDocs text).arrange order = (body.arrange order).withDocs text := by
  cases body with
  | struct fields =>
    rw [withDocs, arrange, arrange, withDocs, Shape.arrangeTypes_recastFields,
      Shape.sort_recastFields]
  | enum values => rfl
  | synonym shape => rw [withDocs, arrange, arrange, withDocs, Shape.arrange_recast]

end Body

/-! ### Kinds -/

namespace ResolvedKind

variable (k : ResolvedKind)

private theorem declaration?_withDocs (name : String) :
    (k.withDocs text).declaration? name = (k.declaration? name).map (·.withDocs text) :=
  List.find?_map

private theorem expandMetadata_withDocs (mode : MetadataMode) :
    (k.withDocs text).expandMetadata mode = (k.expandMetadata mode).withDocs text := by
  have htype : (k.withDocs text).metadata.type = k.metadata.type.recast id text := rfl
  unfold expandMetadata
  cases mode with
  | reference => rfl
  | expanded =>
    rw [htype]
    cases k.metadata.type with
    | named name =>
      rw [Shape.recast]
      dsimp only
      rw [declaration?_withDocs]
      cases k.declaration? name with
      | none => rfl
      | some d =>
        obtain ⟨_, _, body, _⟩ := d
        cases body <;> rfl
    | _ => rfl

private theorem arrange_withDocs (order : MemberOrder) :
    (k.withDocs text).arrange order = (k.arrange order).withDocs text := by
  have hsection (f : Field Shape) :
      (f.withDocs text).withType ((f.withDocs text).type.arrange order) =
        (f.withType (f.type.arrange order)).withDocs text := by
    obtain ⟨name, type, optional, docs⟩ := f
    rw [Field.withDocs, Field.withDocs, Field.withType, Field.withType, Shape.arrange_recast]
  have hdeclarations : (k.declarations.map (·.withDocs text)).map
        (fun d => { d with body := d.body.arrange order }) =
      (k.declarations.map fun d => { d with body := d.body.arrange order }).map
        (·.withDocs text) := by
    rw [List.map_map, List.map_map]
    refine List.map_congr_left fun d _ => ?_
    rw [Function.comp_apply, Function.comp_apply, Declaration.withDocs, Declaration.withDocs,
      Body.arrange_withDocs]
  unfold arrange withDocs
  dsimp only
  rw [hsection, hsection, hsection, hdeclarations]

/-- What is presented of `k` has its documentation replaced where it is replaced in `k`. -/
theorem presented_withDocs (params : Params) :
    (k.withDocs text).presented params = (k.presented params).withDocs text := by
  rw [presented, presented, expandMetadata_withDocs, arrange_withDocs]

private theorem specFields_withDocs :
    (k.withDocs text).specFields = Shape.recastFields id text k.specFields := by
  have htype : (k.withDocs text).spec.type = k.spec.type.recast id text := rfl
  unfold specFields
  rw [htype]
  cases k.spec.type <;> rfl

theorem standaloneSpec_withDocs (params : Params) :
    (k.withDocs text).standaloneSpec params =
      Shape.recastFields id text (k.standaloneSpec params) := by
  rw [standaloneSpec, standaloneSpec, specFields_withDocs, Shape.arrangeTypes_recastFields,
    Shape.sort_recastFields]

private theorem mentions_withDocs (name : String) :
    (k.withDocs text).mentions name = k.mentions name := by
  unfold mentions
  rw [declaration?_withDocs]
  cases k.declaration? name with
  | none => rfl
  | some d => exact d.body.names_withDocs text

/-- The kind `k` depends on the same declarations, whatever its documentation is. -/
theorem reachableDeclarations_withDocs :
    (k.withDocs text).reachableDeclarations =
      k.reachableDeclarations.map (·.withDocs text) := by
  have hmentions : (k.withDocs text).mentions = k.mentions := funext (k.mentions_withDocs text)
  have hdeclared : (k.withDocs text).declarations.map (·.name) = k.declarations.map (·.name) :=
    List.map_map
  have hroots : ((k.withDocs text).envelope.map (·.type)).flatMap (·.names) =
      (k.envelope.map (·.type)).flatMap (·.names) := by
    have hsection (f : Field Shape) : (f.withDocs text).type.names = f.type.names :=
      f.type.names_recast text
    simp only [envelope, withDocs, List.map_cons, List.map_nil, List.flatMap_cons, hsection]
  unfold reachableDeclarations reachable
  rw [hmentions, hdeclared, hroots]
  exact List.filter_map

end ResolvedKind

end KindSchema
