import Mathlib.Data.List.Sort
import KindSchema.Output.Rendering
import KindSchema.Proofs.Resolution.FieldNames
import KindSchema.Proofs.Resolution.Reachability
import KindSchema.Proofs.Resolution.Unfolding

/-!
# Fields in other orders

If members are in alphabetical order, it does not matter in which order the fields of structs are
declared, as long as no struct has two fields of one name: such a struct has one order.

* `Shape.Rearranged`, `ResolvedKind.Rearranged`: other orders of fields, at any depth.
* `MemberOrder.sort_alphabetical_eq_of_perm`: fields with different names have one order.
* `Shape.Rearranged.arrange_eq`: what is rearranged is the same when it is in order.
* `ResolvedKind.arrange_expandMetadata`: metadata may be put in place before or after.
* `render_eq_of_rearranged`: what is rendered of a kind.
-/

namespace KindSchema

/-! ### Orders of fields -/

namespace Shape

mutual

/-- That a shape is another one with the fields of its structs in other orders, at any depth. -/
inductive Rearranged : Shape → Shape → Prop
  | scalar (kind : Scalar) : Rearranged (.scalar kind) (.scalar kind)
  | enum (values : List String) : Rearranged (.enum values) (.enum values)
  | named (name : String) : Rearranged (.named name) (.named name)
  | array {items items' : Shape} (h : Rearranged items items') :
    Rearranged (.array items) (.array items')
  | map {values values' : Shape} (h : Rearranged values values') :
    Rearranged (.map values) (.map values')
  | struct {fields middle fields' : List (Field Shape)} (h : TypesRearranged fields middle)
    (hperm : middle.Perm fields') : Rearranged (.struct fields) (.struct fields')

/-- That fields differ only in their types, one by one, and these only in the orders of fields. -/
inductive TypesRearranged : List (Field Shape) → List (Field Shape) → Prop
  | nil : TypesRearranged [] []
  | cons {f : Field Shape} {type : Shape} {fields fields' : List (Field Shape)}
    (h : Rearranged f.type type) (hfields : TypesRearranged fields fields') :
    TypesRearranged (f :: fields) (f.withType type :: fields')

end

private theorem TypesRearranged.names : ∀ {fields fields' : List (Field Shape)},
    TypesRearranged fields fields' → fields'.map (·.name) = fields.map (·.name)
  | _, _, .nil => rfl
  | _, _, .cons _ hfields => by
    rw [List.map_cons, List.map_cons, TypesRearranged.names hfields, Field.withType]

end Shape

/-- That a body is another one with the fields of its structs in other orders. -/
inductive Body.Rearranged : Body → Body → Prop
  | struct {fields fields' : List (Field Shape)}
    (h : Shape.Rearranged (.struct fields) (.struct fields')) :
    Rearranged (.struct fields) (.struct fields')
  | enum (values : List String) : Rearranged (.enum values) (.enum values)
  | synonym {shape shape' : Shape} (h : shape.Rearranged shape') :
    Rearranged (.synonym shape) (.synonym shape')

/-- That `d'` is `d` with the fields of its structs in other orders. -/
def Declaration.Rearranged (d d' : Declaration) : Prop :=
  ∃ body, d' = { d with body } ∧ d.body.Rearranged body

/-- That `r'` is `r` with the fields of its structs in other orders, in its sections and in its
declarations. -/
structure ResolvedKind.Rearranged (r r' : ResolvedKind) : Prop where
  name_eq : r'.name = r.name
  machineName_eq : r'.machineName = r.machineName
  description_eq : r'.description = r.description
  metadata : Field.Rel Shape.Rearranged r.metadata r'.metadata
  spec : Field.Rel Shape.Rearranged r.spec r'.spec
  status : Field.Rel Shape.Rearranged r.status r'.status
  declarations : List.Forall₂ Declaration.Rearranged r.declarations r'.declarations

/-- That no struct in the sections and declarations of `r` has two fields of one name. -/
structure ResolvedKind.StructsDiffer (r : ResolvedKind) : Prop where
  sections : ∀ f ∈ r.envelope, f.type.FieldsDiffer
  declarations : ∀ d ∈ r.declarations, d.body.shape.FieldsDiffer

namespace Shape

private theorem TypesDiffer.forall {fields : List (Field Shape)} (h : TypesDiffer fields) :
    ∀ f ∈ fields, f.type.FieldsDiffer := by
  induction fields with
  | nil => exact fun f hf => absurd hf List.not_mem_nil
  | cons f fields ih =>
    rw [TypesDiffer] at h
    exact List.forall_mem_cons.mpr ⟨h.1, ih h.2⟩

end Shape

/-- What `k` is resolved to has no such struct. -/
theorem Kind.resolve_structsDiffer {policy : Policy} {k : Kind} {r : ResolvedKind}
    (h : k.resolve policy = .ok r) : r.StructsDiffer := by
  obtain ⟨hsections, hbodies⟩ := Kind.resolve_fieldsDiffer h
  rw [Shape.FieldsDiffer] at hsections
  refine ⟨hsections.2.forall, fun d hd => ?_⟩
  have hbody := hbodies d hd
  cases hcases : d.body with
  | struct fields =>
    rw [hcases] at hbody
    exact hbody
  | enum values =>
    rw [Body.shape, Shape.FieldsDiffer]
    trivial
  | synonym shape =>
    rw [hcases] at hbody
    exact hbody.1

/-! ### Alphabetical order -/

/-- If `fields'` are `fields` in another order, and have different names, both have one alphabetical
order. -/
theorem MemberOrder.sort_alphabetical_eq_of_perm {fields fields' : List (Field Shape)}
    (hperm : fields.Perm fields') (hnodup : (fields.map (·.name)).Nodup) :
    MemberOrder.alphabetical.sort fields = MemberOrder.alphabetical.sort fields' := by
  have hsort := MemberOrder.alphabetical.sort_perm fields
  have hsort' := MemberOrder.alphabetical.sort_perm fields'
  refine (hsort.trans (hperm.trans hsort'.symm)).eq_of_pairwise ?_
    (pairwise_mergeSort_key (·.name) fields) (pairwise_mergeSort_key (·.name) fields')
  intro f g hf hg hle hge
  have hf := hsort.mem_iff.mp hf
  have hg := hperm.mem_iff.mpr (hsort'.mem_iff.mp hg)
  exact List.inj_on_of_nodup_map hnodup hf hg (String.le_antisymm hle hge)

namespace Shape

mutual

/-- The shapes `shape` and `shape'`, if they differ only in the orders of fields, are the same when
they are in order. -/
theorem Rearranged.arrange_eq : ∀ {shape shape' : Shape}, shape.Rearranged shape' →
    shape.FieldsDiffer → shape.arrange .alphabetical = shape'.arrange .alphabetical
  | _, _, .scalar kind, _ => rfl
  | _, _, .enum values, _ => rfl
  | _, _, .named name, _ => rfl
  | _, _, .array h, hdiffer => by
    rw [FieldsDiffer] at hdiffer
    rw [arrange, arrange, Rearranged.arrange_eq h hdiffer]
  | _, _, .map h, hdiffer => by
    rw [FieldsDiffer] at hdiffer
    rw [arrange, arrange, Rearranged.arrange_eq h hdiffer]
  | _, _, @Rearranged.struct fields middle fields' h hperm, hdiffer => by
    rw [FieldsDiffer] at hdiffer
    obtain ⟨hnodup, htypes⟩ := hdiffer
    have hnames : (arrangeTypes .alphabetical middle).map (·.name) = fields.map (·.name) := by
      rw [← h.names, arrangeTypes_eq_map, List.map_map]
      rfl
    have harranged : (arrangeTypes .alphabetical middle).Perm
        (arrangeTypes .alphabetical fields') := by
      rw [arrangeTypes_eq_map, arrangeTypes_eq_map]
      exact hperm.map _
    rw [arrange, arrange, TypesRearranged.arrangeTypes_eq h htypes,
      MemberOrder.sort_alphabetical_eq_of_perm harranged (hnames ▸ hnodup)]

theorem TypesRearranged.arrangeTypes_eq : ∀ {fields fields' : List (Field Shape)},
    TypesRearranged fields fields' → TypesDiffer fields →
      arrangeTypes .alphabetical fields = arrangeTypes .alphabetical fields'
  | _, _, .nil, _ => rfl
  | _, _, .cons h hfields, hdiffer => by
    rw [TypesDiffer] at hdiffer
    rw [Field.withType, arrangeTypes, arrangeTypes, Rearranged.arrange_eq h hdiffer.1,
      TypesRearranged.arrangeTypes_eq hfields hdiffer.2]

end

end Shape

/-- Bodies that differ only in the orders of fields are the same when they are in order. -/
private theorem Body.Rearranged.arrange_eq {b b' : Body} (h : b.Rearranged b')
    (hdiffer : b.shape.FieldsDiffer) : b.arrange .alphabetical = b'.arrange .alphabetical := by
  cases h with
  | struct hfields =>
    have harranged := hfields.arrange_eq hdiffer
    rw [Shape.arrange, Shape.arrange, Shape.struct.injEq] at harranged
    exact congrArg Body.struct harranged
  | enum values => rfl
  | synonym hshape => exact congrArg Body.synonym (hshape.arrange_eq hdiffer)

namespace ResolvedKind

variable {r r' : ResolvedKind}

/-- Kinds that differ only in the orders of fields are the same when they are in order. -/
private theorem Rearranged.arrange_eq (h : r.Rearranged r') (hdiffer : r.StructsDiffer) :
    r.arrange .alphabetical = r'.arrange .alphabetical := by
  have hsection {f f' : Field Shape} (hf : f ∈ r.envelope)
      (hrearranged : Field.Rel Shape.Rearranged f f') :
      f.withType (f.type.arrange .alphabetical) = f'.withType (f'.type.arrange .alphabetical) := by
    obtain ⟨type, rfl, htype⟩ := hrearranged
    exact congrArg f.withType (htype.arrange_eq (hdiffer.sections f hf))
  have hdeclarations : r.declarations.map (·.arrange .alphabetical) =
      r'.declarations.map (·.arrange .alphabetical) := by
    have hall := (List.forall₂_and_left ..).mpr ⟨hdiffer.declarations, h.declarations⟩
    rw [← List.forall₂_eq_eq_eq, List.forall₂_map_left_iff, List.forall₂_map_right_iff]
    refine hall.imp fun d d' ⟨hd, body, hbody, hrearranged⟩ => ?_
    rw [hbody, Declaration.arrange, Declaration.arrange, hrearranged.arrange_eq hd]
  have hmetadata := hsection List.mem_cons_self h.metadata
  have hspec := hsection (List.mem_cons_of_mem _ List.mem_cons_self) h.spec
  have hstatus := hsection (by simp [envelope]) h.status
  have harrange (k : ResolvedKind) : k.arrange .alphabetical = {
      k with
      metadata := k.metadata.withType (k.metadata.type.arrange .alphabetical)
      spec := k.spec.withType (k.spec.type.arrange .alphabetical)
      status := k.status.withType (k.status.type.arrange .alphabetical)
      declarations := k.declarations.map (·.arrange .alphabetical) } := rfl
  rw [harrange, harrange, hmetadata, hspec, hstatus, hdeclarations, h.name_eq, h.machineName_eq,
    h.description_eq]

/-- The metadata of `r` may be put in place before the members are put in order, or after. -/
theorem arrange_expandMetadata (mode : MetadataMode) (order : MemberOrder) (r : ResolvedKind) :
    (r.expandMetadata mode).arrange order = (r.arrange order).expandMetadata mode := by
  have htype : (r.arrange order).metadata.type = r.metadata.type.arrange order := rfl
  unfold expandMetadata
  cases mode with
  | reference => rfl
  | expanded =>
    rw [htype]
    -- A section that names a struct is replaced by it, before or after the members are sorted.
    cases r.metadata.type with
    | named name =>
      rw [Shape.arrange]
      dsimp only
      rw [declaration?_arrange]
      cases r.declaration? name with
      | none => rfl
      | some d =>
        obtain ⟨_, _, body, _⟩ := d
        cases body <;> rfl
    | _ => rfl

/-- The fields of the spec of a kind in order. -/
private theorem specFields_arrange (order : MemberOrder) (r : ResolvedKind) :
    (r.arrange order).specFields = order.sort (Shape.arrangeTypes order r.specFields) := by
  have hnil : order.sort [] = [] := List.perm_nil.mp (order.sort_perm [])
  have htype : (r.arrange order).spec.type = r.spec.type.arrange order := rfl
  unfold specFields
  rw [htype]
  cases r.spec.type with
  | struct fields => rw [Shape.arrange]
  | _ => exact hnil.symm

/-- What a kind is rendered from is the same. -/
private theorem Rearranged.presented_eq (h : r.Rearranged r') (hdiffer : r.StructsDiffer)
    {params : Params} (horder : params.memberOrder = .alphabetical) :
    r.presented params = r'.presented params := by
  rw [presented, presented, horder, arrange_expandMetadata, arrange_expandMetadata,
    h.arrange_eq hdiffer]

private theorem Rearranged.standaloneSpec_eq (h : r.Rearranged r') (hdiffer : r.StructsDiffer)
    {params : Params} (horder : params.memberOrder = .alphabetical)
    (hspec : params.specDeclarationOrder = .alphabetical) :
    r.standaloneSpec params = r'.standaloneSpec params := by
  rw [standaloneSpec, standaloneSpec, horder, hspec, ← specFields_arrange, ← specFields_arrange,
    h.arrange_eq hdiffer]

end ResolvedKind

/-! ### Renderings -/

/-- The index of one kind has one line. -/
private theorem TypeScript.indexText_singleton (k : ResolvedKind) :
    indexText [k] = .ok (exportLine k) := by
  unfold indexText
  rw [List.mergeSort_singleton]
  simp [exportLines, Bind.bind, Except.bind, Pure.pure, Except.pure]

section Renderings

variable {r r' : ResolvedKind} {params : Params}

/-- If `r'` is `r` with fields declared in other orders, it is rendered alike in alphabetical order,
provided that no struct has two fields of one name: the files of each generator are the same, and so
are the errors of one that fails. -/
theorem render_eq_of_rearranged (horder : params.memberOrder = .alphabetical)
    (hspec : params.specDeclarationOrder = .alphabetical) (hdiffer : r.StructsDiffer)
    (h : r.Rearranged r') :
    (∀ g : Generator, g.render params r = g.render params r') ∧
      JsonSchema.document params r = JsonSchema.document params r' := by
  -- Every renderer starts from the presented kind or from the standalone spec.
  have hpresented := h.presented_eq hdiffer horder
  have hstandalone := h.standaloneSpec_eq hdiffer horder hspec
  have hmodule : TypeScript.moduleText params r = TypeScript.moduleText params r' := by
    unfold TypeScript.moduleText
    rw [hpresented, hstandalone, h.name_eq, h.description_eq]
  have hdocument : JsonSchema.document params r = JsonSchema.document params r' := by
    unfold JsonSchema.document
    rw [hpresented, h.name_eq, h.description_eq]
  have hpackage : Go.packageOf params r = Go.packageOf params r' := by
    rw [Go.packageOf, Go.packageOf, h.machineName_eq]
  have htypes : Go.typesFile params r = Go.typesFile params r' := by
    unfold Go.typesFile
    rw [hpresented, hpackage, h.name_eq, h.description_eq]
  have hsections : Go.sectionFiles params r = Go.sectionFiles params r' := by
    unfold Go.sectionFiles
    rw [hpresented, hpackage, h.name_eq, h.machineName_eq, h.description_eq]
  have hline : TypeScript.exportLine r = TypeScript.exportLine r' := by
    unfold TypeScript.exportLine
    rw [h.name_eq, h.machineName_eq]
  have hindex : TypeScript.indexText [r] = TypeScript.indexText [r'] := by
    rw [TypeScript.indexText_singleton, TypeScript.indexText_singleton, hline]
  refine ⟨fun g => ?_, hdocument⟩
  unfold Generator.render
  cases g with
  | tsTypes => rw [hmodule, h.machineName_eq]
  | goTypes => rw [htypes, h.machineName_eq]
  | jsonSchema => rw [JsonSchema.text, JsonSchema.text, hdocument, h.machineName_eq]
  | goSectionTypes => rw [hsections]
  | tsIndex => rw [hindex]

end Renderings

namespace Sample

/-- A kind with `origin` as its metadata, by a declaration, and `fields` as its spec. -/
def atlasWith (origin fields : List (Field Shape)) : ResolvedKind where
  name := "Atlas"
  machineName := "atlas"
  description := []
  metadata := { name := "metadata", type := .named "Origin" }
  spec := { name := "spec", type := .struct fields }
  status := { name := "status", type := .struct [] }
  declarations := [⟨"Origin", [], .struct origin, .defined⟩]

/-- The kind. -/
def atlas : ResolvedKind :=
  atlasWith
    [{ name := "year", type := .scalar .int64 }, { name := "house", type := .scalar .string }]
    [{ name := "title", type := .scalar .string },
      { name := "maps", type := .array (.struct [
        { name := "scale", type := .scalar .float64 },
        { name := "area", type := .scalar .string, optional := true }]) }]

/-- The kind with the fields of all its structs in other orders. -/
def atlasRearranged : ResolvedKind :=
  atlasWith
    [{ name := "house", type := .scalar .string }, { name := "year", type := .scalar .int64 }]
    [{ name := "maps", type := .array (.struct [
        { name := "area", type := .scalar .string, optional := true },
        { name := "scale", type := .scalar .float64 }]) },
      { name := "title", type := .scalar .string }]

private theorem structsDiffer_atlas : atlas.StructsDiffer := by
  constructor
  · simp [atlas, atlasWith, ResolvedKind.envelope, Shape.FieldsDiffer, Shape.TypesDiffer]
  · simp [atlas, atlasWith, Body.shape, Shape.FieldsDiffer, Shape.TypesDiffer]

private theorem atlas_rearranged : atlas.Rearranged atlasRearranged where
  name_eq := rfl
  machineName_eq := rfl
  description_eq := rfl
  metadata := ⟨_, rfl, .named "Origin"⟩
  spec := ⟨_, rfl, .struct
    (.cons (.scalar .string) (.cons (.array (.struct
      (.cons (.scalar .float64) (.cons (.scalar .string) .nil)) (.swap _ _ _))) .nil))
    (.swap _ _ _)⟩
  status := ⟨_, rfl, .struct .nil .nil⟩
  declarations := .cons ⟨_, rfl, .struct (.struct
    (.cons (.scalar .int64) (.cons (.scalar .string) .nil)) (.swap _ _ _))⟩ .nil

/-- Both are rendered alike in alphabetical order, with metadata in place. -/
theorem render_atlas : atlas.StructsDiffer ∧ atlas.Rearranged atlasRearranged ∧
    (∀ g : Generator,
      g.render { memberOrder := .alphabetical, specDeclarationOrder := .alphabetical } atlas =
        g.render { memberOrder := .alphabetical, specDeclarationOrder := .alphabetical }
          atlasRearranged) ∧
    JsonSchema.document { memberOrder := .alphabetical, specDeclarationOrder := .alphabetical }
        atlas =
      JsonSchema.document { memberOrder := .alphabetical, specDeclarationOrder := .alphabetical }
        atlasRearranged :=
  ⟨structsDiffer_atlas, atlas_rearranged,
    render_eq_of_rearranged rfl rfl structsDiffer_atlas atlas_rearranged⟩

end Sample

end KindSchema
