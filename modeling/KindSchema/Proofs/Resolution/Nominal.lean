import KindSchema.Proofs.Output.Outline
import KindSchema.Proofs.Resolution.Reachability

/-!
# Resolution under the nominal policy

A language without anonymous element types and without literal types needs a name for what stands
in such a place. The nominal policy gives it one: in what it resolves, enumerations are declared,
and so are the structs that are elements of arrays and maps.

* `TypeRun.nominal`, `FieldsRun.nominal`, `BodyRun.nominal`: runs under the policy.
* `Kind.resolve_nominal`: the sections and declarations of a resolved kind.
* `ResolvedKind.Nominal.presented`: parameters do not change this.
-/

namespace KindSchema

namespace Shape

mutual

/-- A shape and the shapes inside it, at any depth, one for each place. -/
def parts : Shape → List Shape
  | .scalar kind => [.scalar kind]
  | .enum values => [.enum values]
  | .array items => .array items :: parts items
  | .map values => .map values :: parts values
  | .struct fields => .struct fields :: fieldParts fields
  | .named name => [.named name]

/-- The shapes of some fields and the shapes inside them, at any depth. -/
def fieldParts : List (Field Shape) → List Shape
  | [] => []
  | ⟨_, type, _, _⟩ :: fields => parts type ++ fieldParts fields

end

/-- That a shape is no enumeration, and no array or map whose elements are structs without a
name. -/
def NominalAtTop : Shape → Prop
  | .scalar _ => True
  | .enum _ => False
  | .array items => items.form ≠ .struct
  | .map values => values.form ≠ .struct
  | .struct _ => True
  | .named _ => True

/-- That no enumeration stands in `shape`, and no struct as the element of an array or a map, at any
depth. -/
def Nominal (shape : Shape) : Prop :=
  ∀ part ∈ shape.parts, part.NominalAtTop

private theorem nominal_scalar (kind : Scalar) : Nominal (.scalar kind) :=
  List.forall_mem_singleton.mpr trivial

private theorem nominal_named (name : String) : Nominal (.named name) :=
  List.forall_mem_singleton.mpr trivial

theorem not_nominal_enum (values : List String) : ¬ Nominal (.enum values) :=
  fun h => h _ (List.mem_singleton_self _)

theorem nominal_array_iff {items : Shape} :
    Nominal (.array items) ↔ items.form ≠ .struct ∧ items.Nominal :=
  List.forall_mem_cons

theorem nominal_map_iff {values : Shape} :
    Nominal (.map values) ↔ values.form ≠ .struct ∧ values.Nominal :=
  List.forall_mem_cons

theorem nominal_struct_iff {fields : List (Field Shape)} :
    Nominal (.struct fields) ↔ ∀ f ∈ fields, f.type.Nominal := by
  have hfields : (∀ part ∈ fieldParts fields, part.NominalAtTop) ↔
      ∀ f ∈ fields, f.type.Nominal := by
    induction fields with
    | nil => simp [fieldParts]
    | cons f fields ih => rw [fieldParts, List.forall_mem_append, List.forall_mem_cons, ih, Nominal]
  rw [← hfields, Nominal, parts, List.forall_mem_cons]
  exact and_iff_right trivial

end Shape

/-- That no enumeration stands inside a body, and no struct as the element of an array or a map. -/
def Body.Nominal : Body → Prop
  | .struct fields => ∀ f ∈ fields, f.type.Nominal
  | .enum _ => True
  | .synonym shape => shape.Nominal

/-- That no enumeration stands in a section of `r` or inside a declaration, and no struct as the
element of an array or a map. -/
structure ResolvedKind.Nominal (r : ResolvedKind) : Prop where
  sections : ∀ f ∈ r.envelope, f.type.Nominal
  bodies : ∀ d ∈ r.declarations, d.body.Nominal

/-! ### Runs -/

namespace Resolution

variable {c : Context}

/-- That the bodies of the declarations `step` made are nominal. -/
def Step.Nominal {α : Type} (step : Step α) : Prop :=
  ∀ d ∈ step.declarations, d.body.Nominal

private theorem Step.Nominal.nil {α : Type} (result : α) (names : Names) :
    Step.Nominal ⟨result, [], names⟩ :=
  fun _ hd => absurd hd List.not_mem_nil

/-- Under the nominal policy every struct that is an element gets a name. -/
private theorem liftedBase?_element_ne_none (hc : c.policy = .nominal) (s : StructType)
    (path : List String) : c.liftedBase? s path .element ≠ none := by
  unfold Context.liftedBase?
  split
  · exact Option.some_ne_none _
  · rw [if_pos (.inr (.inr ⟨rfl, by rw [hc]; rfl⟩))]
    exact Option.some_ne_none _

mutual

/-- What `type` is resolved to under the nominal policy, in place or declared, is nominal, and it is
no struct in the place of an element. -/
theorem TypeRun.nominal (hc : c.policy = .nominal) {opened path docs place type names step} :
    TypeRun c opened path docs place type names step →
      step.result.Nominal ∧ (place = .element → step.result.form ≠ .struct) ∧ step.Nominal
  | .scalar kind => ⟨Shape.nominal_scalar kind, nofun, .nil _ _⟩
  | .enum _ inline => by
    rw [hc] at inline
    cases inline
  | .liftedEnum _ _ _ =>
    ⟨Shape.nominal_named _, nofun, List.forall_mem_singleton.mpr trivial⟩
  | .array run => by
    obtain ⟨hresult, hform, hdeclarations⟩ := run.nominal hc
    exact ⟨Shape.nominal_array_iff.mpr ⟨hform rfl, hresult⟩, nofun, hdeclarations⟩
  | .map run => by
    obtain ⟨hresult, hform, hdeclarations⟩ := run.nominal hc
    exact ⟨Shape.nominal_map_iff.mpr ⟨hform rfl, hresult⟩, nofun, hdeclarations⟩
  | .knownStruct _ => ⟨Shape.nominal_named _, nofun, .nil _ _⟩
  | .struct _ inline run => by
    obtain ⟨hfields, hdeclarations⟩ := run.nominal hc
    refine ⟨Shape.nominal_struct_iff.mpr hfields, ?_, hdeclarations⟩
    -- The struct of an element has a base for its name, so it does not get here.
    rintro rfl
    exact absurd inline (liftedBase?_element_ne_none hc _ _)
  | .liftedStruct _ _ _ run => by
    obtain ⟨hfields, hdeclarations⟩ := run.nominal hc
    exact ⟨Shape.nominal_named _, nofun, List.forall_mem_cons.mpr ⟨hfields, hdeclarations⟩⟩
  | .knownReference _ => ⟨Shape.nominal_named _, nofun, .nil _ _⟩
  | .reference _ _ _ run => by
    obtain ⟨hbody, hdeclarations⟩ := run.nominal hc
    exact ⟨Shape.nominal_named _, nofun, List.forall_mem_cons.mpr ⟨hbody, hdeclarations⟩⟩

theorem FieldsRun.nominal (hc : c.policy = .nominal) {opened path fields names step} :
    FieldsRun c opened path fields names step →
      (∀ f ∈ step.result, f.type.Nominal) ∧ step.Nominal
  | .nil => ⟨fun _ hf => absurd hf List.not_mem_nil, .nil _ _⟩
  | .cons head tail => by
    obtain ⟨hresult, -, hfirst⟩ := head.nominal hc
    obtain ⟨hresults, hdeclarations⟩ := tail.nominal hc
    exact ⟨List.forall_mem_cons.mpr ⟨hresult, hresults⟩,
      List.forall_mem_append.mpr ⟨hfirst, hdeclarations⟩⟩

/-- The enumeration that `d` may be stands on its own. -/
theorem BodyRun.nominal (hc : c.policy = .nominal) {opened d names step} :
    BodyRun c opened d names step → step.result.Nominal ∧ step.Nominal
  | .struct _ run => run.nominal hc
  | .enum _ => ⟨trivial, .nil _ _⟩
  | .synonym _ _ run => by
    obtain ⟨hresult, -, hdeclarations⟩ := run.nominal hc
    exact ⟨hresult, hdeclarations⟩

end

private theorem SectionRun.nominal (hc : c.policy = .nominal) {f names step}
    (run : SectionRun c f names step) : step.result.type.Nominal ∧ step.Nominal := by
  cases run with
  | struct _ run =>
    obtain ⟨hfields, hdeclarations⟩ := run.nominal hc
    exact ⟨Shape.nominal_struct_iff.mpr hfields, hdeclarations⟩
  | other _ run =>
    obtain ⟨hresult, -, hdeclarations⟩ := run.nominal hc
    exact ⟨hresult, hdeclarations⟩

private theorem SectionsRun.nominal (hc : c.policy = .nominal) {sections names step}
    (run : SectionsRun c sections names step) :
    (∀ f ∈ step.result, f.type.Nominal) ∧ step.Nominal := by
  induction run with
  | nil => exact ⟨fun _ hf => absurd hf List.not_mem_nil, .nil _ _⟩
  | cons head _ ih =>
    obtain ⟨hresult, hfirst⟩ := head.nominal hc
    obtain ⟨hresults, hdeclarations⟩ := ih
    exact ⟨List.forall_mem_cons.mpr ⟨hresult, hresults⟩,
      List.forall_mem_append.mpr ⟨hfirst, hdeclarations⟩⟩

end Resolution

/-! ### Resolved kinds -/

/-- What `k` is resolved to under the nominal policy is nominal. -/
theorem Kind.resolve_nominal {k : Kind} {r : ResolvedKind} (h : k.resolve .nominal = .ok r) :
    r.Nominal := by
  obtain ⟨-, -, step, run, henvelope, hdeclarations⟩ := Kind.resolve_run h
  obtain ⟨hsections, hbodies⟩ := run.nominal rfl
  exact ⟨henvelope ▸ hsections, hdeclarations ▸ hbodies⟩

/-! ### Presented kinds -/

@[simp] theorem Shape.form_arrange (order : MemberOrder) (shape : Shape) :
    (shape.arrange order).form = shape.form := by
  cases shape <;> simp only [Shape.arrange, Shape.form]

mutual

/-- Putting members in order keeps what shapes there are, and inside which. -/
private theorem Shape.nominal_arrange_iff {order : MemberOrder} :
    ∀ {shape : Shape}, (shape.arrange order).Nominal ↔ shape.Nominal
  | .scalar _ => by rw [Shape.arrange]
  | .enum _ => by rw [Shape.arrange]
  | .array items => by
    rw [Shape.arrange, nominal_array_iff, nominal_array_iff, form_arrange, nominal_arrange_iff]
  | .map values => by
    rw [Shape.arrange, nominal_map_iff, nominal_map_iff, form_arrange, nominal_arrange_iff]
  | .struct fields => by
    have hfields : (∀ f ∈ arrangeTypes order fields, f.type.Nominal) ↔
        ∀ f ∈ fields, f.type.Nominal := nominal_arrangeTypes_iff
    rw [Shape.arrange, nominal_struct_iff, nominal_struct_iff, ← hfields]
    exact forall_congr' fun f => imp_congr_left (order.sort_perm _).mem_iff
  | .named _ => by rw [Shape.arrange]

private theorem Shape.nominal_arrangeTypes_iff {order : MemberOrder} :
    ∀ {fields : List (Field Shape)},
      (∀ f ∈ Shape.arrangeTypes order fields, f.type.Nominal) ↔ ∀ f ∈ fields, f.type.Nominal
  | [] => Iff.rfl
  | ⟨_, _, _, _⟩ :: _ => by
    rw [Shape.arrangeTypes, List.forall_mem_cons, List.forall_mem_cons, nominal_arrange_iff,
      nominal_arrangeTypes_iff]

end

private theorem Body.nominal_arrange_iff {order : MemberOrder} {body : Body} :
    (body.arrange order).Nominal ↔ body.Nominal := by
  cases body with
  | struct fields =>
    have h : ((Shape.struct fields).arrange order).Nominal ↔ (Shape.struct fields).Nominal :=
      Shape.nominal_arrange_iff
    rwa [Shape.arrange, Shape.nominal_struct_iff, Shape.nominal_struct_iff] at h
  | enum values => exact Iff.rfl
  | synonym shape => exact Shape.nominal_arrange_iff

namespace ResolvedKind

variable {r : ResolvedKind}

/-- Metadata in place have the fields of their declaration. -/
private theorem Nominal.expandMetadata (h : r.Nominal) (mode : MetadataMode) :
    (r.expandMetadata mode).Nominal := by
  unfold ResolvedKind.expandMetadata
  split
  · split
    · next name hmetadata fields hbody =>
      obtain ⟨d, hd, hstruct⟩ := Option.map_eq_some_iff.mp hbody
      have hfields := h.bodies d (ResolvedKind.declaration?_eq_some hd).1
      rw [hstruct] at hfields
      refine ⟨List.forall_mem_cons.mpr ⟨Shape.nominal_struct_iff.mpr hfields, ?_⟩, h.bodies⟩
      exact (List.forall_mem_cons.mp h.sections).2
    · exact h
  · exact h

private theorem Nominal.arrange (h : r.Nominal) (order : MemberOrder) :
    (r.arrange order).Nominal where
  sections := by
    rw [arrange_envelope]
    refine List.forall_mem_map.mpr fun f hf => Shape.nominal_arrange_iff.mpr (h.sections f hf)
  bodies := by
    rw [arrange_declarations]
    refine List.forall_mem_map.mpr fun d hd => Body.nominal_arrange_iff.mpr (h.bodies d hd)

/-- A nominal kind `r` is presented as one, whatever `params` are. -/
theorem Nominal.presented (h : r.Nominal) (params : Params) : (r.presented params).Nominal :=
  (h.expandMetadata params.metadata).arrange params.memberOrder

end ResolvedKind

end KindSchema
