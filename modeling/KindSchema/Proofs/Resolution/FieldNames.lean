import KindSchema.Proofs.Output.FileNames
import KindSchema.Proofs.Output.Outline
import KindSchema.Proofs.Resolution.Reservation

/-!
# Fields of resolved kinds

A valid kind has no struct with two fields of one name, and resolution keeps the names of fields, so
no struct of a resolved kind has, at any depth.

* `TypeRun.fieldsDiffer`, `FieldsRun.fieldsDiffer`, `BodyRun.fieldsDiffer`: runs of valid types.
* `Kind.resolve_fieldsDiffer`: the sections and the declarations of a resolved kind, where another
  name is never one for a struct or an enumeration that stands in place.
-/

namespace KindSchema

namespace Shape

mutual

/-- That no struct within the shape has two fields of one name. -/
def FieldsDiffer : Shape → Prop
  | .scalar _ => True
  | .enum _ => True
  | .array items => FieldsDiffer items
  | .map values => FieldsDiffer values
  | .struct fields => (fields.map (·.name)).Nodup ∧ TypesDiffer fields
  | .named _ => True

/-- That no struct within the types of some fields has two fields of one name. -/
def TypesDiffer : List (Field Shape) → Prop
  | [] => True
  | ⟨_, type, _, _⟩ :: fields => FieldsDiffer type ∧ TypesDiffer fields

end

end Shape

/-- That no struct within a body has two fields of one name, and that it is no other name for a
struct or an enumeration that stands in place. -/
def Body.FieldsDiffer : Body → Prop
  | .struct fields => Shape.FieldsDiffer (.struct fields)
  | .enum _ => True
  | .synonym shape => shape.FieldsDiffer ∧ shape.form ≠ .struct ∧ shape.form ≠ .enum

/-- That no struct of `r` has two fields of one name. -/
structure ResolvedKind.FieldsDiffer (r : ResolvedKind) : Prop where
  sections : Shape.FieldsDiffer (.struct r.envelope)
  bodies : ∀ d ∈ r.declarations, d.body.FieldsDiffer

/-! ### Valid types -/

/-- That `type` is well-formed, wherever it stands. -/
def TypeExpr.IsValid (type : TypeExpr) : Prop :=
  ∃ path, type.validate path = .ok ()

/-- That `fields` are well-formed as fields of a struct if the names before them are those in
`seen`. -/
def TypeExpr.FieldsValid (seen : List String) (fields : List (Field TypeExpr)) : Prop :=
  ∃ path, TypeExpr.validateFields path seen fields = .ok ()

namespace TypeExpr

private theorem IsValid.struct {s : StructType} (h : IsValid (.struct s)) :
    FieldsValid [] s.fields := by
  obtain ⟨path, h⟩ := h
  cases s
  rw [validate] at h
  exact ⟨path, h⟩

private theorem fieldsValid_cons {seen : List String} {f : Field TypeExpr}
    {fields : List (Field TypeExpr)} (h : FieldsValid seen (f :: fields)) :
    f.name ∉ seen ∧ f.type.IsValid ∧ FieldsValid (f.name :: seen) fields := by
  obtain ⟨path, h⟩ := h
  cases f
  rw [validateFields, check_eq_ok, check_eq_ok, bind_eq_ok] at h
  obtain ⟨-, hnew, ⟨⟩, htype, hrest⟩ := h
  exact ⟨hnew, ⟨_, htype⟩, ⟨_, hrest⟩⟩

/-- The names of well-formed fields are different from each other and from those before them. -/
private theorem FieldsValid.nodup {seen : List String} {fields : List (Field TypeExpr)}
    (h : FieldsValid seen fields) :
    (fields.map (·.name)).Nodup ∧ ∀ name ∈ seen, name ∉ fields.map (·.name) := by
  induction fields generalizing seen with
  | nil => exact ⟨List.nodup_nil, fun _ _ => List.not_mem_nil⟩
  | cons f fields ih =>
    obtain ⟨hnew, -, hrest⟩ := fieldsValid_cons h
    obtain ⟨hnodup, hseen⟩ := ih hrest
    refine ⟨List.nodup_cons.mpr ⟨hseen f.name List.mem_cons_self, hnodup⟩, fun name hname => ?_⟩
    rw [List.map_cons, List.mem_cons, not_or]
    exact ⟨fun heq => hnew (heq ▸ hname), hseen name (List.mem_cons_of_mem _ hname)⟩

end TypeExpr

/-- Every definition that a valid kind can refer to has a well-formed type. -/
private theorem Kind.isValid_of_definition? {k : Kind} (h : k.validate = .ok ()) {name : String}
    {d : Definition} (hd : k.definition? name = some d) : d.type.IsValid := by
  rw [validate] at h
  obtain ⟨⟨⟩, -, h⟩ := bind_eq_ok.mp h
  obtain ⟨⟨⟩, hdefinitions, -⟩ := bind_eq_ok.mp h
  obtain ⟨hmem, -⟩ := definition?_eq_some hd
  rcases List.mem_append.mp hmem with hmem | hmem
  · exact ⟨_, ((validateDefinitions_eq_ok_iff.mp hdefinitions).1 d hmem).type_valid⟩
  · obtain rfl := List.mem_singleton.mp hmem
    exact ⟨"CommonMetadata", by rfl⟩

/-- The sections of a valid kind have well-formed types. -/
private theorem Kind.isValid_of_mem_envelope {k : Kind} (h : k.validate = .ok ())
    {f : Field TypeExpr} (hf : f ∈ k.envelope) : f.type.IsValid := by
  rw [validate] at h
  obtain ⟨⟨⟩, -, h⟩ := bind_eq_ok.mp h
  obtain ⟨⟨⟩, -, h⟩ := bind_eq_ok.mp h
  obtain ⟨⟨⟩, hmetadata, h⟩ := bind_eq_ok.mp h
  obtain ⟨⟨⟩, hspec, hstatus⟩ := bind_eq_ok.mp h
  have hstruct {path : String} {s : StructType}
      (hs : TypeExpr.validateFields path [] s.fields = .ok ()) :
      TypeExpr.IsValid (.struct s) := by
    cases s
    exact ⟨path, by rwa [TypeExpr.validate]⟩
  simp only [envelope, List.mem_cons, List.not_mem_nil, or_false] at hf
  obtain rfl | rfl | rfl := hf
  · exact ⟨_, hmetadata⟩
  · exact hstruct hspec
  · exact hstruct hstatus

/-! ### Runs -/

namespace Resolution

variable {c : Context}

/-- That all definitions `c` can refer to have well-formed types. -/
def Context.IsValid (c : Context) : Prop :=
  ∀ ⦃name d⦄, c.kind.definition? name = some d → d.type.IsValid

/-- That no declaration `step` made has a struct with two fields of one name. -/
def Step.FieldsDiffer {α : Type} (step : Step α) : Prop :=
  ∀ d ∈ step.declarations, d.body.FieldsDiffer

private theorem Step.FieldsDiffer.nil {α : Type} (result : α) (names : Names) :
    Step.FieldsDiffer ⟨result, [], names⟩ :=
  fun _ hd => absurd hd List.not_mem_nil

/-- What is neither a struct nor an enumeration is not resolved to one. -/
private theorem TypeRun.form_ne {opened path docs place type names step}
    (run : TypeRun c opened path docs place type names step) (noStruct : ∀ s, type ≠ .struct s)
    (noEnum : ∀ values, type ≠ .enum values) :
    step.result.form ≠ .struct ∧ step.result.form ≠ .enum := by
  cases run with
  | enum values => exact absurd rfl (noEnum values)
  | struct => exact absurd rfl (noStruct _)
  | _ => exact ⟨nofun, nofun⟩

mutual

/-- No struct that `type`, if it is well-formed, is resolved to, in place or declared, has two
fields of one name. -/
theorem TypeRun.fieldsDiffer (hc : c.IsValid) {opened path docs place type names step} :
    TypeRun c opened path docs place type names step → type.IsValid →
      step.result.FieldsDiffer ∧ step.FieldsDiffer
  | .scalar _, _ => ⟨trivial, .nil _ _⟩
  | .enum _ _, _ => ⟨trivial, .nil _ _⟩
  | .liftedEnum _ _ _, _ => ⟨trivial, List.forall_mem_singleton.mpr trivial⟩
  | .array run, h => run.fieldsDiffer hc h
  | .map run, h => run.fieldsDiffer hc h
  | .knownStruct _, _ => ⟨trivial, .nil _ _⟩
  | .struct _ _ run, h => by
    obtain ⟨hnames, htypes, hdeclarations⟩ := run.fieldsDiffer hc h.struct
    exact ⟨⟨hnames ▸ h.struct.nodup.1, htypes⟩, hdeclarations⟩
  | .liftedStruct _ _ _ run, h => by
    obtain ⟨hnames, htypes, hdeclarations⟩ := run.fieldsDiffer hc h.struct
    exact ⟨trivial,
      List.forall_mem_cons.mpr ⟨⟨hnames ▸ h.struct.nodup.1, htypes⟩, hdeclarations⟩⟩
  | .knownReference _, _ => ⟨trivial, .nil _ _⟩
  | .reference _ _ found run, _ => by
    obtain ⟨hbody, hdeclarations⟩ := run.fieldsDiffer hc (hc found)
    exact ⟨trivial, List.forall_mem_cons.mpr ⟨hbody, hdeclarations⟩⟩

/-- The fields of `fields` keep their names when their types are resolved. -/
theorem FieldsRun.fieldsDiffer (hc : c.IsValid) {opened path fields names step} :
    FieldsRun c opened path fields names step → ∀ {seen}, TypeExpr.FieldsValid seen fields →
      step.result.map (·.name) = fields.map (·.name) ∧ Shape.TypesDiffer step.result ∧
        step.FieldsDiffer
  | .nil, _, _ => ⟨rfl, trivial, .nil _ _⟩
  | .cons head tail, _, h => by
    obtain ⟨-, htype, hrest⟩ := TypeExpr.fieldsValid_cons h
    obtain ⟨hresult, hfirst⟩ := head.fieldsDiffer hc htype
    obtain ⟨hnames, hresults, hdeclarations⟩ := tail.fieldsDiffer hc hrest
    exact ⟨congrArg (_ :: ·) hnames, ⟨hresult, hresults⟩,
      List.forall_mem_append.mpr ⟨hfirst, hdeclarations⟩⟩

theorem BodyRun.fieldsDiffer (hc : c.IsValid) {opened d names step} :
    BodyRun c opened d names step → d.type.IsValid →
      step.result.FieldsDiffer ∧ step.FieldsDiffer
  | .struct type run, h => by
    rw [type] at h
    obtain ⟨hnames, htypes, hdeclarations⟩ := run.fieldsDiffer hc h.struct
    exact ⟨⟨hnames ▸ h.struct.nodup.1, htypes⟩, hdeclarations⟩
  | .enum _, _ => ⟨trivial, .nil _ _⟩
  | .synonym noStruct noEnum run, h => by
    obtain ⟨hresult, hdeclarations⟩ := run.fieldsDiffer hc h
    exact ⟨⟨hresult, run.form_ne noStruct noEnum⟩, hdeclarations⟩

end

private theorem SectionRun.fieldsDiffer (hc : c.IsValid) {f names step}
    (run : SectionRun c f names step) (h : f.type.IsValid) :
    step.result.type.FieldsDiffer ∧ step.FieldsDiffer := by
  cases run with
  | struct type run =>
    rw [type] at h
    obtain ⟨hnames, htypes, hdeclarations⟩ := run.fieldsDiffer hc h.struct
    exact ⟨⟨hnames ▸ h.struct.nodup.1, htypes⟩, hdeclarations⟩
  | other _ run => exact run.fieldsDiffer hc h

private theorem SectionsRun.fieldsDiffer (hc : c.IsValid) {sections names step}
    (run : SectionsRun c sections names step) (h : ∀ f ∈ sections, f.type.IsValid) :
    Shape.TypesDiffer step.result ∧ step.FieldsDiffer := by
  induction run with
  | nil => exact ⟨trivial, .nil _ _⟩
  | cons head _ ih =>
    obtain ⟨hf, hrest⟩ := List.forall_mem_cons.mp h
    obtain ⟨hresult, hfirst⟩ := head.fieldsDiffer hc hf
    obtain ⟨hresults, hdeclarations⟩ := ih hrest
    exact ⟨⟨hresult, hresults⟩, List.forall_mem_append.mpr ⟨hfirst, hdeclarations⟩⟩

end Resolution

/-! ### Resolved kinds -/

/-- No struct of `r`, a resolved kind, has two fields of one name. -/
theorem Kind.resolve_fieldsDiffer {policy : Policy} {k : Kind} {r : ResolvedKind}
    (h : k.resolve policy = .ok r) : r.FieldsDiffer := by
  obtain ⟨hvalid, -, step, run, henvelope, hdeclarations⟩ := Kind.resolve_run h
  obtain ⟨htypes, hbodies⟩ := run.fieldsDiffer (fun _ _ => k.isValid_of_definition? hvalid)
    fun _ => k.isValid_of_mem_envelope hvalid
  have hsections : (r.envelope.map (·.name)).Nodup := by
    rw [resolve_sectionNames h]
    decide
  exact ⟨⟨hsections, henvelope ▸ htypes⟩, hdeclarations ▸ hbodies⟩

/-- Metadata in place has the fields of its declaration. -/
theorem ResolvedKind.FieldsDiffer.expandMetadata {r : ResolvedKind} (h : r.FieldsDiffer)
    (mode : MetadataMode) : (r.expandMetadata mode).FieldsDiffer := by
  unfold ResolvedKind.expandMetadata
  split
  · split
    · next name hmetadata fields hbody =>
      obtain ⟨d, hd, hstruct⟩ := Option.map_eq_some_iff.mp hbody
      have hfields := h.bodies d (ResolvedKind.declaration?_eq_some hd).1
      rw [hstruct] at hfields
      exact ⟨⟨h.sections.1, hfields, h.sections.2.2⟩, h.bodies⟩
    · exact h
  · exact h

end KindSchema
