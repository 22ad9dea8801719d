import KindSchema.Proofs.Resolution.Extraction

/-!
# Where declared names come from

A declaration is named after a definition, after the annotation of a struct, or after a field path.
The name of a definition is taken as it is; the other two are made fresh.

* `TypeRun.hasSource`, `FieldsRun.hasSource`, `BodyRun.hasSource`: what a run declares.
* `Kind.resolve_hasSource`: the declarations of a resolved kind.
-/

namespace KindSchema

/-- The structs that `k` and its definitions are written with, at any depth. -/
def Kind.structs (k : Kind) : List StructType :=
  k.envelope.flatMap (·.type.rootStructs) ++
    (Resolution.definitionsOf k).flatMap (·.type.rootStructs)

/-- The names that annotate the structs of `k`. -/
def Kind.annotations (k : Kind) : List String :=
  k.structs.filterMap (·.name)

/-- That a text is what `d`, a declaration of `k`, is named after. -/
inductive Kind.NamedAfter (k : Kind) (d : Declaration) : String → Prop
  /-- A definition gives its own name. -/
  | definition (horigin : d.origin = .defined)
    (hmem : d.name ∈ (Resolution.definitionsOf k).map (·.name)) : NamedAfter k d d.name
  /-- The annotation of a struct is made fresh. -/
  | label {path used : List String} {label : String} (horigin : d.origin = .lifted path)
    (hmem : label ∈ k.annotations) (hname : d.name = freshName used label) : NamedAfter k d label
  /-- The name of a field path is made fresh. -/
  | path {path used : List String} (horigin : d.origin = .lifted path)
    (hname : d.name = freshName used (Naming.typeName path)) : NamedAfter k d (Naming.typeName path)

private theorem TypeExpr.rootStructs_of_ne {type : TypeExpr} (noStruct : ∀ s, type ≠ .struct s) :
    type.rootStructs = type.structs := by
  cases type with
  | struct s => exact absurd rfl (noStruct s)
  | _ => rfl

namespace Resolution

/-! ### Runs -/

variable {c : Context}

/-- The structs of a definition are among those of the kind. -/
private theorem rootStructs_subset_of_definition? {k : Kind} {name : String} {d : Definition}
    (h : k.definition? name = some d) : d.type.rootStructs ⊆ k.structs := fun _ hs =>
  List.mem_append_right _ (List.mem_flatMap.mpr ⟨d, (Kind.definition?_eq_some h).1, hs⟩)

/-- That each declaration `step` made is named after something in `k`. -/
def Step.HasSource {α : Type} (k : Kind) (step : Step α) : Prop :=
  ∀ d ∈ step.declarations, ∃ base, k.NamedAfter d base

private theorem Step.HasSource.nil {α : Type} (k : Kind) (result : α) (names : Names) :
    Step.HasSource k ⟨result, [], names⟩ :=
  fun _ hd => absurd hd List.not_mem_nil

/-- A struct that is lifted is named after its annotation or its path. -/
private theorem namedAfter_of_liftedBase? {s : StructType} {path used : List String} {place : Place}
    {base : String} {d : Declaration} (hs : s ∈ c.kind.structs)
    (h : c.liftedBase? s path place = some base) (horigin : d.origin = .lifted path)
    (hname : d.name = freshName used base) : c.kind.NamedAfter d base := by
  unfold Context.liftedBase? at h
  split at h
  · next label hlabel =>
    obtain rfl := Option.some.inj h
    exact .label horigin (List.mem_filterMap.mpr ⟨s, hs, hlabel⟩) hname
  · split at h
    · obtain rfl := Option.some.inj h
      exact .path horigin hname
    · cases h

mutual

theorem TypeRun.hasSource {opened path docs place type names step} :
    TypeRun c opened path docs place type names step → type.structs ⊆ c.kind.structs →
      step.HasSource c.kind
  | .scalar _, _ => .nil _ _ _
  | .enum _ _, _ => .nil _ _ _
  -- An enumeration is named after its path, a struct after its annotation or else its path.
  | .liftedEnum _ _ fresh, _ => List.forall_mem_singleton.mpr ⟨_, .path rfl fresh⟩
  | .array run, h => run.hasSource h
  | .map run, h => run.hasSource h
  | .knownStruct _, _ => .nil _ _ _
  | .struct _ _ run, h => run.hasSource (List.cons_subset.mp h).2
  | .liftedStruct _ lifts fresh run, h => by
    obtain ⟨hself, hfields⟩ := List.cons_subset.mp h
    exact List.forall_mem_cons.mpr
      ⟨⟨_, namedAfter_of_liftedBase? hself lifts rfl fresh⟩, run.hasSource hfields⟩
  | .knownReference _, _ => .nil _ _ _
  | .reference _ _ found run, _ => by
    obtain ⟨hmem, hname⟩ := Kind.definition?_eq_some found
    exact List.forall_mem_cons.mpr ⟨⟨_, .definition rfl (hname ▸ List.mem_map_of_mem hmem)⟩,
      run.hasSource (rootStructs_subset_of_definition? found)⟩

theorem FieldsRun.hasSource {opened path fields names step} :
    FieldsRun c opened path fields names step →
      TypeExpr.fieldStructs fields ⊆ c.kind.structs → step.HasSource c.kind
  | .nil, _ => .nil _ _ _
  | .cons head tail, h => by
    obtain ⟨htype, hfields⟩ := List.append_subset.mp h
    exact List.forall_mem_append.mpr ⟨head.hasSource htype, tail.hasSource hfields⟩

theorem BodyRun.hasSource {opened d names step} :
    BodyRun c opened d names step → d.type.rootStructs ⊆ c.kind.structs →
      step.HasSource c.kind
  | .struct type run, h => by
    rw [type] at h
    exact run.hasSource h
  | .enum _, _ => .nil _ _ _
  | .synonym noStruct _ run, h => by
    exact run.hasSource (TypeExpr.rootStructs_of_ne noStruct ▸ h)

end

private theorem SectionRun.hasSource {f names step} (run : SectionRun c f names step)
    (h : f.type.rootStructs ⊆ c.kind.structs) : step.HasSource c.kind := by
  cases run with
  | struct type run =>
    rw [type] at h
    exact run.hasSource h
  | other noStruct run => exact run.hasSource (TypeExpr.rootStructs_of_ne noStruct ▸ h)

private theorem SectionsRun.hasSource {sections names step}
    (run : SectionsRun c sections names step)
    (h : ∀ f ∈ sections, f.type.rootStructs ⊆ c.kind.structs) : step.HasSource c.kind := by
  induction run with
  | nil => exact .nil _ _ _
  | cons head _ ih =>
    obtain ⟨hf, hrest⟩ := List.forall_mem_cons.mp h
    exact List.forall_mem_append.mpr ⟨head.hasSource hf, ih hrest⟩

end Resolution

/-- Every declaration of `r` is named after a definition, an annotation or a path. -/
theorem Kind.resolve_hasSource {policy : Policy} {k : Kind} {r : ResolvedKind}
    (h : k.resolve policy = .ok r) : ∀ d ∈ r.declarations, ∃ base, k.NamedAfter d base := by
  obtain ⟨-, -, step, run, -, hdeclarations⟩ := Kind.resolve_run h
  rw [hdeclarations]
  exact run.hasSource fun f hf _ hs =>
    List.mem_append_left _ (List.mem_flatMap.mpr ⟨f, hf, hs⟩)

end KindSchema
