import KindSchema.Proofs.Resolution.Reservation

/-!
# Types and what they are resolved to

`Resolves` relates a type to the shapes that may stand for it when certain structs have been lifted
and certain definitions have been resolved: the constructors are the same, except that an
enumeration or a struct may be replaced by the name it was lifted under. `Corresponds` says that
the declarations of a resolved kind stand, in the same sense, for the structs and the definitions.

The definitions are listed with the one that was resolved last in front, and each is related to its
body by means of those behind it. That is more than being related to it at all: it is why a chain
of definitions that are only other names ends.

* `TypeRun.resolves`, `FieldsRun.resolves`, `BodyRun.resolves`: runs resolve.
* `Kind.resolve_run_corresponds`, `Kind.resolve_corresponds`: the sections of a resolved kind and
  its declarations correspond to the kind.
-/

namespace KindSchema

namespace Resolution

/-! ### The relation -/

mutual

/-- That a shape of `r` may stand for a type, by means of `names`. -/
inductive Resolves (r : ResolvedKind) (names : Names) : TypeExpr → Shape → Prop
  | scalar (kind : Scalar) : Resolves r names (.scalar kind) (.scalar kind)
  | enum (values : List String) : Resolves r names (.enum values) (.enum values)
  | liftedEnum {values d} (found : r.declaration? d.name = some d) (body : d.body = .enum values)
      (lifted : ∃ path, d.origin = .lifted path) :
    Resolves r names (.enum values) (.named d.name)
  | array {items shape} (resolves : Resolves r names items shape) :
    Resolves r names (.array items) (.array shape)
  | map {values shape} (resolves : Resolves r names values shape) :
    Resolves r names (.map values) (.map shape)
  | struct {s fields} (resolve : FieldsResolve r names s.fields fields) :
    Resolves r names (.struct s) (.struct fields)
  | liftedStruct {s name} (lifted : (s, name) ∈ names.lifted) :
    Resolves r names (.struct s) (.named name)
  | reference {name} (defined : name ∈ names.defined) :
    Resolves r names (.reference name) (.named name)

/-- That fields of `r` may stand for fields, by means of `names`: they differ in nothing but their
types. -/
inductive FieldsResolve (r : ResolvedKind) (names : Names) :
    List (Field TypeExpr) → List (Field Shape) → Prop
  | nil : FieldsResolve r names [] []
  | cons {f fields shape shapes} (head : Resolves r names f.type shape)
      (tail : FieldsResolve r names fields shapes) :
    FieldsResolve r names (f :: fields) (f.withType shape :: shapes)

end

/-- That a body in `r` may stand for the type of `d`. -/
inductive BodyResolves (r : ResolvedKind) (names : Names) (d : Definition) : Body → Prop
  | struct {s fields} (type : d.type = .struct s)
      (resolve : FieldsResolve r names s.fields fields) : BodyResolves r names d (.struct fields)
  | enum {values} (type : d.type = .enum values) : BodyResolves r names d (.enum values)
  | synonym {shape} (noStruct : ∀ s, d.type ≠ .struct s)
      (noEnum : ∀ values, d.type ≠ .enum values) (resolves : Resolves r names d.type shape) :
    BodyResolves r names d (.synonym shape)

/-- The names with the definitions of `defined` resolved, and no others. -/
def Names.withDefined (names : Names) (defined : List String) : Names :=
  { names with defined }

/-- That `names'` has all structs and definitions of `names`. -/
structure Names.Le (names names' : Names) : Prop where
  lifted : names.lifted ⊆ names'.lifted
  defined : names.defined ⊆ names'.defined

namespace Names.Le

variable {a b c : Names}

theorem refl (names : Names) : names.Le names where
  lifted := List.Subset.refl _
  defined := List.Subset.refl _

theorem trans (hab : a.Le b) (hbc : b.Le c) : a.Le c where
  lifted := List.Subset.trans hab.lifted hbc.lifted
  defined := List.Subset.trans hab.defined hbc.defined

theorem withDefined {defined defined' : List String} (h : defined ⊆ defined') :
    (a.withDefined defined).Le (a.withDefined defined') where
  lifted := List.Subset.refl _
  defined := h

theorem of_withDefined {defined : List String} (h : defined ⊆ a.defined) :
    (a.withDefined defined).Le a where
  lifted := List.Subset.refl _
  defined := h

theorem lift (names : Names) (s : StructType) (name : String) : names.Le (names.lift s name) where
  lifted := List.subset_cons_self _ _
  defined := List.Subset.refl _

theorem define (names : Names) (name : String) : names.Le (names.define name) where
  lifted := List.Subset.refl _
  defined := List.subset_cons_self _ _

end Names.Le

section Monotonicity

variable {r : ResolvedKind} {names names' : Names}

mutual

/-- If `shape` may stand for `type`, it may do so still when more has been resolved. -/
theorem Resolves.mono (hle : names.Le names') {type shape} :
    Resolves r names type shape → Resolves r names' type shape
  | .scalar kind => .scalar kind
  | .enum values => .enum values
  | .liftedEnum found body lifted => .liftedEnum found body lifted
  | .array resolves => .array (resolves.mono hle)
  | .map resolves => .map (resolves.mono hle)
  | .struct resolve => .struct (resolve.mono hle)
  | .liftedStruct lifted => .liftedStruct (hle.lifted lifted)
  | .reference defined => .reference (hle.defined defined)

theorem FieldsResolve.mono (hle : names.Le names') {fields shapes} :
    FieldsResolve r names fields shapes → FieldsResolve r names' fields shapes
  | .nil => .nil
  | .cons head tail => .cons (head.mono hle) (tail.mono hle)

end

theorem BodyResolves.mono (hle : names.Le names') {d : Definition} {body : Body}
    (h : BodyResolves r names d body) : BodyResolves r names' d body := by
  cases h with
  | struct type resolve => exact .struct type (resolve.mono hle)
  | enum type => exact .enum type
  | synonym noStruct noEnum resolves => exact .synonym noStruct noEnum (resolves.mono hle)

end Monotonicity

/-! ### Declarations -/

/-- That `s` has the declaration of `name` in `r`, with `fields` as what its own fields are resolved
to. -/
structure StructDeclared (r : ResolvedKind) (names : Names) (s : StructType) (name : String)
    (path : List String) (fields : List (Field Shape)) : Prop where
  found : r.declaration? name = some ⟨name, s.docs, .struct fields, .lifted path⟩
  resolve : FieldsResolve r names s.fields fields

/-- That `d`, a definition of `k`, has the declaration of `name` in `r`, with `body` as its body. -/
structure DefinitionDeclared (k : Kind) (r : ResolvedKind) (names : Names) (name : String)
    (d : Definition) (body : Body) : Prop where
  definition : k.definition? name = some d
  found : r.declaration? name = some ⟨name, docsOf d, body, .defined⟩
  resolves : BodyResolves r names d body

/-- That the definitions of some names have their declarations in `r`, each by means of those behind
it. -/
inductive DefinitionsDeclared (k : Kind) (r : ResolvedKind) (names : Names) : List String → Prop
  | nil : DefinitionsDeclared k r names []
  | cons {name older d body}
      (declared : DefinitionDeclared k r (names.withDefined older) name d body)
      (rest : DefinitionsDeclared k r names older) :
    DefinitionsDeclared k r names (name :: older)

/-- That between the states `before` and `after` all structs that are lifted and all definitions
that are resolved get their declarations in `r`; `final` is the state at the end. -/
structure Realised (k : Kind) (r : ResolvedKind) (final before after : Names) : Prop where
  structs : ∀ s name, (s, name) ∈ after.lifted → (s, name) ∈ before.lifted ∨
    ∃ path fields, StructDeclared r final s name path fields
  definitions : DefinitionsDeclared k r final before.defined →
    DefinitionsDeclared k r final after.defined

namespace Realised

variable {k : Kind} {r : ResolvedKind} {final a b c : Names}

private theorem refl (names : Names) : Realised k r final names names where
  structs := fun _ _ h => .inl h
  definitions := id

private theorem trans (hab : Realised k r final a b) (hbc : Realised k r final b c) :
    Realised k r final a c where
  structs := by
    intro s name h
    rcases hbc.structs s name h with h | h
    · exact hab.structs s name h
    · exact .inr h
  definitions := hbc.definitions ∘ hab.definitions

/-- A struct is lifted before its fields are resolved, and declared after that. -/
private theorem lift {s : StructType} {name : String} {path : List String}
    {fields : List (Field Shape)} (h : Realised k r final (a.lift s name) b)
    (hs : StructDeclared r final s name path fields) :
    Realised k r final a b where
  structs := by
    intro t other ht
    rcases h.structs t other ht with ht | ht
    · rcases List.mem_cons.mp ht with heq | ht
      · cases heq
        exact .inr ⟨path, fields, hs⟩
      · exact .inl ht
    · exact .inr ht
  definitions := h.definitions

/-- A definition is resolved after its type. -/
private theorem define {name : String} {d : Definition} {body : Body} (h : Realised k r final a b)
    (hd : DefinitionDeclared k r (final.withDefined b.defined) name d body) :
    Realised k r final a (b.define name) where
  structs := h.structs
  definitions := fun ha => .cons hd (h.definitions ha)

end Realised

/-! ### Runs resolve -/

variable {c : Context} {r : ResolvedKind}

mutual

/-- A run forgets nothing. -/
theorem TypeRun.le {opened path docs place type names step} :
    TypeRun c opened path docs place type names step → names.Le step.names
  | .scalar _ => .refl names
  | .enum _ _ => .refl names
  | .liftedEnum _ _ _ => ⟨List.Subset.refl _, List.Subset.refl _⟩
  | .array run => run.le
  | .map run => run.le
  | .knownStruct _ => .refl names
  | .struct _ _ run => run.le
  | .liftedStruct _ _ _ run => (Names.Le.lift names _ _).trans run.le
  | .knownReference _ => .refl names
  | .reference _ _ _ run => run.le.trans (.define _ _)

theorem FieldsRun.le {opened path fields names step} :
    FieldsRun c opened path fields names step → names.Le step.names
  | .nil => .refl names
  | .cons head tail => head.le.trans tail.le

theorem BodyRun.le {opened d names step} : BodyRun c opened d names step → names.Le step.names
  | .struct _ run => run.le
  | .enum _ => .refl names
  | .synonym _ _ run => run.le

end

mutual

/-- What `type` is resolved to may stand for it, and all that is named on the way is declared. -/
theorem TypeRun.resolves {opened path docs place type names step} :
    TypeRun c opened path docs place type names step → step.Declared r →
      ∀ {final}, step.names.Le final →
        Resolves r (final.withDefined step.names.defined) type step.result ∧
          Realised c.kind r final names step.names
  | .scalar kind, _, _, _ => ⟨.scalar kind, .refl names⟩
  | .enum values _, _, _, _ => ⟨.enum values, .refl names⟩
  | .liftedEnum values _ _, hr, _, _ =>
    ⟨.liftedEnum hr.head rfl ⟨_, rfl⟩, ⟨fun _ _ h => .inl h, id⟩⟩
  | .array run, hr, _, hle => (run.resolves hr hle).imp .array id
  | .map run, hr, _, hle => (run.resolves hr hle).imp .map id
  | .knownStruct known, _, _, hle => by
    obtain ⟨before, after, hlifted, -⟩ := List.lookup_eq_some_iff.mp known
    have hmem := hlifted ▸ List.mem_append_right before List.mem_cons_self
    exact ⟨.liftedStruct (hle.lifted hmem), .refl names⟩
  | .struct _ _ run, hr, _, hle => (run.resolves hr hle).imp .struct id
  -- The struct has its name before its fields are resolved, so they may refer to it.
  | .liftedStruct _ _ _ run, hr, final, hle => by
    obtain ⟨hfields, hrealised⟩ := run.resolves hr.tail hle
    have hlifted := hle.lifted (run.le.lifted List.mem_cons_self)
    have hdeclared := hfields.mono (.of_withDefined hle.defined)
    exact ⟨.liftedStruct hlifted, hrealised.lift ⟨hr.head, hdeclared⟩⟩
  | .knownReference known, _, _, _ => ⟨.reference known, .refl names⟩
  -- The body is resolved before its definition counts as resolved, hence `Names.Le.define`.
  | .reference _ _ found run, hr, final, hle => by
    obtain ⟨hbody, hrealised⟩ := run.resolves hr.tail
      ((Names.Le.define _ _).trans hle)
    exact ⟨.reference List.mem_cons_self,
      hrealised.define ⟨found, hr.head, hbody⟩⟩

theorem FieldsRun.resolves {opened path fields names step} :
    FieldsRun c opened path fields names step → step.Declared r →
      ∀ {final}, step.names.Le final →
        FieldsResolve r (final.withDefined step.names.defined) fields step.result ∧
          Realised c.kind r final names step.names
  | .nil, _, _, _ => ⟨.nil, .refl names⟩
  | .cons head tail, hr, final, hle => by
    obtain ⟨hfirst, hrealised⟩ :=
      head.resolves hr.left (tail.le.trans hle)
    obtain ⟨hrest, hrealised'⟩ := tail.resolves hr.right hle
    exact ⟨.cons (hfirst.mono (.withDefined tail.le.defined)) hrest, hrealised.trans hrealised'⟩

theorem BodyRun.resolves {opened d names step} :
    BodyRun c opened d names step → step.Declared r →
      ∀ {final}, step.names.Le final →
        BodyResolves r (final.withDefined step.names.defined) d step.result ∧
          Realised c.kind r final names step.names
  | .struct type run, hr, _, hle => (run.resolves hr hle).imp (.struct type) id
  | .enum type, _, _, _ => ⟨.enum type, .refl names⟩
  | .synonym noStruct noEnum run, hr, _, hle =>
    (run.resolves hr hle).imp (.synonym noStruct noEnum) id

end

private theorem SectionRun.le {f names step} (run : SectionRun c f names step) :
    names.Le step.names := by
  cases run with
  | struct _ run => exact run.le
  | other _ run => exact run.le

theorem SectionsRun.le {sections names step} (run : SectionsRun c sections names step) :
    names.Le step.names := by
  induction run with
  | nil => exact .refl _
  | cons head _ ih => exact head.le.trans ih

private theorem SectionRun.resolves {f names step final} (run : SectionRun c f names step)
    (hr : step.Declared r) (hle : step.names.Le final) :
    (∃ shape, step.result = f.withType shape ∧
      Resolves r (final.withDefined step.names.defined) f.type shape) ∧
      Realised c.kind r final names step.names := by
  cases run with
  | struct type run =>
    obtain ⟨hfields, hrealised⟩ := run.resolves hr hle
    exact ⟨⟨_, rfl, type ▸ .struct hfields⟩, hrealised⟩
  | other _ run =>
    obtain ⟨hshape, hrealised⟩ := run.resolves hr hle
    exact ⟨⟨_, rfl, hshape⟩, hrealised⟩

private theorem SectionsRun.resolves {sections names step final}
    (run : SectionsRun c sections names step) (hr : step.Declared r) (hle : step.names.Le final) :
    FieldsResolve r (final.withDefined step.names.defined) sections step.result ∧
      Realised c.kind r final names step.names := by
  induction run with
  | nil => exact ⟨.nil, .refl _⟩
  | @cons f sections names first rest head tail ih =>
    obtain ⟨⟨shape, hresult, hshape⟩, hrealised⟩ :=
      head.resolves hr.left (tail.le.trans hle)
    obtain ⟨hrest, hrealised'⟩ := ih hr.right hle
    refine ⟨?_, hrealised.trans hrealised'⟩
    dsimp only
    rw [hresult]
    exact .cons (hshape.mono (.withDefined tail.le.defined)) hrest

end Resolution

open Resolution

/-! ### Resolved kinds -/

/-- That `r` corresponds to `k`, when the structs and the definitions in `names` have been lifted
and resolved. -/
structure Kind.Corresponds (k : Kind) (r : ResolvedKind) (names : Names) : Prop where
  sections : FieldsResolve r names k.envelope r.envelope
  structs : ∀ s name, (s, name) ∈ names.lifted →
    ∃ path fields, StructDeclared r names s name path fields
  definitions : DefinitionsDeclared k r names names.defined

/-- The resolved kind `r` is the outcome of a run after whose names it corresponds to `k`. -/
theorem Kind.resolve_run_corresponds {policy : Policy} {k : Kind} {r : ResolvedKind}
    (h : k.resolve policy = .ok r) :
    ∃ step, SectionsRun (contextOf policy k) k.envelope { used := reservedNames k } step ∧
      r.envelope = step.result ∧ r.declarations = step.declarations ∧ step.Declared r ∧
      step.names.Sound (contextOf policy k) [] (r.declarations.map (·.name)) ∧
      k.Corresponds r step.names := by
  obtain ⟨step, run, henvelope, hdeclarations, hsound, hdeclared⟩ := Kind.resolve_sound h
  obtain ⟨hsections, hrealised⟩ := run.resolves hdeclared (.refl step.names)
  refine ⟨step, run, henvelope, hdeclarations, hdeclared, hdeclarations ▸ hsound.names,
    henvelope ▸ hsections, ?_, hrealised.definitions .nil⟩
  intro s name hlifted
  exact (hrealised.structs s name hlifted).resolve_left List.not_mem_nil

/-- The resolved kind `r` corresponds to `k`. -/
theorem Kind.resolve_corresponds {policy : Policy} {k : Kind} {r : ResolvedKind}
    (h : k.resolve policy = .ok r) :
    ∃ names, names.Sound (contextOf policy k) [] (r.declarations.map (·.name)) ∧
      k.Corresponds r names := by
  obtain ⟨step, -, -, -, -, hsound, hcorresponds⟩ := Kind.resolve_run_corresponds h
  exact ⟨step.names, hsound, hcorresponds⟩

end KindSchema
