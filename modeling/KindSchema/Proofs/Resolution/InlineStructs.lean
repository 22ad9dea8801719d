import KindSchema.Proofs.Resolution.Cycles
import KindSchema.Proofs.Resolution.Meetings

/-!
# Structs that stay inline

A struct that a resolution leaves where it is used has been met only once. As what a type is
resolved to can be turned back into the type, no two structs that stand in a resolved kind are
equal.

* `Shape.restore`: the type that a shape was resolved from, when it is known what the names in it
  stand for.
* `TypeRun.metBetween`, `FieldsRun.metBetween`, `BodyRun.metBetween`: the structs that a run leaves
  inline come of different structs, none of which was met before.
* `inlineStructs_nodup`: the structs inline in a resolved kind are all different.
-/

namespace KindSchema

open TypeExpr

/-! ### Structs in shapes -/

namespace Shape

mutual

/-- The structs that stand in a shape, itself included, one for each place. -/
def structs : Shape → List (List (Field Shape))
  | .scalar _ => []
  | .enum _ => []
  | .array items => structs items
  | .map values => structs values
  | .struct fields => fields :: fieldStructs fields
  | .named _ => []

/-- The structs that stand in the types of some fields. -/
def fieldStructs : List (Field Shape) → List (List (Field Shape))
  | [] => []
  | ⟨_, type, _, _⟩ :: fields => structs type ++ fieldStructs fields

end

/-- The structs that stand in the shape of a section, except the section itself. -/
def innerStructs : Shape → List (List (Field Shape))
  | .struct fields => fieldStructs fields
  | shape => shape.structs

private theorem innerStructs_sublist (shape : Shape) :
    shape.innerStructs.Sublist shape.structs := by
  cases shape with
  | struct fields => exact List.sublist_cons_self _ _
  | _ => exact List.Sublist.refl _

end Shape

/-- The structs that stand in a body, except the struct that is the body. -/
def Body.structs : Body → List (List (Field Shape))
  | .struct fields => Shape.fieldStructs fields
  | .enum _ => []
  | .synonym shape => shape.structs

/-- The structs that stand inline in `r`, one for each field and element that is a struct. The
sections are left out, and so are the structs that are declared. -/
def ResolvedKind.inlineStructs (r : ResolvedKind) : List (List (Field Shape)) :=
  r.envelope.flatMap (·.type.innerStructs) ++ r.declarations.flatMap (·.body.structs)

/-! ### Turning shapes back into types -/

namespace Shape

mutual

/-- The type that a shape was resolved from, if `origin` tells the types that names stand for. -/
def restore (origin : String → TypeExpr) : Shape → TypeExpr
  | .scalar kind => .scalar kind
  | .enum values => .enum values
  | .array items => .array (restore origin items)
  | .map values => .map (restore origin values)
  | .struct fields => .struct { fields := restoreFields origin fields }
  | .named name => origin name

/-- The fields that some fields were resolved from, given by `origin` the types of names. -/
def restoreFields (origin : String → TypeExpr) : List (Field Shape) → List (Field TypeExpr)
  | [] => []
  | ⟨name, type, optional, docs⟩ :: fields =>
    ⟨name, restore origin type, optional, docs⟩ :: restoreFields origin fields

end

end Shape

namespace Resolution

/-- The struct that a struct of `fields` was resolved from that has stayed inline. -/
def restoreStruct (origin : String → TypeExpr) (fields : List (Field Shape)) : StructType where
  fields := Shape.restoreFields origin fields

/-- The type that `name`, the name of a declaration of `r`, stands for. -/
def originOf (r : ResolvedKind) (names : Names) (name : String) : TypeExpr :=
  match r.declaration? name with
  | none => .reference name
  | some d =>
    match d.origin, d.body with
    | .defined, _ => .reference name
    | .lifted _, .enum values => .enum values
    | .lifted _, _ => ((names.lifted.find? (·.2 == name)).map (.struct ·.1)).getD default

/-- That `origin` tells the types that the names of declarations of `r` stand for. -/
structure Tells (r : ResolvedKind) (final : Names) (origin : String → TypeExpr) : Prop where
  enum : ∀ {name docs values path},
    r.declaration? name = some ⟨name, docs, .enum values, .lifted path⟩ →
      origin name = .enum values
  struct : ∀ {s name}, (s, name) ∈ final.lifted → origin name = .struct s
  reference : ∀ {name}, name ∈ final.defined → origin name = .reference name

/-- The declarations of a resolved kind and the structs that have been lifted tell what the names
stand for. -/
private theorem tells_originOf {c : Context} {k : Kind} {r : ResolvedKind} {names : Names}
    (hsound : names.Sound c [] (r.declarations.map (·.name))) (h : k.Corresponds r names) :
    Tells r names (originOf r names) where
  enum := by
    intro name docs values path hfound
    rw [originOf, hfound]
  struct := by
    intro s name hlifted
    obtain ⟨path, fields, hdeclared⟩ := h.structs s name hlifted
    -- The search finds some struct: the one that was lifted, as no two have the same name.
    have hsome : (names.lifted.find? (·.2 == name)).isSome :=
      List.find?_isSome.mpr ⟨_, hlifted, beq_self_eq_true name⟩
    obtain ⟨e, he⟩ := Option.isSome_iff_exists.mp hsome
    have hname : e.2 = name := by simpa using List.find?_some he
    obtain rfl : e = (s, name) :=
      List.inj_on_of_nodup_map hsound.names_nodup (List.mem_of_find?_eq_some he) hlifted hname
    rw [originOf, hdeclared.found]
    simp only [he, Option.map_some, Option.getD_some]
  reference := by
    intro name hdefined
    obtain ⟨d, body, hdeclared⟩ := h.exists_definition hdefined
    rw [originOf, hdeclared.found]

variable {policy : Policy} {k : Kind} {r : ResolvedKind} {final : Names}
  {origin : String → TypeExpr}

/-- A struct without a base for its name is nothing but its fields. -/
private theorem plain_of_liftedBase?_eq_none {c : Context} {s : StructType} {path : List String}
    {place : Place} (h : c.liftedBase? s path place = none) : s = { fields := s.fields } := by
  obtain ⟨hname, -, hdocs⟩ := of_liftedBase?_eq_none h
  obtain ⟨label, docs, fields⟩ := s
  obtain rfl : label = none := hname
  obtain rfl : docs = [] := hdocs
  rfl

mutual

/-- What a type is resolved to can be turned back into the type. -/
private theorem TypeRun.restore {c : Context} {opened path docs place type names step} :
    TypeRun c opened path docs place type names step → step.Declared r →
      step.names.Le final → Tells r final origin → step.result.restore origin = type
  | .scalar kind, _, _, _ => rfl
  | .enum values _, _, _, _ => rfl
  | .liftedEnum values _ _, hr, _, ht => ht.enum hr.head
  | .array run, hr, hle, ht => congrArg TypeExpr.array (run.restore hr hle ht)
  | .map run, hr, hle, ht => congrArg TypeExpr.map (run.restore hr hle ht)
  | .knownStruct known, _, hle, ht => by
    obtain ⟨before, after, hlifted, -⟩ := List.lookup_eq_some_iff.mp known
    exact ht.struct (hle.lifted (hlifted ▸ List.mem_append_right before List.mem_cons_self))
  -- A struct that stays inline has no annotation and no documentation, only fields to restore.
  | @TypeRun.struct _ _ _ _ _ s _ _ _ inline run, hr, hle, ht => by
    rw [plain_of_liftedBase?_eq_none inline]
    exact congrArg (fun fields => TypeExpr.struct { fields := fields }) (run.restore hr hle ht)
  | .liftedStruct _ _ _ run, hr, hle, ht =>
    ht.struct (hle.lifted (run.le.lifted List.mem_cons_self))
  | .knownReference known, _, hle, ht => ht.reference (hle.defined known)
  | .reference _ _ _ run, hr, hle, ht => ht.reference (hle.defined List.mem_cons_self)

private theorem FieldsRun.restore {c : Context} {opened path fields names step} :
    FieldsRun c opened path fields names step → step.Declared r →
      step.names.Le final → Tells r final origin → Shape.restoreFields origin step.result = fields
  | .nil, _, _, _ => rfl
  | .cons head tail, hr, hle, ht => by
    have hfirst := head.restore hr.left (tail.le.trans hle) ht
    have hrest := tail.restore hr.right hle ht
    rw [Field.withType, Shape.restoreFields, hfirst, hrest]

end

/-- Unless a section or a definition is a struct, its outer structs are those of its type. -/
private theorem rootOuterStructs_of_ne {type : TypeExpr} (noStruct : ∀ s, type ≠ .struct s) :
    type.rootOuterStructs = type.outerStructs := by
  cases type with
  | struct s => exact absurd rfl (noStruct s)
  | _ => rfl

/-! ### Structs that are met once -/

/-- That some structs are all different, and were met after those in `met` and until those in
`met'` had been. -/
structure MetBetween (met met' structs : List StructType) : Prop where
  subset : met ⊆ met'
  nodup : structs.Nodup
  mem : ∀ s ∈ structs, s ∈ met'
  not_mem : ∀ s ∈ structs, s ∉ met

namespace MetBetween

variable {met met' met'' structs structs' : List StructType} {s : StructType}

private theorem nil (met : List StructType) : MetBetween met met [] where
  subset := List.Subset.refl met
  nodup := List.nodup_nil
  mem := by simp
  not_mem := by simp

private theorem sublist (h : MetBetween met met' structs) (hsub : structs'.Sublist structs) :
    MetBetween met met' structs' where
  subset := h.subset
  nodup := h.nodup.sublist hsub
  mem := fun s hs => h.mem s (hsub.subset hs)
  not_mem := fun s hs => h.not_mem s (hsub.subset hs)

private theorem perm (h : MetBetween met met' structs) (hperm : structs.Perm structs') :
    MetBetween met met' structs' where
  subset := h.subset
  nodup := hperm.nodup_iff.mp h.nodup
  mem := fun s hs => h.mem s (hperm.mem_iff.mpr hs)
  not_mem := fun s hs => h.not_mem s (hperm.mem_iff.mpr hs)

private theorem append (h : MetBetween met met' structs) (h' : MetBetween met' met'' structs') :
    MetBetween met met'' (structs ++ structs') where
  subset := List.Subset.trans h.subset h'.subset
  nodup := by
    refine List.nodup_append'.mpr ⟨h.nodup, h'.nodup, fun s hs hs' => ?_⟩
    exact h'.not_mem s hs' (h.mem s hs)
  mem := by
    intro s hs
    rcases List.mem_append.mp hs with hs | hs
    · exact h'.subset (h.mem s hs)
    · exact h'.mem s hs
  not_mem := by
    intro s hs
    rcases List.mem_append.mp hs with hs | hs
    · exact h.not_mem s hs
    · exact fun hmet => h'.not_mem s hs (h.subset hmet)

/-- What is met after a struct, with or without the struct. -/
private theorem cons (h : MetBetween (s :: met) met' structs) (hnew : s ∉ met) :
    MetBetween met met' (s :: structs) := by
  have hself : MetBetween met (s :: met) [s] :=
    ⟨List.subset_cons_self s met, List.nodup_singleton s, by simp, by simpa using hnew⟩
  exact hself.append h

end MetBetween

/-- The structs that have stayed inline in the result of a step, as `structsOf` lists them, and in
the declarations it made, turned back. -/
def Step.sources {α : Type} (origin : String → TypeExpr) (structsOf : α → List (List (Field Shape)))
    (step : Step α) : List StructType :=
  (structsOf step.result ++ step.declarations.flatMap (·.body.structs)).map (restoreStruct origin)

/-- The sources of two steps, one after the other. -/
private theorem sources_append_perm {α β γ : Type} {f : α → List (List (Field Shape))}
    {g : β → List (List (Field Shape))} {structsOf : γ → List (List (Field Shape))} {result : γ}
    {first : Step α} {rest : Step β}
    (hresult : structsOf result = f first.result ++ g rest.result) :
    (first.sources origin f ++ rest.sources origin g).Perm
      (Step.sources origin structsOf
        ⟨result, first.declarations ++ rest.declarations, rest.names⟩) := by
  simp only [Step.sources, hresult, List.flatMap_append, ← List.map_append]
  refine List.Perm.map _ ?_
  rw [List.append_assoc, List.append_assoc]
  exact (List.perm_append_comm_assoc _ _ _).append_left _

/-- That the structs that `step` has left inline were met for the first time in it, and are all
different. -/
def Step.Meets {α : Type} (k : Kind) (opened : List String) (met rest : List StructType)
    (origin : String → TypeExpr) (structsOf : α → List (List (Field Shape))) (step : Step α) :
    Prop :=
  ∃ met', step.names.Meets k opened met' rest ∧ MetBetween met met' (step.sources origin structsOf)

mutual

/-- The structs that a run from `names` leaves inline come of different structs, which were not met
before. -/
theorem TypeRun.metBetween {opened path docs place type names step} :
    TypeRun (contextOf policy k) opened path docs place type names step → step.Declared r →
      step.names.Le final → Tells r final origin →
      ∀ {met rest}, names.Meets k opened met (type.outerStructs ++ rest) →
        step.Meets k opened met rest origin Shape.structs
  | .scalar _, _, _, _, met, _, h => ⟨met, h, .nil met⟩
  | .enum _ _, _, _, _, met, _, h => ⟨met, h, .nil met⟩
  | .liftedEnum _ _ _, _, _, _, met, _, h => ⟨met, h.reserve _, .nil met⟩
  | .array run, hr, hle, ht, _, _, h => run.metBetween hr hle ht h
  | .map run, hr, hle, ht, _, _, h => run.metBetween hr hle ht h
  | .knownStruct known, _, _, _, met, _, h => ⟨met, h.skip, .nil met⟩
  | @TypeRun.struct _ _ _ _ _ s _ inner unknown inline run, hr, hle, ht, met, _, h => by
    have hnew := h.not_mem_of_unknown unknown
    have hself : restoreStruct origin inner.result = s := by
      rw [restoreStruct, run.restore hr hle ht, ← plain_of_liftedBase?_eq_none inline]
    obtain ⟨met', hmeets, hbetween⟩ :=
      run.metBetween hr hle ht (h.meet hnew (not_alwaysLifts inline))
    have hsources : (inner.map Shape.struct).sources origin Shape.structs =
        s :: inner.sources origin Shape.fieldStructs := congrArg (· :: _) hself
    exact ⟨met', hmeets, hsources ▸ hbetween.cons hnew⟩
  | @TypeRun.liftedStruct _ _ _ _ _ s _ _ _ _ unknown lifts fresh run, hr, hle, ht, met, _, h => by
    have hnew := h.not_mem_of_unknown unknown
    -- The struct is declared and so no source; the others are a sublist.
    obtain ⟨met', hmeets, hbetween⟩ := run.metBetween hr.tail hle ht (h.lift hnew _)
    exact ⟨met', hmeets, (hbetween.cons hnew).sublist (List.sublist_cons_self _ _)⟩
  | .knownReference known, _, _, _, met, _, h => ⟨met, h, .nil met⟩
  | .reference unknown unopened found run, hr, hle, ht, met, _, h => by
    obtain ⟨met', hmeets, hbetween⟩ := run.metBetween hr.tail ((Names.Le.define _ _).trans hle) ht
      (h.opening found unknown unopened)
    exact ⟨met', hmeets.define, hbetween⟩

theorem FieldsRun.metBetween {opened path fields names step} :
    FieldsRun (contextOf policy k) opened path fields names step → step.Declared r →
      step.names.Le final → Tells r final origin →
      ∀ {met rest}, names.Meets k opened met (fieldOuterStructs fields ++ rest) →
        step.Meets k opened met rest origin Shape.fieldStructs
  | .nil, _, _, _, met, _, h => ⟨met, h, .nil met⟩
  | .cons head tail, hr, hle, ht, _, _, h => by
    rw [fieldOuterStructs, List.append_assoc] at h
    obtain ⟨met', hfirst, hbetween⟩ := head.metBetween hr.left (tail.le.trans hle) ht h
    obtain ⟨met'', hrest, hbetween'⟩ := tail.metBetween hr.right hle ht hfirst
    exact ⟨met'', hrest, (hbetween.append hbetween').perm (sources_append_perm rfl)⟩

theorem BodyRun.metBetween {opened d names step} :
    BodyRun (contextOf policy k) opened d names step → step.Declared r →
      step.names.Le final → Tells r final origin →
      ∀ {met rest}, names.Meets k opened met (d.type.rootOuterStructs ++ rest) →
        step.Meets k opened met rest origin Body.structs
  | .struct type run, hr, hle, ht, _, _, h => by
    rw [type] at h
    exact run.metBetween hr hle ht h
  | .enum type, _, _, _, met, _, h => ⟨met, h.skip, .nil met⟩
  | .synonym noStruct _ run, hr, hle, ht, _, _, h => by
    rw [rootOuterStructs_of_ne noStruct] at h
    exact run.metBetween hr hle ht h

end

private theorem SectionRun.metBetween {f names step}
    (run : SectionRun (contextOf policy k) f names step) (hr : step.Declared r)
    (hle : step.names.Le final) (ht : Tells r final origin) {met rest : List StructType}
    (h : names.Meets k [] met (f.type.rootOuterStructs ++ rest)) :
    step.Meets k [] met rest origin (·.type.innerStructs) := by
  cases run with
  | struct type run =>
    rw [type] at h
    exact run.metBetween hr hle ht h
  | other noStruct run =>
    rw [rootOuterStructs_of_ne noStruct] at h
    obtain ⟨met', hmeets, hbetween⟩ := run.metBetween hr hle ht h
    refine ⟨met', hmeets, hbetween.sublist (List.Sublist.map _ ?_)⟩
    exact (Shape.innerStructs_sublist _).append_right _

private theorem SectionsRun.metBetween {sections names step}
    (run : SectionsRun (contextOf policy k) sections names step) (hr : step.Declared r)
    (hle : step.names.Le final) (ht : Tells r final origin) {met rest : List StructType}
    (h : names.Meets k [] met (sections.flatMap (·.type.rootOuterStructs) ++ rest)) :
    step.Meets k [] met rest origin (·.flatMap (·.type.innerStructs)) := by
  induction run generalizing met with
  | nil => exact ⟨met, h, .nil met⟩
  | cons head tail ih =>
    rw [List.flatMap_cons, List.append_assoc] at h
    obtain ⟨met', hfirst, hbetween⟩ := head.metBetween hr.left (tail.le.trans hle) ht h
    obtain ⟨met'', hrest, hbetween'⟩ := ih hr.right hle hfirst
    exact ⟨met'', hrest, (hbetween.append hbetween').perm (sources_append_perm rfl)⟩

end Resolution

open Resolution

/-- Structs that are equal are never left inline at two places: over the fields and elements in the
sections and declarations of `r`, no struct stands inline twice. -/
theorem inlineStructs_nodup {policy : Policy} {k : Kind} {r : ResolvedKind}
    (h : k.resolve policy = .ok r) : r.inlineStructs.Nodup := by
  obtain ⟨step, run, henvelope, hdeclarations, hdeclared, hsound, hcorresponds⟩ :=
    Kind.resolve_run_corresponds h
  have hsections : k.envelope.flatMap (·.type.rootOuterStructs) ++ [] = k.sectionOuterStructs := by
    simp only [Kind.envelope, List.flatMap_cons, List.flatMap_nil, List.append_nil]
    rfl
  have hstart : Names.Meets k [] [] (k.envelope.flatMap (·.type.rootOuterStructs) ++ [])
      { used := reservedNames k } := hsections ▸ .start k
  obtain ⟨met, -, hbetween⟩ :=
    run.metBetween hdeclared (.refl step.names) (tells_originOf hsound hcorresponds) hstart
  have hnodup := hbetween.nodup.of_map
  rwa [← henvelope, ← hdeclarations] at hnodup

namespace Sample

/-- The only struct that stays inline in the small kind, for a language in which a struct may, is
the one of a visit; the address, which is used twice, is declared. -/
theorem inlineStructs_shop : ∃ r, shop.resolve .inline = .ok r ∧ r.inlineStructs.Nodup ∧
    r.inlineStructs = [[{ name := "day", type := .scalar .dateTime }]] := by
  obtain ⟨r, hresolve, hstructs⟩ : ∃ r, shop.resolve .inline = .ok r ∧
      r.inlineStructs = [[{ name := "day", type := .scalar .dateTime }]] :=
    ⟨_, by with_unfolding_all rfl, rfl⟩
  exact ⟨r, hresolve, inlineStructs_nodup hresolve, hstructs⟩

end Sample

end KindSchema
