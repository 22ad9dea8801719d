import Mathlib.Data.Set.Finite.Basic
import Mathlib.Logic.Relation
import KindSchema.Proofs.Resolution.Correspondence
import KindSchema.Proofs.Resolution.MentionOrder

/-!
# Cycles among the declarations

`Kind.Within` relates the name in a reference to the definition it stands in, and
`ResolvedKind.Within` a name that is mentioned to the declaration that mentions it. A struct
contains itself if its declaration is within itself, directly or through other declarations.

Resolution looks for cycles on the stack of the definitions that are open. A struct that has been
lifted is not followed again, even while its own body is being resolved, and then what is open
inside that body is not seen.

* `Kind.Corresponds.reaches`: a reference in a type is found, from the shape that stands for the
  type, by following mentions. Hence cycles of references become cycles of declarations.
* `Kind.Corresponds.acc`: mentions add none to those of the references, since a struct is smaller
  than the structs around it.
* `DefinitionsDeclared.acc`: among the declarations of definitions alone there is no cycle.
* `acyclic_iff_referencesAcyclic`: so the declarations of a resolved kind are free of cycles
  exactly if the references that its sections lead to are.
-/

namespace KindSchema

/-! ### References -/

namespace TypeExpr

mutual

/-- The names that the references in a type have. -/
def references : TypeExpr → List String
  | .scalar _ => []
  | .enum _ => []
  | .array items => references items
  | .map values => references values
  | .struct ⟨_, _, fields⟩ => fieldReferences fields
  | .reference name => [name]

/-- The names that the references in the types of some fields have. -/
def fieldReferences : List (Field TypeExpr) → List String
  | [] => []
  | ⟨_, type, _, _⟩ :: fields => references type ++ fieldReferences fields

end

private theorem references_struct (s : StructType) :
    references (.struct s) = fieldReferences s.fields := by
  cases s
  rw [references]

end TypeExpr

namespace Kind

/-- That the definition of `outer` refers to `inner`. -/
def Within (k : Kind) (inner outer : String) : Prop :=
  ∃ d, k.definition? outer = some d ∧ inner ∈ d.type.references

/-- That the sections of `k` refer to `name`, directly or through definitions. -/
def IsReferenced (k : Kind) (name : String) : Prop :=
  ∃ root ∈ TypeExpr.fieldReferences k.envelope, Relation.ReflTransGen k.Within name root

/-- That no definition that the sections of `k` refer to refers to itself, directly or through
others. -/
def ReferencesAcyclic (k : Kind) : Prop :=
  ∀ name, k.IsReferenced name → ¬ Relation.TransGen k.Within name name

end Kind

namespace ResolvedKind

variable {r : ResolvedKind} {name inner : String} {d : Declaration}

/-- That the declaration of `outer` mentions `inner`. -/
def Within (r : ResolvedKind) (inner outer : String) : Prop :=
  inner ∈ r.mentions outer

/-- That no declaration of `r` mentions itself, directly or through others. -/
def Acyclic (r : ResolvedKind) : Prop :=
  ∀ name, ¬ Relation.TransGen r.Within name name

/-- That `name` has the declaration of a definition. -/
def IsDefined (r : ResolvedKind) (name : String) : Prop :=
  ∃ d, r.declaration? name = some d ∧ d.origin = .defined

/-- That `name` has a declaration that was lifted. -/
def IsLifted (r : ResolvedKind) (name : String) : Prop :=
  ∃ d, r.declaration? name = some d ∧ ∃ path, d.origin = .lifted path

/-- What is within the declaration `d` of `name` is what its body mentions. -/
theorem within_iff (hd : r.declaration? name = some d) :
    r.Within inner name ↔ inner ∈ d.body.names := by
  rw [Within, mentions, hd]

theorem IsLifted.not_isDefined (h : r.IsLifted name) : ¬ r.IsDefined name := by
  obtain ⟨d, hd, path, horigin⟩ := h
  rintro ⟨e, he, hdefined⟩
  rw [hd, Option.some.injEq] at he
  subst he
  rw [hdefined] at horigin
  cases horigin

/-- If `P` holds of the names that a walk starts from, and with a name of all that is within it, it
holds of every name that the walk records. -/
theorem walk_induction {P : String → Prop}
    (hwithin : ∀ outer, P outer → ∀ inner, r.Within inner outer → P inner)
    {seen pending : List String} (hseen : ∀ name ∈ seen, P name)
    (hpending : ∀ name ∈ pending, P name) : ∀ name ∈ r.walk seen pending, P name := by
  fun_induction walk r seen pending with
  | case1 seen => exact hseen
  | case2 seen name pending _ ih => exact ih hseen (List.forall_mem_cons.mp hpending).2
  | case3 seen name pending _ _ ih =>
    obtain ⟨hname, hpending⟩ := List.forall_mem_cons.mp hpending
    exact ih (List.forall_mem_append.mpr ⟨hseen, by simpa using hname⟩) hpending
  | case4 seen name pending _ d hd ih =>
    obtain ⟨hname, hpending⟩ := List.forall_mem_cons.mp hpending
    refine ih (List.forall_mem_append.mpr ⟨hseen, by simpa using hname⟩)
      (List.forall_mem_append.mpr ⟨fun inner hinner => ?_, hpending⟩)
    exact hwithin name hname inner ((within_iff hd).mpr hinner)

end ResolvedKind

/-! ### Cycles and accessibility -/

section Relations

variable {α : Type} {R : α → α → Prop}

/-- What is accessible is on no cycle. -/
private theorem not_transGen_of_acc {a : α} (h : Acc R a) : ¬ Relation.TransGen R a a := by
  replace h := h.transGen
  intro hcycle
  induction h with
  | intro a _ ih => exact ih a hcycle hcycle

/-- On finitely many elements, a relation without cycles is well-founded. -/
private theorem wellFounded_of_acyclic [Finite α] (h : ∀ a, ¬ Relation.TransGen R a a) :
    WellFounded R := by
  have hirrefl : Std.Irrefl (Relation.TransGen R) := ⟨h⟩
  have hwf : WellFounded (Relation.TransGen R) := Finite.wellFounded_of_trans_of_irrefl _
  exact Subrelation.wf (fun hab => .single hab) hwf

end Relations

namespace Resolution

variable {k : Kind} {r : ResolvedKind} {names : Names}

/-! ### References become mentions -/

/-- A definition that is resolved is declared by means of some that are resolved. -/
private theorem DefinitionsDeclared.exists_declared {defined : List String}
    (h : DefinitionsDeclared k r names defined) {name : String} (hname : name ∈ defined) :
    ∃ d body, DefinitionDeclared k r (names.withDefined defined) name d body := by
  induction h with
  | nil => cases hname
  | @cons newest older d body declared rest ih =>
    have hle : (names.withDefined older).Le (names.withDefined (newest :: older)) :=
      .withDefined (List.subset_cons_self _ _)
    rcases List.mem_cons.mp hname with rfl | hname
    · exact ⟨d, body, declared.definition, declared.found, declared.resolves.mono hle⟩
    · obtain ⟨d, body, hd⟩ := ih hname
      exact ⟨d, body, hd.definition, hd.found, hd.resolves.mono hle⟩

mutual

/-- What a shape mentions is a definition that has been resolved, or has been lifted. -/
private theorem Resolves.defined_or_isLifted
    (hstructs : ∀ s name, (s, name) ∈ names.lifted → r.IsLifted name) {type shape} :
    Resolves r names type shape → ∀ name ∈ shape.names, name ∈ names.defined ∨ r.IsLifted name
  | .scalar _, _, hname => by cases hname
  | .enum _, _, hname => by cases hname
  -- Two of the shapes that are names are those of lifted declarations, the third that of a
  -- definition.
  | .liftedEnum found _ lifted, name, hname => by
    obtain rfl := List.mem_singleton.mp hname
    exact .inr ⟨_, found, lifted⟩
  | .array resolves, name, hname => resolves.defined_or_isLifted hstructs name hname
  | .map resolves, name, hname => resolves.defined_or_isLifted hstructs name hname
  | .struct resolve, name, hname => resolve.defined_or_isLifted hstructs name hname
  | .liftedStruct lifted, name, hname => by
    obtain rfl := List.mem_singleton.mp hname
    exact .inr (hstructs _ _ lifted)
  | .reference defined, name, hname => by
    obtain rfl := List.mem_singleton.mp hname
    exact .inl defined

private theorem FieldsResolve.defined_or_isLifted
    (hstructs : ∀ s name, (s, name) ∈ names.lifted → r.IsLifted name) {fields shapes} :
    FieldsResolve r names fields shapes →
      ∀ name ∈ Shape.fieldNames shapes, name ∈ names.defined ∨ r.IsLifted name
  | .nil, _, hname => by cases hname
  | .cons head tail, name, hname => by
    rcases List.mem_append.mp hname with hname | hname
    · exact head.defined_or_isLifted hstructs name hname
    · exact tail.defined_or_isLifted hstructs name hname

end

private theorem BodyResolves.defined_or_isLifted {d : Definition} {body : Body}
    (h : BodyResolves r names d body)
    (hstructs : ∀ s name, (s, name) ∈ names.lifted → r.IsLifted name) :
    ∀ name ∈ body.names, name ∈ names.defined ∨ r.IsLifted name := by
  cases h with
  | struct _ resolve => exact resolve.defined_or_isLifted hstructs
  | enum _ => exact fun _ hname => absurd hname List.not_mem_nil
  | synonym _ _ resolves => exact resolves.defined_or_isLifted hstructs

/-- Among the declarations of definitions, no chain of mentions is endless. -/
theorem DefinitionsDeclared.acc {defined : List String}
    (h : DefinitionsDeclared k r names defined)
    (hstructs : ∀ s name, (s, name) ∈ names.lifted → r.IsLifted name) :
    ∀ name ∈ defined, Acc (fun inner outer => r.Within inner outer ∧ r.IsDefined inner) name := by
  induction h with
  | nil => exact fun name hname => absurd hname List.not_mem_nil
  | @cons newest older d body declared _ ih =>
    intro name hname
    rcases List.mem_cons.mp hname with rfl | hname
    · refine .intro name fun inner hinner => ?_
      obtain ⟨hwithin, hinner⟩ := hinner
      rw [ResolvedKind.within_iff declared.found] at hwithin
      -- What the body mentions is older, unless it has been lifted.
      rcases declared.resolves.defined_or_isLifted hstructs inner hwithin with holder | hlifted
      · exact ih inner holder
      · exact absurd hinner hlifted.not_isDefined
    · exact ih name hname

end Resolution

open Resolution

namespace Kind.Corresponds

variable {k : Kind} {r : ResolvedKind} {names : Names}

/-- The definition `name`, if it is resolved, has its declaration. -/
theorem exists_definition (h : k.Corresponds r names) {name : String}
    (hname : name ∈ names.defined) : ∃ d body, DefinitionDeclared k r names name d body :=
  h.definitions.exists_declared hname

mutual

/-- A reference to `inner` in `type` has been resolved, and `inner` is within the shape that stands
for `type`. -/
theorem reaches (h : k.Corresponds r names) :
    ∀ {type : TypeExpr} {shape : Shape}, Resolves r names type shape →
      ∀ {inner : String}, inner ∈ type.references →
        inner ∈ names.defined ∧ ∃ name ∈ shape.names, Relation.ReflTransGen r.Within inner name
  | .scalar _, _, _, inner, hinner => absurd hinner List.not_mem_nil
  | .enum _, _, _, inner, hinner => absurd hinner List.not_mem_nil
  | .array _, _, .array resolves, inner, hinner => h.reaches resolves hinner
  | .map _, _, .map resolves, inner, hinner => h.reaches resolves hinner
  | .struct ⟨_, _, _⟩, _, .struct resolve, inner, hinner => h.fields_reach resolve hinner
  | .struct ⟨_, _, _⟩, .named name, .liftedStruct lifted, inner, hinner => by
    obtain ⟨path, shapes, hd⟩ := h.structs _ _ lifted
    obtain ⟨hdefined, other, hother, hwithin⟩ := h.fields_reach hd.resolve hinner
    exact ⟨hdefined, name, List.mem_singleton_self name,
      hwithin.tail ((ResolvedKind.within_iff hd.found).mpr hother)⟩
  | .reference name, _, .reference defined, inner, hinner => by
    obtain rfl := List.mem_singleton.mp hinner
    exact ⟨defined, inner, List.mem_singleton_self inner, .refl⟩

theorem fields_reach (h : k.Corresponds r names) :
    ∀ {fields : List (Field TypeExpr)} {shapes : List (Field Shape)},
      FieldsResolve r names fields shapes →
      ∀ {inner : String}, inner ∈ TypeExpr.fieldReferences fields →
        inner ∈ names.defined ∧
          ∃ name ∈ Shape.fieldNames shapes, Relation.ReflTransGen r.Within inner name
  | [], _, _, inner, hinner => absurd hinner List.not_mem_nil
  | ⟨_, _, _, _⟩ :: _, _, .cons head tail, inner, hinner => by
    rcases List.mem_append.mp hinner with hinner | hinner
    · obtain ⟨hdefined, name, hname, hwithin⟩ := h.reaches head hinner
      exact ⟨hdefined, name, List.mem_append_left _ hname, hwithin⟩
    · obtain ⟨hdefined, name, hname, hwithin⟩ := h.fields_reach tail hinner
      exact ⟨hdefined, name, List.mem_append_right _ hname, hwithin⟩

end

/-- What the definition of a resolved name refers to has been resolved, and is within its
declaration. -/
private theorem transGen_within (h : k.Corresponds r names) {inner name : String}
    (hname : name ∈ names.defined) (hinner : k.Within inner name) :
    inner ∈ names.defined ∧ Relation.TransGen r.Within inner name := by
  obtain ⟨d, body, hd⟩ := h.exists_definition hname
  obtain ⟨e, he, hinner⟩ := hinner
  obtain rfl : d = e := Option.some.inj (hd.definition.symm.trans he)
  have hreaches : inner ∈ names.defined ∧
      ∃ other ∈ body.names, Relation.ReflTransGen r.Within inner other := by
    cases hd.resolves with
    | @struct s fields type resolve =>
      rw [type, TypeExpr.references_struct] at hinner
      exact h.fields_reach resolve hinner
    | enum type =>
      rw [type] at hinner
      exact absurd hinner List.not_mem_nil
    | synonym _ _ resolves => exact h.reaches resolves hinner
  obtain ⟨hdefined, other, hother, hwithin⟩ := hreaches
  exact ⟨hdefined, .tail' hwithin ((ResolvedKind.within_iff hd.found).mpr hother)⟩

/-- A chain of references from a resolved name is a chain of mentions. -/
private theorem transGen_of_transGen (h : k.Corresponds r names) {inner name : String}
    (hinner : Relation.TransGen k.Within inner name) (hname : name ∈ names.defined) :
    inner ∈ names.defined ∧ Relation.TransGen r.Within inner name := by
  induction hinner with
  | single hwithin => exact h.transGen_within hname hwithin
  | tail _ hwithin ih =>
    obtain ⟨hdefined, houter⟩ := h.transGen_within hname hwithin
    obtain ⟨hinner, hrest⟩ := ih hdefined
    exact ⟨hinner, hrest.trans houter⟩

/-- If the sections refer to `name`, it has been resolved. -/
theorem defined_of_isReferenced (h : k.Corresponds r names) {name : String}
    (hname : k.IsReferenced name) : name ∈ names.defined := by
  obtain ⟨root, hroot, hchain⟩ := hname
  have hdefined := (h.fields_reach h.sections hroot).1
  rcases Relation.reflTransGen_iff_eq_or_transGen.mp hchain with rfl | hchain
  · exact hdefined
  · exact (h.transGen_of_transGen hchain hdefined).1

/-! ### Mentions follow references -/

mutual

/-- If no chain of mentions from the references in `type` is endless, none is from the shape that
stands for it. -/
theorem acc (h : k.Corresponds r names) :
    ∀ {type : TypeExpr} {shape : Shape}, Resolves r names type shape →
      (∀ inner ∈ type.references, Acc r.Within inner) → ∀ name ∈ shape.names, Acc r.Within name
  | .scalar _, _, .scalar _, _, name, hname => absurd hname List.not_mem_nil
  | .enum _, _, .enum _, _, name, hname => absurd hname List.not_mem_nil
  -- Nothing is within an enumeration, so its name is at the end of every chain.
  | .enum values, _, .liftedEnum found body _, _, name, hname => by
    obtain rfl := List.mem_singleton.mp hname
    refine .intro _ fun inner hinner => ?_
    rw [ResolvedKind.within_iff found, body] at hinner
    exact absurd hinner List.not_mem_nil
  | .array _, _, .array resolves, hacc, name, hname => h.acc resolves hacc name hname
  | .map _, _, .map resolves, hacc, name, hname => h.acc resolves hacc name hname
  | .struct ⟨_, _, _⟩, _, .struct resolve, hacc, name, hname =>
    h.fields_acc resolve hacc name hname
  -- One step down from the name of a struct leads into its fields, where the induction goes on.
  | .struct ⟨_, _, _⟩, _, .liftedStruct lifted, hacc, name, hname => by
    obtain rfl := List.mem_singleton.mp hname
    obtain ⟨path, shapes, hd⟩ := h.structs _ _ lifted
    refine .intro name fun inner hinner => ?_
    rw [ResolvedKind.within_iff hd.found] at hinner
    exact h.fields_acc hd.resolve hacc inner hinner
  | .reference _, _, .reference _, hacc, name, hname => hacc name hname

theorem fields_acc (h : k.Corresponds r names) :
    ∀ {fields : List (Field TypeExpr)} {shapes : List (Field Shape)},
      FieldsResolve r names fields shapes →
      (∀ inner ∈ TypeExpr.fieldReferences fields, Acc r.Within inner) →
        ∀ name ∈ Shape.fieldNames shapes, Acc r.Within name
  | [], _, .nil, _, name, hname => absurd hname List.not_mem_nil
  | ⟨_, _, _, _⟩ :: _, _, .cons head tail, hacc, name, hname => by
    obtain ⟨hhead, htail⟩ := List.forall_mem_append.mp hacc
    rcases List.mem_append.mp hname with hname | hname
    · exact h.acc head hhead name hname
    · exact h.fields_acc tail htail name hname

end

/-- If no chain of mentions from what a definition refers to is endless, none is from its
declaration. -/
private theorem acc_of_definition (h : k.Corresponds r names) {name : String}
    (hname : name ∈ names.defined) (hacc : ∀ inner, k.Within inner name → Acc r.Within inner) :
    Acc r.Within name := by
  obtain ⟨d, body, hd⟩ := h.exists_definition hname
  replace hacc : ∀ inner ∈ d.type.references, Acc r.Within inner :=
    fun inner hinner => hacc inner ⟨d, hd.definition, hinner⟩
  refine .intro name fun inner hinner => ?_
  rw [ResolvedKind.within_iff hd.found] at hinner
  cases hd.resolves with
  | @struct s fields type resolve =>
    rw [type, TypeExpr.references_struct] at hacc
    exact h.fields_acc resolve hacc inner hinner
  | enum _ => exact absurd hinner List.not_mem_nil
  | synonym _ _ resolves => exact h.acc resolves hacc inner hinner

/-- If the references are free of cycles, no chain of mentions from one of them is endless. -/
private theorem acc_of_referencesAcyclic (h : k.Corresponds r names)
    (hacyclic : k.ReferencesAcyclic) {name : String} (hname : k.IsReferenced name) :
    Acc r.Within name := by
  -- Only finitely many names are referred to, as all of them have been resolved.
  have hfinite : Finite {name // k.IsReferenced name} :=
    ((List.finite_toSet names.defined).subset fun _ hother => h.defined_of_isReferenced hother)
  let value : {name // k.IsReferenced name} → String := Subtype.val
  have hwf : WellFounded (InvImage k.Within value) := wellFounded_of_acyclic fun a ha =>
    hacyclic a.1 a.2 (Relation.TransGen.lift value (fun _ _ hab => hab) _ _ ha)
  suffices hall : ∀ a, Acc r.Within (value a) from hall ⟨name, hname⟩
  intro a
  induction a using hwf.induction with
  | _ a ih =>
    refine h.acc_of_definition (h.defined_of_isReferenced a.2) fun inner hinner => ?_
    obtain ⟨root, hroot, hchain⟩ := a.2
    exact ih ⟨inner, root, hroot, hchain.head hinner⟩ hinner

/-- A struct `s` that has been lifted has a declaration that was lifted. -/
theorem isLifted (h : k.Corresponds r names) (s : StructType) (name : String)
    (hlifted : (s, name) ∈ names.lifted) : r.IsLifted name := by
  obtain ⟨path, fields, hd⟩ := h.structs s name hlifted
  exact ⟨_, hd.found, path, rfl⟩

end Kind.Corresponds

/-! ### Resolved kinds -/

section Resolved

variable {policy : Policy} {k : Kind} {r : ResolvedKind}

/-- If the references that the sections lead to are free of cycles, so are the declarations. -/
private theorem Kind.ReferencesAcyclic.acyclic (hacyclic : k.ReferencesAcyclic)
    (h : k.resolve policy = .ok r) : r.Acyclic := by
  obtain ⟨names, -, hcorresponds⟩ := Kind.resolve_corresponds h
  have hroots : ∀ name ∈ Shape.fieldNames r.envelope, Acc r.Within name :=
    hcorresponds.fields_acc hcorresponds.sections fun inner hinner =>
      hcorresponds.acc_of_referencesAcyclic hacyclic ⟨inner, hinner, .refl⟩
  have hall : ∀ name ∈ r.mentionOrder, Acc r.Within name :=
    ResolvedKind.walk_induction (fun _ houter _ hinner => houter.inv hinner)
      (fun name hname => absurd hname List.not_mem_nil) hroots
  intro name hcycle
  -- A name on a cycle mentions something, so it is declared and a walk records it.
  obtain ⟨inner, -, hinner⟩ := Relation.TransGen.tail'_iff.mp hcycle
  obtain ⟨d, hd, -⟩ := ResolvedKind.mem_mentions.mp hinner
  obtain ⟨hmem, rfl⟩ := ResolvedKind.declaration?_eq_some hd
  have hrecorded : d.name ∈ r.mentionOrder :=
    Kind.resolve_mentionOrder h ▸ List.mem_map_of_mem hmem
  exact not_transGen_of_acc (hall d.name hrecorded) hcycle

/-- If the declarations are free of cycles, so are the references that the sections lead to. -/
private theorem ResolvedKind.Acyclic.referencesAcyclic (hacyclic : r.Acyclic)
    (h : k.resolve policy = .ok r) : k.ReferencesAcyclic := by
  obtain ⟨names, -, hcorresponds⟩ := Kind.resolve_corresponds h
  intro name hname hcycle
  have hdefined := hcorresponds.defined_of_isReferenced hname
  exact hacyclic name (hcorresponds.transGen_of_transGen hcycle hdefined).2

/-- What has the declaration of a definition has been resolved. -/
private theorem ResolvedKind.IsDefined.mem_defined {name : String} (hname : r.IsDefined name)
    (h : k.resolve policy = .ok r) {names : Names}
    (hsound : names.Sound (contextOf policy k) [] (r.declarations.map (·.name))) :
    name ∈ names.defined := by
  obtain ⟨step, -, -, hdeclarations, hstep, -⟩ := Kind.resolve_sound h
  obtain ⟨d, hd, horigin⟩ := hname
  obtain ⟨hmem, rfl⟩ := declaration?_eq_some hd
  have hdefinition := (hstep.proper d (hdeclarations ▸ hmem)).defined horigin
  have hvisited := (hsound.visited d.name).mpr ⟨List.mem_map_of_mem hmem, hdefinition⟩
  rwa [List.append_nil] at hvisited

/-- The declarations of `r` have no cycle if and only if no definition that the sections of `k`
refer to, directly or through definitions, refers to itself in the same way. And whatever the
references are, a cycle never consists of declarations of definitions alone: one of its declarations
has been lifted. -/
theorem acyclic_iff_referencesAcyclic (h : k.resolve policy = .ok r) :
    (r.Acyclic ↔ k.ReferencesAcyclic) ∧
      ∀ name, ¬ Relation.TransGen (fun inner outer => r.Within inner outer ∧ r.IsDefined inner)
        name name := by
  refine ⟨⟨fun hacyclic => hacyclic.referencesAcyclic h, fun hacyclic => hacyclic.acyclic h⟩, ?_⟩
  intro name hcycle
  obtain ⟨names, hsound, hcorresponds⟩ := Kind.resolve_corresponds h
  obtain ⟨inner, hname, -⟩ := Relation.TransGen.head'_iff.mp hcycle
  have hdefined := hname.2.mem_defined h hsound
  have hacc := hcorresponds.definitions.acc hcorresponds.isLifted name hdefined
  exact not_transGen_of_acc hacc hcycle

end Resolved

namespace Sample

/-- In the small kind no definition refers to another. -/
theorem acyclic_shop : shop.resolve .nominal = .ok shopResolved ∧ shop.ReferencesAcyclic ∧
    shopResolved.Acyclic := by
  have hacyclic : shop.ReferencesAcyclic := by
    intro name _ hcycle
    obtain ⟨outer, -, d, hd, hinner⟩ := Relation.TransGen.tail'_iff.mp hcycle
    have hmem : d ∈ shop.definitions ++ builtinDefinitions := (Kind.definition?_eq_some hd).1
    have hnone : ∀ d ∈ shop.definitions ++ builtinDefinitions, d.type.references = [] := by
      decide +kernel
    rw [hnone d hmem] at hinner
    exact absurd hinner List.not_mem_nil
  exact ⟨resolve_shop, hacyclic, (acyclic_iff_referencesAcyclic resolve_shop).1.mpr hacyclic⟩

/-- A struct that refers to a definition. -/
def link : StructType where
  fields := [{ name := "next", type := .reference "Chain" }]

/-- A kind with a definition in which that struct stands, so that it contains itself. The struct is
met outside the definition first. -/
def looping : Kind where
  name := "Loop"
  metadata := { type := .struct { fields := [] } }
  spec := { fields := [{ name := "first", type := .struct link }] }
  status := { fields := [] }
  definitions := [
    { name := "Chain", type := .struct { fields := [{ name := "link", type := .struct link }] } }]

/-- What the kind is resolved to. -/
def loopingResolved : ResolvedKind where
  name := "Loop"
  machineName := "loop"
  description := []
  metadata := { name := "metadata", type := .struct [] }
  spec := { name := "spec", type := .struct [{ name := "first", type := .named "SpecFirst" }] }
  status := { name := "status", type := .struct [] }
  declarations := [
    ⟨"SpecFirst", [], .struct [{ name := "next", type := .named "Chain" }],
      .lifted ["spec", "first"]⟩,
    ⟨"Chain", [], .struct [{ name := "link", type := .named "SpecFirst" }], .defined⟩]

/-- The struct has been lifted, and so it is not followed inside the definition, although its own
fields are still being resolved: the cycle goes unnoticed. -/
theorem resolve_looping :
    looping.resolve .inline = .ok loopingResolved ∧ ¬ loopingResolved.Acyclic := by
  refine ⟨by with_unfolding_all rfl, fun hacyclic => ?_⟩
  have hdown : loopingResolved.Within "Chain" "SpecFirst" := by
    rw [ResolvedKind.Within]
    decide
  have hup : loopingResolved.Within "SpecFirst" "Chain" := by
    rw [ResolvedKind.Within]
    decide
  exact hacyclic "SpecFirst" (.tail (.single hup) hdown)

end Sample

end KindSchema
