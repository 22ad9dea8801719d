import KindSchema.Proofs.Go.Declarations
import KindSchema.Proofs.Output.FileNames

/-!
# What can be expressed in Go

A kind may have names that cannot be written in Go. Whether its files can be made is a matter of
its parts: they can if each section and each declaration that is rendered can be expressed, and, in
the files of the sections, no declaration is named like the type of a section.

* `exists_fileOf_iff`: a single file, of a root and some declarations.
* `exists_typesFile_iff`, `exists_sectionFiles_iff`: the files of a kind.
-/

namespace KindSchema

namespace Go

/-- That the constants of `d` can be expressed; only enumerations have any. -/
def ConstantsExpressible (d : Declaration) : Prop :=
  ∀ values, d.body = .enum values → ∃ constants, constantsOf d.name [] values = .ok constants

/-- That `d` can be expressed, together with its constants. -/
structure Expressible (d : Declaration) : Prop where
  type : ∃ t, typeDeclaration d = .ok t
  constants : ConstantsExpressible d

/-- Whether constants can be made does not depend on the other declarations, nor on the order. -/
private theorem exists_constantBlocks_iff {declarations : List Declaration} :
    (∃ blocks, constantBlocks declarations = .ok blocks) ↔
      ∀ d ∈ declarations, ConstantsExpressible d := by
  induction declarations with
  | nil => exact ⟨fun _ d hd => absurd hd List.not_mem_nil, fun _ => ⟨[], rfl⟩⟩
  | cons d declarations ih =>
    rw [List.forall_mem_cons, ← ih]
    obtain ⟨name, docs, body, origin⟩ := d
    cases body with
    | enum values =>
      rw [constantBlocks, exists_bind_eq_ok_iff]
      constructor
      · rintro ⟨constants, hconstants, h⟩
        obtain ⟨rest, hrest, -⟩ := exists_bind_eq_ok_iff.mp h
        refine ⟨fun values' hvalues => ?_, rest, hrest⟩
        cases hvalues
        exact ⟨constants, hconstants⟩
      · rintro ⟨hexpressible, rest, hrest⟩
        obtain ⟨constants, hconstants⟩ := hexpressible values rfl
        exact ⟨constants, hconstants, exists_bind_eq_ok_iff.mpr ⟨rest, hrest, _, rfl⟩⟩
    | struct fields =>
      have hnone : ConstantsExpressible ⟨name, docs, .struct fields, origin⟩ :=
        fun _ hvalues => nomatch hvalues
      exact (and_iff_right hnone).symm
    | synonym shape =>
      have hnone : ConstantsExpressible ⟨name, docs, .synonym shape, origin⟩ :=
        fun _ hvalues => nomatch hvalues
      exact (and_iff_right hnone).symm

section Files

variable {package : String} {usesTime : Bool} {root : Except Unsupported TypeDeclaration}
  {declarations : List Declaration}

/-- A file can be made of `root` and `declarations` if each of them can be expressed, and only
then. -/
theorem exists_fileOf_iff : (∃ file, fileOf package usesTime root declarations = .ok file) ↔
    (∃ t, root = .ok t) ∧ ∀ d ∈ declarations, Expressible d := by
  unfold fileOf
  rw [exists_bind_eq_ok_iff]
  constructor
  · rintro ⟨t, ht, h⟩
    obtain ⟨types, htypes, h⟩ := exists_bind_eq_ok_iff.mp h
    obtain ⟨blocks, hblocks, -⟩ := exists_bind_eq_ok_iff.mp h
    refine ⟨⟨t, ht⟩, fun d hd => ⟨exists_mapM_iff.mp ⟨types, htypes⟩ d hd, ?_⟩⟩
    exact exists_constantBlocks_iff.mp ⟨blocks, hblocks⟩ d (List.mem_mergeSort.mpr hd)
  · rintro ⟨⟨t, ht⟩, h⟩
    obtain ⟨types, htypes⟩ := exists_mapM_iff.mpr fun d hd => (h d hd).type
    have hconstants : ∀ d ∈ declarations.mergeSort fun a b => decide (a.name ≤ b.name),
        ConstantsExpressible d := fun d hd => (h d (List.mem_mergeSort.mp hd)).constants
    obtain ⟨blocks, hblocks⟩ := exists_constantBlocks_iff.mpr hconstants
    refine ⟨t, ht, exists_bind_eq_ok_iff.mpr ⟨types, htypes, ?_⟩⟩
    exact exists_bind_eq_ok_iff.mpr ⟨blocks, hblocks, _, rfl⟩

/-- The file of `k` can be made if the members of the kind and the declarations that it depends on
can be expressed. -/
theorem exists_typesFile_iff {params : Params} {k : ResolvedKind} :
    (∃ file, typesFile params k = .ok file) ↔
      (∃ t, structDeclaration k.name k.description (k.presented params).envelope = .ok t) ∧
        ∀ d ∈ (k.presented params).reachableDeclarations, Expressible d :=
  exists_fileOf_iff

end Files

section Sections

variable {k : ResolvedKind} {claimed : List String} {sections : List (Field Shape)}

/-- That the type of the section `f` can be expressed. -/
def SectionExpressible (f : Field Shape) : Prop :=
  ∃ t, shapeDeclaration (sectionTypeName f) f.docs f.type = .ok t

/-- The files of some sections can be made if the sections and what they claim can be
expressed. -/
private theorem exists_filesOfSections_iff {package : String} :
    (∃ files, filesOfSections package k claimed sections = .ok files) ↔
      (∀ f ∈ sections, SectionExpressible f) ∧
        ∀ d ∈ claimedDeclarations k claimed sections, Expressible d := by
  induction sections generalizing claimed with
  | nil =>
    refine ⟨fun _ => ?_, fun _ => ⟨[], rfl⟩⟩
    exact ⟨fun f hf => absurd hf List.not_mem_nil, fun d hd => absurd hd List.not_mem_nil⟩
  | cons f sections ih =>
    rw [filesOfSections, exists_bind_eq_ok_iff, List.forall_mem_cons, claimedDeclarations,
      List.forall_mem_append]
    constructor
    · rintro ⟨file, hfile, h⟩
      obtain ⟨rest, hrest, -⟩ := exists_bind_eq_ok_iff.mp h
      obtain ⟨hsection, hdeclarations⟩ := exists_fileOf_iff.mp ⟨file, hfile⟩
      obtain ⟨hsections, hclaimed⟩ := ih.mp ⟨rest, hrest⟩
      exact ⟨⟨hsection, hsections⟩, hdeclarations, hclaimed⟩
    · rintro ⟨⟨hsection, hsections⟩, hdeclarations, hclaimed⟩
      obtain ⟨file, hfile⟩ := exists_fileOf_iff.mpr ⟨hsection, hdeclarations⟩
      obtain ⟨rest, hrest⟩ := ih.mpr ⟨hsections, hclaimed⟩
      exact ⟨file, hfile, exists_bind_eq_ok_iff.mpr ⟨rest, hrest, _, rfl⟩⟩

end Sections

/-- That each section of `k` as it is rendered under `params` has a name of which an identifier can
be made. -/
def SectionsNamed (params : Params) (k : ResolvedKind) : Prop :=
  ∀ f ∈ (k.presented params).envelope, ∃ name, Naming.identifier? f.name = some name

/-- The four files of `k` can be made if the sections have identifiers for names, no declaration is
named like the type of a section, and the members of the kind, the sections and the declarations can
be expressed. -/
theorem exists_sectionFiles_iff {params : Params} {k : ResolvedKind}
    (hnodup : (k.declarations.map (·.name)).Nodup) :
    (∃ files, sectionFiles params k = .ok files) ↔
      SectionsNamed params k ∧
        (∀ d ∈ (k.presented params).reachableDeclarations, d.name ∉ sectionTypeNames params k) ∧
        (∃ t, structDeclaration k.name k.description (sectionMembers (k.presented params)) =
          .ok t) ∧
        (∀ f ∈ (k.presented params).envelope, SectionExpressible f) ∧
        ∀ d ∈ (k.presented params).reachableDeclarations, Expressible d := by
  have hpresented : ((k.presented params).declarations.map (·.name)).Nodup := by
    rw [ResolvedKind.names_presented_declarations]
    exact hnodup
  -- Over all sections the claimed declarations are the reachable ones, each once.
  have hclaimed : (∀ d ∈ (k.presented params).reachableDeclarations, Expressible d) ↔
      ∀ d ∈ claimedDeclarations (k.presented params) [] (k.presented params).envelope,
        Expressible d :=
    forall_congr' fun d => imp_congr_left (perm_claimed hpresented).mem_iff.symm
  rw [hclaimed, ← exists_filesOfSections_iff]
  constructor
  · rintro ⟨files, h⟩
    obtain ⟨hnamed, hunshadowed, resource, rest, hresource, hrest, -⟩ := sectionFiles_eq_ok h
    exact ⟨fun f hf => ⟨_, hnamed f hf⟩, hunshadowed,
      (exists_fileOf_iff.mp ⟨resource, hresource⟩).1, rest, hrest⟩
  · rintro ⟨hnamed, hunshadowed, hmembers, rest, hrest⟩
    have hnone : ∀ d ∈ ([] : List Declaration), Expressible d :=
      fun d hd => absurd hd List.not_mem_nil
    obtain ⟨resource, hresource⟩ : ∃ file, fileOf (packageOf params k) false
        (structDeclaration k.name k.description (sectionMembers (k.presented params))) [] =
          .ok file :=
      exists_fileOf_iff.mpr ⟨hmembers, hnone⟩
    -- Both checks search for an offender, and the hypotheses leave none.
    have hidentifiers : (k.presented params).envelope.find?
        (fun f => (Naming.identifier? f.name).isNone) = none := by
      refine List.find?_eq_none.mpr fun f hf hnone => ?_
      obtain ⟨name, hname⟩ := hnamed f hf
      rw [hname] at hnone
      cases hnone
    have hfind : (k.presented params).reachableDeclarations.find?
        ((sectionTypeNames params k).contains ·.name) = none := by
      refine List.find?_eq_none.mpr fun d hd hshadows => ?_
      exact hunshadowed d hd (List.contains_iff_mem.mp hshadows)
    unfold sectionFiles
    dsimp only
    rw [hidentifiers, ← sectionTypeNames, hfind]
    refine exists_bind_eq_ok_iff.mpr ⟨resource, hresource, ?_⟩
    exact exists_bind_eq_ok_iff.mpr ⟨rest, hrest, _, rfl⟩

/-- The sections of `r`, a resolved kind, have identifiers for names, however it is presented. -/
theorem sectionsNamed_of_resolve {policy : Policy} {k : Kind} {r : ResolvedKind}
    (h : k.resolve policy = .ok r) (params : Params) : SectionsNamed params r := by
  have hnames := (r.presented_sectionNames params).trans (Kind.resolve_sectionNames h)
  have hidentifiers : ∀ name ∈ ["metadata", "spec", "status"],
      (Naming.identifier? name).isSome = true := by decide +kernel
  intro f hf
  have hname : f.name ∈ ["metadata", "spec", "status"] := hnames ▸ List.mem_map_of_mem hf
  exact Option.isSome_iff_exists.mp (hidentifiers f.name hname)

end Go

namespace Sample

open Go

/-- A kind with two enumerations, one of them lifted. -/
def lamp : Kind where
  name := "Lamp"
  metadata := { type := .struct { fields := [] } }
  spec := { fields := [
    { name := "mode", type := .reference "Mode" },
    { name := "color", type := .enum ["red", "dark-blue"] }] }
  status := { fields := [] }
  definitions := [{ name := "Mode", type := .enum ["on", "off"] }]

/-- The kind, resolved. -/
def lampResolved : ResolvedKind where
  name := "Lamp"
  machineName := "lamp"
  description := []
  metadata := { name := "metadata", type := .struct [] }
  spec := { name := "spec", type := .struct [
    { name := "mode", type := .named "Mode" },
    { name := "color", type := .named "SpecColor" }] }
  status := { name := "status", type := .struct [] }
  declarations := [
    ⟨"Mode", [], .enum ["on", "off"], .defined⟩,
    ⟨"SpecColor", [], .enum ["red", "dark-blue"], .lifted ["spec", "color"]⟩]

theorem resolve_lamp : lamp.resolve .nominal = .ok lampResolved := by
  with_unfolding_all rfl

private theorem expressible_lamp :
    ∀ d ∈ (lampResolved.presented {}).reachableDeclarations, Expressible d := by
  have hall : ∀ d ∈ lampResolved.declarations, Expressible d := by
    simp only [lampResolved, List.forall_mem_cons]
    refine ⟨⟨⟨_, rfl⟩, fun values hvalues => ?_⟩, ⟨⟨_, rfl⟩, fun values hvalues => ?_⟩,
      fun d hd => absurd hd List.not_mem_nil⟩
    · cases hvalues
      exact ⟨_, by with_unfolding_all rfl⟩
    · cases hvalues
      exact ⟨_, by with_unfolding_all rfl⟩
  intro d hd
  exact hall d (ResolvedKind.mem_reachable.mp hd).1

/-- The kind has a Go file. -/
theorem exists_typesFile_lamp : ∃ file, typesFile {} lampResolved = .ok file :=
  exists_typesFile_iff.mpr ⟨⟨_, by with_unfolding_all rfl⟩, expressible_lamp⟩

/-- The kind has Go files for its sections. -/
theorem exists_sectionFiles_lamp : ∃ files, sectionFiles {} lampResolved = .ok files := by
  have hunshadowed : ∀ d ∈ lampResolved.declarations,
      d.name ∉ sectionTypeNames {} lampResolved := by
    have hnames : sectionTypeNames {} lampResolved = ["Metadata", "Spec", "Status"] := by
      with_unfolding_all rfl
    rw [hnames]
    decide
  refine (exists_sectionFiles_iff (by decide)).mpr
    ⟨sectionsNamed_of_resolve resolve_lamp {}, fun d hd => ?_, ?_, ?_, expressible_lamp⟩
  · exact hunshadowed d (ResolvedKind.mem_reachable.mp hd).1
  · exact ⟨_, by with_unfolding_all rfl⟩
  · simp only [ResolvedKind.envelope, List.forall_mem_cons]
    exact ⟨⟨_, by with_unfolding_all rfl⟩, ⟨_, by with_unfolding_all rfl⟩,
      ⟨_, by with_unfolding_all rfl⟩, fun f hf => absurd hf List.not_mem_nil⟩

end Sample

end KindSchema
