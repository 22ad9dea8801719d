import Mathlib.Data.List.Nodup
import Mathlib.Data.List.Pairwise
import Mathlib.Data.String.Basic
import KindSchema.Proofs.Go.Identifiers
import KindSchema.Proofs.Go.PrintedNames

/-!
# The Go files of sections

A kind is rendered in a file of its own, which has no declaration but that of the kind, and a file
for each section. Each section has the declarations that it depends on, unless a section before it
does so too.

* `AreSectionFiles`: what the files of some sections are, section by section.
* `filesOfSections_areSectionFiles`: that they are so, by induction on the sections. What has been
  claimed is what the sections before depend on.
* `render_sections`: the files of a kind.
-/

namespace KindSchema

namespace Go

/-! ### Order -/

/-- What is sorted by name is in the order of names, without repetitions if all names are
different. -/
private theorem pairwise_map_mergeSort {α : Type} {name : α → String} {xs : List α}
    (h : (xs.map name).Nodup) :
    ((xs.mergeSort fun a b => decide (name a ≤ name b)).map name).Pairwise (· < ·) := by
  have hperm := (List.mergeSort_perm xs fun a b => decide (name a ≤ name b)).map name
  have hnodup := hperm.nodup_iff.mpr h
  rw [List.Nodup, List.pairwise_map] at hnodup
  rw [List.pairwise_map]
  exact ((pairwise_mergeSort_key name xs).and hnodup).imp fun h => lt_of_le_of_ne h.1 h.2

/-- An entry of lists that together have no repetitions is in one of them alone. -/
private theorem existsUnique_mem_of_nodup_flatMap {α β : Type} {f : α → List β} {xs : List α}
    {y : β} (h : (xs.flatMap f).Nodup) (hy : y ∈ xs.flatMap f) : ∃! x, x ∈ xs ∧ y ∈ f x := by
  obtain ⟨x, hx, hmem⟩ := List.mem_flatMap.mp hy
  refine ⟨x, ⟨hx, hmem⟩, fun x' ⟨hx', hmem'⟩ => by_contra fun hne => ?_⟩
  have hsymm : Std.Symm (Function.onFun List.Disjoint f) := ⟨fun _ _ hd => List.Disjoint.symm hd⟩
  have hapart := (List.nodup_flatMap.mp h).2.forall hx' hx hne
  exact hapart hmem' hmem

/-! ### Blocks of constants -/

/-- That `b` has the constants of `d`, an enumeration. -/
structure IsBlockOf (d : Declaration) (b : ConstantBlock) : Prop where
  type_eq : b.type = d.name
  constants_eq : ∃ values, d.body = .enum values ∧ constantsOf d.name [] values = .ok b.constants

/-- The blocks of some declarations are those of the enumerations among them. -/
private theorem constantBlocks_isBlockOf {declarations : List Declaration}
    {blocks : List ConstantBlock} (h : constantBlocks declarations = .ok blocks) :
    List.Forall₂ IsBlockOf (declarations.filter isEnum) blocks := by
  induction declarations generalizing blocks with
  | nil =>
    cases h
    exact .nil
  | cons d declarations ih =>
    obtain ⟨name, docs, body, origin⟩ := d
    cases body with
    | enum values =>
      obtain ⟨constants, hconstants, h⟩ := bind_eq_ok.mp h
      obtain ⟨rest, hrest, rfl⟩ := bind_return_eq_ok.mp h
      rw [List.filter_cons_of_pos rfl]
      exact .cons ⟨rfl, values, rfl, hconstants⟩ (ih hrest)
    | struct fields => exact ih h
    | synonym shape => exact ih h

/-! ### One section -/

/-- That `file` is the one of the section `f`, which comes after the sections `before`: it declares
the type of the section, and the declarations of `group`, which this is the first section to depend
on, with the constants of the enumerations among them. -/
structure IsSectionFile (k : ResolvedKind) (before : List (Field Shape)) (f : Field Shape)
    (group : List Declaration) (file : File) : Prop where
  mem_group : ∀ d, d ∈ group ↔ d ∈ k.declarations ∧ k.Reaches [f.type] d.name ∧
    ∀ e ∈ before, ¬ k.Reaches [e.type] d.name
  types : ∃ own types, shapeDeclaration (sectionTypeName f) f.docs f.type = .ok own ∧
    Declares group types ∧ file.types.Perm (own :: types)
  types_sorted : (file.types.map (·.name)).Pairwise (· < ·)
  blocks : ∃ blocks, List.Forall₂ IsBlockOf (group.filter isEnum) blocks ∧
    file.blocks.Perm blocks
  blocks_sorted : (file.blocks.map (·.type)).Pairwise (· < ·)
  usesTime_eq : file.usesTime = (usesTime f.type || declarationsUseTime group)

section Sections

variable {k : ResolvedKind} {before sections : List (Field Shape)} {f : Field Shape}
  {claimed : List String}

/-- The declarations of the section `f` that are not in `claimed`. -/
def unclaimed (k : ResolvedKind) (claimed : List String) (f : Field Shape) : List Declaration :=
  (k.reachable [f.type]).filter fun d => d.name ∉ claimed

/-- That `claimed` are those of the declarations of `k` that the sections of `before` depend on. -/
def Claims (k : ResolvedKind) (before : List (Field Shape)) (claimed : List String) : Prop :=
  ∀ d ∈ k.declarations, d.name ∈ claimed ↔ ∃ e ∈ before, k.Reaches [e.type] d.name

private theorem Claims.nil : Claims k [] [] :=
  fun _ _ => iff_of_false List.not_mem_nil fun ⟨_, he, _⟩ => List.not_mem_nil he

/-- A section has the declarations that no section before it depends on. -/
private theorem Claims.mem_unclaimed (h : Claims k before claimed) (d : Declaration) :
    d ∈ unclaimed k claimed f ↔ d ∈ k.declarations ∧ k.Reaches [f.type] d.name ∧
      ∀ e ∈ before, ¬ k.Reaches [e.type] d.name := by
  rw [unclaimed, List.mem_filter, ResolvedKind.mem_reachable, decide_eq_true_iff, and_assoc]
  refine and_congr_right fun hd => and_congr_right fun _ => ?_
  rw [h d hd]
  exact ⟨fun hnone e he hreached => hnone ⟨e, he, hreached⟩,
    fun hnone ⟨e, he, hreached⟩ => hnone e he hreached⟩

/-- With its declarations, a section claims all that it depends on. -/
private theorem Claims.step (hnodup : (k.declarations.map (·.name)).Nodup)
    (h : Claims k before claimed) :
    Claims k (before ++ [f]) (claimed ++ (unclaimed k claimed f).map (·.name)) := by
  intro d hd
  -- Names are distinct, so a name that is claimed stands for one declaration.
  have hgroup : d.name ∈ (unclaimed k claimed f).map (·.name) ↔ d ∈ unclaimed k claimed f := by
    refine ⟨fun hmem => ?_, fun hmem => List.mem_map_of_mem hmem⟩
    obtain ⟨e, he, hname⟩ := List.mem_map.mp hmem
    rwa [← List.inj_on_of_nodup_map hnodup ((h.mem_unclaimed e).mp he).1 hd hname]
  rw [List.mem_append, hgroup, h.mem_unclaimed, h d hd]
  constructor
  · rintro (⟨e, he, hreached⟩ | ⟨-, hreached, -⟩)
    · exact ⟨e, List.mem_append_left _ he, hreached⟩
    · exact ⟨f, List.mem_append_right _ (List.mem_singleton_self f), hreached⟩
  · rintro ⟨e, he, hreached⟩
    -- Reached from an earlier section, it is claimed already; from this one only, it is claimed
    -- now.
    by_cases hbefore : ∃ e ∈ before, k.Reaches [e.type] d.name
    · exact .inl hbefore
    · rcases List.mem_append.mp he with he | he
      · exact absurd ⟨e, he, hreached⟩ hbefore
      · obtain rfl := List.mem_singleton.mp he
        exact .inr ⟨hd, hreached, fun e he hreached => hbefore ⟨e, he, hreached⟩⟩

/-- The file that is made of a section and its declarations is its file. -/
private theorem isSectionFile_of_fileOf {package : String} {file : File}
    (hnodup : (k.declarations.map (·.name)).Nodup) (hclaims : Claims k before claimed)
    (hunshadowed : ∀ d ∈ k.reachable [f.type], d.name ≠ sectionTypeName f)
    (h : fileOf package (usesTime f.type || declarationsUseTime (unclaimed k claimed f))
      (shapeDeclaration (sectionTypeName f) f.docs f.type) (unclaimed k claimed f) = .ok file) :
    IsSectionFile k before f (unclaimed k claimed f) file := by
  obtain ⟨own, hown, h⟩ := bind_eq_ok.mp h
  obtain ⟨types, htypes, h⟩ := bind_eq_ok.mp h
  obtain ⟨blocks, hblocks, rfl⟩ := bind_return_eq_ok.mp h
  have hdeclares : Declares (unclaimed k claimed f) types := mapM_eq_ok.mp htypes
  have hgroup : ((unclaimed k claimed f).map (·.name)).Nodup :=
    (ResolvedKind.nodup_reachable hnodup).sublist (List.filter_sublist.map _)
  have hnames : ((own :: types).map (·.name)).Nodup := by
    rw [List.map_cons, hdeclares.names, (shapeDeclaration_eq_ok hown).1, List.nodup_cons]
    refine ⟨fun hmem => ?_, hgroup⟩
    obtain ⟨d, hd, hname⟩ := List.mem_map.mp hmem
    exact hunshadowed d (List.mem_filter.mp hd).1 hname
  refine ⟨hclaims.mem_unclaimed, ⟨own, types, hown, hdeclares, List.mergeSort_perm _ _⟩,
    pairwise_map_mergeSort hnames, ?_, ?_, rfl⟩
  -- The blocks are formed in sorted order; `Forall₂` and a permutation can be exchanged.
  · have hsorted := (List.mergeSort_perm (unclaimed k claimed f)
      fun a b => decide (a.name ≤ b.name)).filter isEnum
    obtain ⟨blocks', hblocks', hperm⟩ :=
      List.perm_comp_forall₂ hsorted.symm (constantBlocks_isBlockOf hblocks)
    exact ⟨blocks', hblocks', hperm.symm⟩
  · rw [(constantBlocks_names hblocks).1]
    exact (pairwise_map_mergeSort hgroup).sublist (List.filter_sublist.map _)

end Sections

/-! ### All sections -/

/-- The files of some sections of `k`, which come after some others, with the declarations in
each. -/
inductive AreSectionFiles (k : ResolvedKind) :
    List (Field Shape) → List (Field Shape) → List (List Declaration) → List File → Prop
  | nil {before} : AreSectionFiles k before [] [] []
  | cons {before sections f groups group files file} (hfile : IsSectionFile k before f group file)
    (hfiles : AreSectionFiles k (before ++ [f]) sections groups files) :
    AreSectionFiles k before (f :: sections) (group :: groups) (file :: files)

/-- The files of `sections`, which come after those of `before`, are what they should be, and
together they have the declarations that the sections claim. -/
theorem filesOfSections_areSectionFiles {k : ResolvedKind} {before sections : List (Field Shape)}
    {claimed : List String} {package : String} {files : List NamedFile}
    (hnodup : (k.declarations.map (·.name)).Nodup) (hclaims : Claims k before claimed)
    (hunshadowed : ∀ f ∈ sections, ∀ d ∈ k.reachable [f.type], d.name ≠ sectionTypeName f)
    (h : filesOfSections package k claimed sections = .ok files) :
    ∃ groups, AreSectionFiles k before sections groups (files.map (·.file)) ∧
      groups.flatten = claimedDeclarations k claimed sections := by
  induction sections generalizing before claimed files with
  | nil =>
    cases h
    exact ⟨[], .nil, rfl⟩
  | cons f sections ih =>
    obtain ⟨file, hfile, h⟩ := bind_eq_ok.mp h
    obtain ⟨rest, hrest, rfl⟩ := bind_return_eq_ok.mp h
    obtain ⟨hf, hsections⟩ := List.forall_mem_cons.mp hunshadowed
    obtain ⟨groups, hgroups, hclaimed⟩ := ih (hclaims.step hnodup) hsections hrest
    refine ⟨unclaimed k claimed f :: groups, ?_, ?_⟩
    · exact .cons (isSectionFile_of_fileOf hnodup hclaims hf hfile) hgroups
    · exact congrArg (unclaimed k claimed f ++ ·) hclaimed

/-! ### The files of a kind -/

/-- That `file` declares the kind `r` and nothing else. -/
structure IsResourceFile (params : Params) (r : ResolvedKind) (file : File) : Prop where
  types : ∃ root, structDeclaration r.name r.description (sectionMembers (r.presented params)) =
    .ok root ∧ file.types = [root]
  blocks : file.blocks = []
  usesTime_eq : file.usesTime = false

section Kinds

variable {policy : Policy} {k : Kind} {r : ResolvedKind} {params : Params} {files : List NamedFile}

/-- The first file of a kind has no declaration but its own. -/
private theorem isResourceFile_of_fileOf {package : String} {file : File}
    (h : fileOf package false
      (structDeclaration r.name r.description (sectionMembers (r.presented params))) [] =
        .ok file) : IsResourceFile params r file := by
  obtain ⟨root, hroot, h⟩ := bind_eq_ok.mp h
  obtain ⟨types, htypes, h⟩ := bind_eq_ok.mp h
  obtain ⟨blocks, hblocks, rfl⟩ := bind_return_eq_ok.mp h
  obtain rfl := List.forall₂_nil_left_iff.mp (mapM_eq_ok.mp htypes)
  rw [List.mergeSort_nil] at hblocks
  cases hblocks
  exact ⟨⟨root, hroot, List.mergeSort_singleton root⟩, rfl, rfl⟩

variable (h : k.resolve policy = .ok r) (hfiles : sectionFiles params r = .ok files)
include h hfiles

/-- In the files of a kind, there are two sorts of types: those of the kind and its sections, and
the declarations that the kind is rendered with. None of the former has the name of one of the
latter, so that the names of the latter are there once each. -/
private theorem flatMap_filter_names_perm :
    ((files.map (·.file)).flatMap fun file => (file.types.map (·.name)).filter
        (· ∈ (r.presented params).reachableDeclarations.map (·.name))).Perm
      ((r.presented params).reachableDeclarations.map (·.name)) := by
  have hunshadowed := (sectionFiles_eq_ok hfiles).2.1
  obtain ⟨root, roots, hroot, hroots, hcovers⟩ :=
    sectionFiles_declares (Kind.resolve_nodup h) hfiles
  let declared := (r.presented params).reachableDeclarations.map (·.name)
  -- The filter drops just the types of the resource and of the sections.
  have hown : ∀ name ∈ (root :: roots).map (·.name), name ∉ declared := by
    rw [List.map_cons, (structDeclaration_eq_ok hroot).1, hroots.names]
    refine List.forall_mem_cons.mpr ⟨Kind.name_not_mem_reachableDeclarations params h, ?_⟩
    intro name hsection hmem
    obtain ⟨e, he, rfl⟩ := List.mem_map.mp hmem
    exact hunshadowed e he hsection
  have hnone : ((root :: roots).map (·.name)).filter (· ∈ declared) = [] :=
    List.filter_eq_nil_iff.mpr fun name hname hin => hown name hname (of_decide_eq_true hin)
  have hall : declared.filter (· ∈ declared) = declared :=
    List.filter_eq_self.mpr fun name hname => decide_eq_true hname
  have hnames := hcovers.names.filter (· ∈ declared)
  rw [List.filter_append, hnone, List.nil_append, hall, List.map_flatMap,
    List.filter_flatMap] at hnames
  exact hnames

/-- Each declaration that a kind is rendered with is in one of its files alone. -/
private theorem existsUnique_file {d : Declaration}
    (hd : d ∈ (r.presented params).reachableDeclarations) :
    ∃! file, file ∈ files.map (·.file) ∧ d.name ∈ file.types.map (·.name) := by
  have hmem : d.name ∈ (r.presented params).reachableDeclarations.map (·.name) :=
    List.mem_map_of_mem hd
  have hperm := flatMap_filter_names_perm h hfiles
  obtain ⟨file, ⟨hfile, hin⟩, hunique⟩ := existsUnique_mem_of_nodup_flatMap
    (hperm.nodup_iff.mpr (Kind.nodup_reachableDeclarations params h)) (hperm.mem_iff.mpr hmem)
  refine ⟨file, ⟨hfile, (List.mem_filter.mp hin).1⟩, fun other ⟨hother, hname⟩ => ?_⟩
  exact hunique other ⟨hother, List.mem_filter.mpr ⟨hname, decide_eq_true hmem⟩⟩

/-- The sections of `r` as it is rendered have their files, and together these have the declarations
that the kind is rendered with. -/
theorem exists_areSectionFiles : ∃ resource rest groups,
    files.map (·.file) = resource :: rest ∧ IsResourceFile params r resource ∧
    AreSectionFiles (r.presented params) [] (r.presented params).envelope groups rest ∧
    groups.flatten.Perm (r.presented params).reachableDeclarations := by
  obtain ⟨-, hunshadowed, resource, rest, hresource, hrest, rfl⟩ := sectionFiles_eq_ok hfiles
  have hnodup : ((r.presented params).declarations.map (·.name)).Nodup := by
    rw [ResolvedKind.names_presented_declarations]
    exact Kind.resolve_nodup h
  have hsections : ∀ f ∈ (r.presented params).envelope,
      ∀ d ∈ (r.presented params).reachable [f.type], d.name ≠ sectionTypeName f := by
    intro f hf d hd heq
    obtain ⟨hmem, hreached⟩ := ResolvedKind.mem_reachable.mp hd
    refine hunshadowed d (ResolvedKind.mem_reachable.mpr ⟨hmem, ?_⟩) (heq ▸ List.mem_map_of_mem hf)
    exact ResolvedKind.reaches_iff_exists.mpr ⟨f.type, List.mem_map_of_mem hf, hreached⟩
  obtain ⟨groups, hgroups, hclaimed⟩ :=
    filesOfSections_areSectionFiles hnodup .nil hsections hrest
  refine ⟨resource, rest.map (·.file), groups, rfl, isResourceFile_of_fileOf hresource, hgroups, ?_⟩
  rw [hclaimed]
  exact perm_claimed hnodup

end Kinds

/-- What is rendered of `k` in sections: a file of the kind, which has no declaration but its own,
and those of the three sections. Each declaration that the sections depend on is in one file alone,
that of the first section to depend on it, with its constants if it is an enumeration. Within a
file, types and constants are in the order of the names of types, and so are they in its text. -/
theorem render_sections {k : Kind} {r : ResolvedKind} {params : Params}
    {rendered : List RenderedFile} (h : k.resolve .nominal = .ok r)
    (hrender : Generator.goSectionTypes.render params r = .ok rendered) :
    ∃ resource metadata spec status ofMetadata ofSpec ofStatus,
      rendered = [
        { name := r.machineName ++ "_gen.go", content := fileText resource },
        { name := r.machineName ++ "_metadata_gen.go", content := fileText metadata },
        { name := r.machineName ++ "_spec_gen.go", content := fileText spec },
        { name := r.machineName ++ "_status_gen.go", content := fileText status }] ∧
      IsResourceFile params r resource ∧
      IsSectionFile (r.presented params) [] (r.presented params).metadata ofMetadata metadata ∧
      IsSectionFile (r.presented params) [(r.presented params).metadata]
        (r.presented params).spec ofSpec spec ∧
      IsSectionFile (r.presented params)
        [(r.presented params).metadata, (r.presented params).spec]
        (r.presented params).status ofStatus status ∧
      (ofMetadata ++ ofSpec ++ ofStatus).Perm (r.presented params).reachableDeclarations ∧
      (∀ d ∈ (r.presented params).reachableDeclarations,
        ∃! file, file ∈ [resource, metadata, spec, status] ∧
          d.name ∈ file.types.map (·.name)) ∧
      ∀ file ∈ [resource, metadata, spec, status], Prints file (fileText file) := by
  have hnames := Generator.render_fileNames rfl (Kind.resolve_sectionNames h) hrender
  obtain ⟨files, hfiles, rfl⟩ := bind_return_eq_ok.mp hrender
  obtain ⟨resource, rest, groups, hrest, hresource, hgroups, hperm⟩ :=
    exists_areSectionFiles h hfiles
  have hunique {d} := existsUnique_file h hfiles (d := d)
  cases hgroups with
  | cons hmetadata hgroups =>
  cases hgroups with
  | cons hspec hgroups =>
  cases hgroups with
  | cons hstatus hgroups =>
  cases hgroups
  rw [hrest] at hunique
  refine ⟨resource, _, _, _, _, _, _, ?_, hresource, hmetadata, hspec, hstatus, ?_,
    fun d hd => hunique hd, fun file _ => prints_fileText file⟩
  · have hzip (files : List NamedFile) :
        files = List.zipWith NamedFile.mk (files.map (·.name)) (files.map (·.file)) := by
      induction files with
      | nil => rfl
      | cons f files ih => exact congrArg (f :: ·) ih
    have hfileNames : files.map (·.name) = Generator.goSectionTypes.fileNames r.machineName := by
      rw [← hnames, List.map_map]
      rfl
    rw [hzip files, hrest, hfileNames]
    rfl
  · simpa using hperm

end Go

namespace Sample

/-- What is rendered of the kind with two enumerations, both of which the spec depends on. -/
theorem render_sections_lamp : ∃ rendered,
    Generator.goSectionTypes.render {} lampResolved = .ok rendered ∧
    ∃ resource metadata spec status ofMetadata ofSpec ofStatus,
      rendered = [
        { name := "lamp_gen.go", content := Go.fileText resource },
        { name := "lamp_metadata_gen.go", content := Go.fileText metadata },
        { name := "lamp_spec_gen.go", content := Go.fileText spec },
        { name := "lamp_status_gen.go", content := Go.fileText status }] ∧
      Go.IsResourceFile {} lampResolved resource ∧
      Go.IsSectionFile (lampResolved.presented {}) [] (lampResolved.presented {}).metadata
        ofMetadata metadata ∧
      Go.IsSectionFile (lampResolved.presented {}) [(lampResolved.presented {}).metadata]
        (lampResolved.presented {}).spec ofSpec spec ∧
      Go.IsSectionFile (lampResolved.presented {})
        [(lampResolved.presented {}).metadata, (lampResolved.presented {}).spec]
        (lampResolved.presented {}).status ofStatus status ∧
      (ofMetadata ++ ofSpec ++ ofStatus).Perm (lampResolved.presented {}).reachableDeclarations ∧
      (∀ d ∈ (lampResolved.presented {}).reachableDeclarations,
        ∃! file, file ∈ [resource, metadata, spec, status] ∧
          d.name ∈ file.types.map (·.name)) ∧
      ∀ file ∈ [resource, metadata, spec, status], Go.Prints file (Go.fileText file) := by
  obtain ⟨files, hfiles⟩ := exists_sectionFiles_lamp
  have hrender : Generator.goSectionTypes.render {} lampResolved =
      .ok (files.map fun f => { name := f.name, content := Go.fileText f.file }) :=
    bind_return_eq_ok.mpr ⟨files, hfiles, rfl⟩
  exact ⟨_, hrender, Go.render_sections resolve_lamp hrender⟩

end Sample

end KindSchema
