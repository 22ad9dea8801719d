import KindSchema.Proofs.Go.ShapeTypes
import KindSchema.Proofs.Resolution.Reachability

/-!
# What Go files declare

The types and constants that the Go files of a kind declare, and the types that they mention.

* `IsTypeOf.names`: a Go type mentions the names that its shape mentions.
* `constantBlocks_names`: the constants of a file are those of its enumerations.
* `typesFile_covers`: the single file of a kind declares what the sections depend on.
* `perm_claimed`, `sectionFiles_declares`: the files of the sections do so together, each
  declaration in the first section that depends on it.
-/

namespace KindSchema

namespace Go

/-! ### The names in Go types -/

mutual

/-- The declared types that a Go type mentions. -/
def GoType.names : GoType → List String
  | .scalar _ => []
  | .named name => [name]
  | .pointer target => names target
  | .slice items => names items
  | .map values => names values
  | .struct members => memberNames members

/-- The declared types that the types of some members mention. -/
def GoType.memberNames : List (Member GoType) → List String
  | [] => []
  | ⟨_, _, _, type, _⟩ :: members => type.names ++ memberNames members

end

/-- The declared types that `t` mentions. -/
def TypeDeclaration.mentions (t : TypeDeclaration) : List String :=
  match t.underlying with
  | .struct members => GoType.memberNames members
  | .enum => []
  | .type type => type.names

/-- The declared types that `f` mentions, in its declarations and as the types of constants. -/
def File.mentions (f : File) : List String :=
  f.types.flatMap (·.mentions) ++ f.blocks.map (·.type)

/-- The constants that `f` declares. -/
def File.constants (f : File) : List String :=
  f.blocks.flatMap fun b => b.constants.map (·.1)

mutual

/-- If `type` is written for `shape`, it mentions the names that `shape` mentions. -/
theorem IsTypeOf.names : ∀ {shape : Shape} {type : GoType},
    IsTypeOf shape type → type.names = shape.names
  | _, _, .scalar _ => by rw [GoType.names, Shape.names]
  | _, _, .named _ => by rw [GoType.names, Shape.names]
  | _, _, .array h => by rw [GoType.names, Shape.names, IsTypeOf.names h]
  | _, _, .map h => by rw [GoType.names, Shape.names, IsTypeOf.names h]
  | _, _, .struct h => by rw [GoType.names, Shape.names, AreMembersOf.names h]

/-- If `members` are written for `fields`, they mention the names that `fields` mention. -/
theorem AreMembersOf.names : ∀ {fields : List (Field Shape)} {members : List (Member GoType)},
    AreMembersOf fields members → GoType.memberNames members = Shape.fieldNames fields
  | _, _, .nil => by rw [GoType.memberNames, Shape.fieldNames]
  | _, _, @AreMembersOf.cons f name type _ _ _ htype hmembers => by
    have hpointer : (memberOf f name type).type.names = type.names :=
      memberOf_type_of_pointer (fun t => by rw [GoType.names]) f name type
    rw [GoType.memberNames, Shape.fieldNames, hpointer, IsTypeOf.names htype,
      AreMembersOf.names hmembers]

end

private theorem IsUnderlyingOf.mentions {body : Body} {t : TypeDeclaration}
    (h : IsUnderlyingOf body t.underlying) : t.mentions = body.names := by
  obtain ⟨name, docs, underlying⟩ := t
  cases h with
  | struct hmembers => exact hmembers.names
  | enum values => rfl
  | synonym htype => exact htype.names

section Declarations

variable {name : String} {docs : List String} {t : TypeDeclaration} {d : Declaration}

theorem structDeclaration_eq_ok {fields : List (Field Shape)}
    (h : structDeclaration name docs fields = .ok t) :
    t.name = name ∧ t.mentions = Shape.fieldNames fields := by
  have hdeclares := isDeclarationOf_of_structDeclaration h
  exact ⟨hdeclares.name_eq, hdeclares.underlying.mentions⟩

theorem shapeDeclaration_eq_ok {shape : Shape} (h : shapeDeclaration name docs shape = .ok t) :
    t.name = name ∧ t.mentions = shape.names := by
  have hdeclares := isDeclarationOf_of_shapeDeclaration h
  exact ⟨hdeclares.name_eq, hdeclares.underlying.mentions⟩

/-- The Go declaration of a declaration has its name, and mentions what it mentions. -/
private theorem typeDeclaration_eq_ok (h : typeDeclaration d = .ok t) :
    t.name = d.name ∧ t.mentions = d.body.names := by
  have hdeclares := isDeclarationOf_of_typeDeclaration h
  exact ⟨hdeclares.name_eq, hdeclares.underlying.mentions⟩

/-- That `types` are the Go declarations of `declarations`. -/
def Declares (declarations : List Declaration) (types : List TypeDeclaration) : Prop :=
  List.Forall₂ (fun d t => typeDeclaration d = .ok t) declarations types

theorem Declares.names {declarations : List Declaration} {types : List TypeDeclaration}
    (h : Declares declarations types) : types.map (·.name) = declarations.map (·.name) := by
  induction h with
  | nil => rfl
  | cons hd _ ih => rw [List.map_cons, List.map_cons, ih, (typeDeclaration_eq_ok hd).1]

private theorem Declares.mentions {declarations : List Declaration} {types : List TypeDeclaration}
    (h : Declares declarations types) :
    types.flatMap (·.mentions) = declarations.flatMap (·.body.names) := by
  induction h with
  | nil => rfl
  | cons hd _ ih => rw [List.flatMap_cons, List.flatMap_cons, ih, (typeDeclaration_eq_ok hd).2]

end Declarations

/-! ### Constants -/

/-- The constant of `literal`, a literal of the enumeration `type`, if it is an identifier. -/
def constantName? (type literal : String) : Option String :=
  (Naming.identifier? literal).map (type ++ ·)

/-- The constants of `d`, if it is an enumeration; other declarations have none. -/
def constantNames (d : Declaration) : List String :=
  match d.body with
  | .enum values => values.filterMap (constantName? d.name)
  | _ => []

/-- Whether `d` is an enumeration. -/
def isEnum (d : Declaration) : Bool :=
  match d.body with
  | .enum _ => true
  | _ => false

/-- Only an enumeration has constants. -/
theorem isEnum_of_mem_constantNames {d : Declaration} {constant : String}
    (h : constant ∈ constantNames d) : isEnum d = true := by
  obtain ⟨name, docs, body, origin⟩ := d
  cases body with
  | enum values => rfl
  | struct fields => exact absurd h List.not_mem_nil
  | synonym shape => exact absurd h List.not_mem_nil

/-- The constants that are found for some literals have the names that the literals ask for, and
these are new and different. -/
private theorem constantsOf_names {type : String} {earlier constants : List (String × String)}
    {values : List String} (h : constantsOf type earlier values = .ok constants) :
    constants.map (·.1) = values.filterMap (constantName? type) ∧
      (∀ c ∈ constants.map (·.1), c ∉ earlier.map (·.1)) ∧ (constants.map (·.1)).Nodup := by
  induction values generalizing earlier constants with
  | nil =>
    cases h
    exact ⟨rfl, fun c hc => absurd hc List.not_mem_nil, List.nodup_nil⟩
  | cons value values ih =>
    rw [constantsOf] at h
    split at h
    · cases h
    · next word hword =>
      split at h
      · cases h
      · next hnew =>
        obtain ⟨rest, hrest, rfl⟩ := bind_return_eq_ok.mp h
        obtain ⟨hnames, hearlier, hnodup⟩ := ih hrest
        have hname : constantName? type value = some (type ++ word) := by
          rw [constantName?, hword]
          rfl
        refine ⟨?_, ?_, ?_⟩
        · rw [List.map_cons, List.filterMap_cons_some hname, hnames]
        · intro c hc
          rcases List.mem_cons.mp hc with rfl | hc
          · exact not_mem_keys_of_lookup hnew
          · intro hmem
            refine hearlier c hc ?_
            rw [List.map_append]
            exact List.mem_append_left _ hmem
        · rw [List.map_cons, List.nodup_cons]
          -- This constant is among the earlier ones of all that follow it.
          refine ⟨fun hmem => hearlier _ hmem ?_, hnodup⟩
          rw [List.map_append]
          exact List.mem_append_right _ List.mem_cons_self

/-- The blocks of constants of `declarations` are those of the enumerations among them; within a
block, all constants are different. -/
theorem constantBlocks_names {declarations : List Declaration} {blocks : List ConstantBlock}
    (h : constantBlocks declarations = .ok blocks) :
    blocks.map (·.type) = (declarations.filter isEnum).map (·.name) ∧
      (blocks.flatMap fun b => b.constants.map (·.1)) = declarations.flatMap constantNames ∧
      ∀ d ∈ declarations, (constantNames d).Nodup := by
  induction declarations generalizing blocks with
  | nil =>
    cases h
    exact ⟨rfl, rfl, fun d hd => absurd hd List.not_mem_nil⟩
  | cons d declarations ih =>
    obtain ⟨name, docs, body, origin⟩ := d
    cases body with
    | enum values =>
      obtain ⟨constants, hconstants, h⟩ := bind_eq_ok.mp h
      obtain ⟨rest, hrest, rfl⟩ := bind_return_eq_ok.mp h
      obtain ⟨htypes, hnames, hnodup⟩ := ih hrest
      obtain ⟨hconstantNames, -, hdistinct⟩ := constantsOf_names hconstants
      refine ⟨?_, ?_, List.forall_mem_cons.mpr ⟨?_, hnodup⟩⟩
      · rw [List.map_cons, List.filter_cons_of_pos rfl, List.map_cons, htypes]
      · rw [List.flatMap_cons, List.flatMap_cons, hnames, hconstantNames]
        rfl
      · rw [hconstantNames] at hdistinct
        exact hdistinct
    | struct fields =>
      obtain ⟨htypes, hnames, hnodup⟩ := ih h
      exact ⟨htypes, hnames, List.forall_mem_cons.mpr ⟨List.nodup_nil, hnodup⟩⟩
    | synonym shape =>
      obtain ⟨htypes, hnames, hnodup⟩ := ih h
      exact ⟨htypes, hnames, List.forall_mem_cons.mpr ⟨List.nodup_nil, hnodup⟩⟩

/-! ### Files -/

/-- That `files` together declare the types of `own` and `declarations`, each once, and that their
constants are of types among the declarations. -/
structure Covers (files : List File) (own : List TypeDeclaration)
    (declarations : List Declaration) : Prop where
  types : ∃ types, Declares declarations types ∧ (files.flatMap (·.types)).Perm (own ++ types)
  blocks : ∀ name ∈ files.flatMap fun f => f.blocks.map (·.type),
    name ∈ declarations.map (·.name)

namespace Covers

variable {files files' : List File} {own own' : List TypeDeclaration}
  {declarations declarations' : List Declaration}

/-- The names of the types that `files` declare. -/
theorem names (h : Covers files own declarations) :
    ((files.flatMap (·.types)).map (·.name)).Perm
      (own.map (·.name) ++ declarations.map (·.name)) := by
  obtain ⟨types, hdeclares, hperm⟩ := h.types
  rw [← hdeclares.names, ← List.map_append]
  exact hperm.map _

/-- What `files` mention is mentioned by their own types or by `declarations`, or it is one of
these. -/
theorem mentions (h : Covers files own declarations) {name : String}
    (hname : name ∈ files.flatMap File.mentions) :
    name ∈ own.flatMap (·.mentions) ∨ name ∈ declarations.flatMap (·.body.names) ∨
      name ∈ declarations.map (·.name) := by
  obtain ⟨types, hdeclares, hperm⟩ := h.types
  obtain ⟨f, hf, hname⟩ := List.mem_flatMap.mp hname
  rcases List.mem_append.mp hname with hmention | hblock
  · obtain ⟨t, ht, hmention⟩ := List.mem_flatMap.mp hmention
    rw [← hdeclares.mentions]
    rcases List.mem_append.mp (hperm.mem_iff.mp (List.mem_flatMap.mpr ⟨f, hf, ht⟩)) with ht | ht
    · exact .inl (List.mem_flatMap.mpr ⟨t, ht, hmention⟩)
    · exact .inr (.inl (List.mem_flatMap.mpr ⟨t, ht, hmention⟩))
  · exact .inr (.inr (h.blocks name (List.mem_flatMap.mpr ⟨f, hf, hblock⟩)))

/-- Files that cover some declarations, and more files that cover more. -/
private theorem append (h : Covers files own declarations) (h' : Covers files' own' declarations') :
    Covers (files ++ files') (own ++ own') (declarations ++ declarations') := by
  obtain ⟨types, hdeclares, hperm⟩ := h.types
  obtain ⟨types', hdeclares', hperm'⟩ := h'.types
  refine ⟨⟨types ++ types', List.rel_append hdeclares hdeclares', ?_⟩, fun name hname => ?_⟩
  · rw [List.flatMap_append, List.append_assoc]
    refine (hperm.append hperm').trans ?_
    rw [List.append_assoc]
    exact (List.perm_append_comm_assoc types own' types').append_left own
  · rw [List.flatMap_append] at hname
    rw [List.map_append]
    rcases List.mem_append.mp hname with hname | hname
    · exact List.mem_append_left _ (h.blocks name hname)
    · exact List.mem_append_right _ (h'.blocks name hname)

/-- The order of the declarations does not matter. -/
private theorem of_perm (h : Covers files own declarations)
    (hperm : declarations.Perm declarations') :
    Covers files own declarations' := by
  obtain ⟨types, hdeclares, htypes⟩ := h.types
  obtain ⟨types', hdeclares', htypes'⟩ := List.perm_comp_forall₂ hperm.symm hdeclares
  refine ⟨⟨types', hdeclares', htypes.trans (htypes'.symm.append_left own)⟩, fun name hname => ?_⟩
  exact (hperm.map _).mem_iff.mp (h.blocks name hname)

end Covers

section Files

variable {package : String} {usesTime : Bool} {root : Except Unsupported TypeDeclaration}
  {declarations : List Declaration} {file : File}

/-- The file that is made of `root` and `declarations` declares them. -/
theorem fileOf_covers (h : fileOf package usesTime root declarations = .ok file) :
    ∃ t, root = .ok t ∧ Covers [file] [t] declarations := by
  obtain ⟨t, ht, h⟩ := bind_eq_ok.mp h
  obtain ⟨types, htypes, h⟩ := bind_eq_ok.mp h
  obtain ⟨blocks, hblocks, rfl⟩ := bind_return_eq_ok.mp h
  obtain ⟨hblockTypes, -, -⟩ := constantBlocks_names hblocks
  refine ⟨t, ht, ⟨types, mapM_eq_ok.mp htypes, ?_⟩, fun name hname => ?_⟩
  · rw [List.flatMap_singleton]
    exact List.mergeSort_perm _ _
  · rw [List.flatMap_singleton, hblockTypes] at hname
    obtain ⟨d, hd, rfl⟩ := List.mem_map.mp hname
    exact List.mem_map_of_mem (List.mem_mergeSort.mp (List.mem_of_mem_filter hd))

/-- The constants of `file` are those of the enumerations it is made of, and no enumeration has a
constant twice. -/
theorem fileOf_constants (h : fileOf package usesTime root declarations = .ok file) :
    file.constants.Perm (declarations.flatMap constantNames) ∧
      ∀ d ∈ declarations, (constantNames d).Nodup := by
  obtain ⟨t, -, h⟩ := bind_eq_ok.mp h
  obtain ⟨types, -, h⟩ := bind_eq_ok.mp h
  obtain ⟨blocks, hblocks, rfl⟩ := bind_return_eq_ok.mp h
  obtain ⟨-, hconstants, hnodup⟩ := constantBlocks_names hblocks
  refine ⟨?_, fun d hd => hnodup d (List.mem_mergeSort.mpr hd)⟩
  rw [File.constants, hconstants]
  exact (List.mergeSort_perm _ _).flatMap_right _

/-- The file of `k` declares the kind and all declarations that it depends on. -/
theorem typesFile_covers {params : Params} {k : ResolvedKind}
    (h : typesFile params k = .ok file) :
    ∃ root, root.name = k.name ∧
      root.mentions = Shape.fieldNames (k.presented params).envelope ∧
      Covers [file] [root] (k.presented params).reachableDeclarations := by
  obtain ⟨root, hroot, hcovers⟩ := fileOf_covers h
  obtain ⟨hname, hmentions⟩ := structDeclaration_eq_ok hroot
  exact ⟨root, hname, hmentions, hcovers⟩

end Files

/-! ### The files of the sections -/

/-- The declarations in the files of some sections that are not in `claimed`, in the order of the
files. -/
def claimedDeclarations (k : ResolvedKind) (claimed : List String) :
    List (Field Shape) → List Declaration
  | [] => []
  | f :: sections =>
    let declarations := (k.reachable [f.type]).filter fun d => d.name ∉ claimed
    declarations ++ claimedDeclarations k (claimed ++ declarations.map (·.name)) sections

section Sections

variable {k : ResolvedKind} {claimed : List String} {sections : List (Field Shape)}

/-- The declarations in the files of some sections are those that a section depends on and that
have not been claimed before. -/
private theorem mem_claimedDeclarations (hnodup : (k.declarations.map (·.name)).Nodup)
    {d : Declaration} :
    d ∈ claimedDeclarations k claimed sections ↔
      d.name ∉ claimed ∧ ∃ f ∈ sections, d ∈ k.reachable [f.type] := by
  induction sections generalizing claimed with
  | nil => simp [claimedDeclarations]
  | cons f sections ih =>
    rw [claimedDeclarations, List.mem_append, ih, List.mem_filter, decide_eq_true_iff,
      List.mem_append, not_or, List.exists_mem_cons_iff]
    constructor
    · rintro (⟨hreachable, hnew⟩ | ⟨⟨hnew, -⟩, hrest⟩)
      · exact ⟨hnew, .inl hreachable⟩
      · exact ⟨hnew, .inr hrest⟩
    · rintro ⟨hnew, hreachable⟩
      by_cases hfirst : d ∈ k.reachable [f.type]
      · exact .inl ⟨hfirst, hnew⟩
      -- Had the first section claimed the name, it would have reached the declaration itself.
      · refine .inr ⟨⟨hnew, fun hmem => ?_⟩, hreachable.resolve_left hfirst⟩
        obtain ⟨f', -, hd⟩ := hreachable.resolve_left hfirst
        obtain ⟨e, he, hname⟩ := List.mem_map.mp hmem
        have hreached := (List.mem_filter.mp he).1
        have heq := List.inj_on_of_nodup_map hnodup (ResolvedKind.mem_reachable.mp hreached).1
          (ResolvedKind.mem_reachable.mp hd).1 hname
        exact hfirst (heq ▸ hreached)

/-- No two of the declarations in the files of some sections have the same name. -/
private theorem nodup_claimedDeclarations (hnodup : (k.declarations.map (·.name)).Nodup) :
    ((claimedDeclarations k claimed sections).map (·.name)).Nodup := by
  induction sections generalizing claimed with
  | nil => exact List.nodup_nil
  | cons f sections ih =>
    rw [claimedDeclarations, List.map_append]
    refine List.nodup_append'.mpr ⟨?_, ih, ?_⟩
    · exact (ResolvedKind.nodup_reachable hnodup).sublist (List.filter_sublist.map _)
    · intro name hfirst hrest
      obtain ⟨d, hd, rfl⟩ := List.mem_map.mp hrest
      have hnew := ((mem_claimedDeclarations hnodup).mp hd).1
      exact hnew (List.mem_append_right _ hfirst)

/-- The section files of `k` together have each declaration that the sections depend on once. -/
theorem perm_claimed (hnodup : (k.declarations.map (·.name)).Nodup) :
    (claimedDeclarations k [] k.envelope).Perm k.reachableDeclarations := by
  have hclaimed : (claimedDeclarations k [] k.envelope).Nodup :=
    List.Nodup.of_map _ (nodup_claimedDeclarations hnodup)
  have hreachable : k.reachableDeclarations.Nodup :=
    List.Nodup.of_map _ (ResolvedKind.nodup_reachable hnodup)
  refine (List.perm_ext_iff_of_nodup hclaimed hreachable).mpr fun d => ?_
  rw [mem_claimedDeclarations hnodup, ResolvedKind.reachableDeclarations,
    ResolvedKind.mem_reachable, ResolvedKind.reaches_iff_exists]
  constructor
  · rintro ⟨-, f, hf, hd⟩
    obtain ⟨hmem, hreached⟩ := ResolvedKind.mem_reachable.mp hd
    exact ⟨hmem, f.type, List.mem_map_of_mem hf, hreached⟩
  · rintro ⟨hmem, shape, hshape, hreached⟩
    obtain ⟨f, hf, rfl⟩ := List.mem_map.mp hshape
    exact ⟨List.not_mem_nil, f, hf, ResolvedKind.mem_reachable.mpr ⟨hmem, hreached⟩⟩

/-- That `roots` are the Go declarations of the types of `sections`. -/
def DeclaresSections (sections : List (Field Shape)) (roots : List TypeDeclaration) : Prop :=
  List.Forall₂ (fun f t => shapeDeclaration (sectionTypeName f) f.docs f.type = .ok t) sections
    roots

theorem DeclaresSections.names {roots : List TypeDeclaration}
    (h : DeclaresSections sections roots) :
    roots.map (·.name) = sections.map sectionTypeName := by
  induction h with
  | nil => rfl
  | cons hf _ ih => rw [List.map_cons, List.map_cons, (shapeDeclaration_eq_ok hf).1, ih]

private theorem DeclaresSections.mentions {roots : List TypeDeclaration}
    (h : DeclaresSections sections roots) :
    roots.flatMap (·.mentions) = Shape.fieldNames sections := by
  induction h with
  | nil => rfl
  | cons hf _ ih => rw [List.flatMap_cons, (shapeDeclaration_eq_ok hf).2, ih, Shape.fieldNames]

/-- The files of some sections declare the types of the sections and what the sections claim. -/
private theorem filesOfSections_declares {package : String} {files : List NamedFile}
    (h : filesOfSections package k claimed sections = .ok files) :
    ∃ roots, DeclaresSections sections roots ∧
      Covers (files.map (·.file)) roots (claimedDeclarations k claimed sections) := by
  induction sections generalizing claimed files with
  | nil =>
    cases h
    exact ⟨[], .nil, ⟨[], .nil, .refl _⟩, fun name hname => absurd hname List.not_mem_nil⟩
  | cons f sections ih =>
    obtain ⟨file, hfile, h⟩ := bind_eq_ok.mp h
    obtain ⟨rest, hrest, rfl⟩ := bind_return_eq_ok.mp h
    obtain ⟨root, hroot, hcovers⟩ := fileOf_covers hfile
    obtain ⟨roots, hroots, hcoversRest⟩ := ih hrest
    exact ⟨root :: roots, .cons hroot hroots, hcovers.append hcoversRest⟩

end Sections

/-- The types of the sections of `k` as it is rendered under `params`. -/
def sectionTypeNames (params : Params) (k : ResolvedKind) : List String :=
  (k.presented params).envelope.map sectionTypeName

/-- The members of `k` if its sections have types of their own. -/
def sectionMembers (k : ResolvedKind) : List (Field Shape) :=
  k.envelope.map fun f => f.withType (.named (sectionTypeName f))

/-- What `files`, the four files of `k`, are made of: the first of the kind alone, the others of the
sections. All sections have identifiers for names, and no declaration has the name of a section's
type. -/
theorem sectionFiles_eq_ok {params : Params} {k : ResolvedKind} {files : List NamedFile}
    (h : sectionFiles params k = .ok files) :
    (∀ f ∈ (k.presented params).envelope, Naming.identifier? f.name = some (sectionTypeName f)) ∧
    (∀ d ∈ (k.presented params).reachableDeclarations, d.name ∉ sectionTypeNames params k) ∧
      ∃ resource rest,
        fileOf (packageOf params k) false
          (structDeclaration k.name k.description (sectionMembers (k.presented params))) [] =
            .ok resource ∧
        filesOfSections (packageOf params k) (k.presented params) []
          (k.presented params).envelope = .ok rest ∧
        files = { name := k.machineName ++ "_gen.go", file := resource } :: rest := by
  unfold sectionFiles at h
  dsimp only at h
  split at h
  · cases h
  next hidentifiers =>
  split at h
  · cases h
  · next hnotFound =>
    -- The checks are searches that found nothing, turned into statements about all elements.
    have hnamed : ∀ f ∈ (k.presented params).envelope,
        Naming.identifier? f.name = some (sectionTypeName f) := by
      have hall := List.find?_eq_none.mp (Option.eq_none_iff_forall_ne_some.mpr hidentifiers)
      intro f hf
      cases hname : Naming.identifier? f.name with
      | none => exact absurd (by rw [hname]; rfl) (hall f hf)
      | some name => rw [sectionTypeName, hname, Option.getD_some]
    have hnone := Option.eq_none_iff_forall_ne_some.mpr hnotFound
    obtain ⟨resource, hresource, h⟩ := bind_eq_ok.mp h
    obtain ⟨rest, hrest, rfl⟩ := bind_return_eq_ok.mp h
    refine ⟨hnamed, fun d hd hmem => ?_, resource, rest, hresource, hrest, rfl⟩
    have hshadows : (sectionTypeNames params k).contains d.name = true :=
      List.contains_iff_mem.mpr hmem
    exact List.find?_eq_none.mp hnone d hd hshadows

section SectionFiles

variable {params : Params} {k : ResolvedKind} {files : List NamedFile}
  (hnodup : (k.declarations.map (·.name)).Nodup) (h : sectionFiles params k = .ok files)
include hnodup h

/-- The four files of `k` declare the kind, the types of its sections and all declarations that
these depend on. -/
theorem sectionFiles_declares : ∃ root roots,
    structDeclaration k.name k.description (sectionMembers (k.presented params)) = .ok root ∧
      DeclaresSections (k.presented params).envelope roots ∧
      Covers (files.map (·.file)) (root :: roots)
        (k.presented params).reachableDeclarations := by
  obtain ⟨-, -, resource, rest, hresource, hrest, rfl⟩ := sectionFiles_eq_ok h
  obtain ⟨root, hroot, hcovers⟩ := fileOf_covers hresource
  obtain ⟨roots, hroots, hcoversRest⟩ := filesOfSections_declares hrest
  have hpresented : ((k.presented params).declarations.map (·.name)).Nodup := by
    rw [ResolvedKind.names_presented_declarations]
    exact hnodup
  exact ⟨root, roots, hroot, hroots,
    (hcovers.append hcoversRest).of_perm (perm_claimed hpresented)⟩

/-- What the types mention that the four files of `k` declare for the kind and its sections; no
declaration has the name of a section's type. -/
theorem sectionFiles_covers :
    (∀ d ∈ (k.presented params).reachableDeclarations, d.name ∉ sectionTypeNames params k) ∧
      ∃ root roots, root.name = k.name ∧ root.mentions = sectionTypeNames params k ∧
        roots.map (·.name) = sectionTypeNames params k ∧
        roots.flatMap (·.mentions) = Shape.fieldNames (k.presented params).envelope ∧
        Covers (files.map (·.file)) (root :: roots)
          (k.presented params).reachableDeclarations := by
  obtain ⟨root, roots, hroot, hroots, hcovers⟩ := sectionFiles_declares hnodup h
  obtain ⟨hname, hmentions⟩ := structDeclaration_eq_ok hroot
  exact ⟨(sectionFiles_eq_ok h).2.1, root, roots, hname, hmentions, hroots.names, hroots.mentions,
    hcovers⟩

end SectionFiles

end Go

end KindSchema
