import KindSchema.Output.Rendering
import KindSchema.Proofs.Go.Expressible
import KindSchema.Proofs.Go.PrintedNames
import KindSchema.Proofs.JsonSchema.References
import KindSchema.Proofs.TypeScript.Tokens

/-!
# Self-contained output

Whatever is generated of a kind declares every type that it mentions, and declares nothing that it
does not need. All four renderers declare the same: `IsRendered` says what that is, by reachability
from the sections with metadata in place, and `output_selfContained` that each of them declares it.

What is said of a module, a schema or a Go file is said of the text that is rendered of it: of the
names among the tokens or parts that the text is made of.
-/

namespace KindSchema

/-- That `declarations` are what is to be rendered of `k`: from its declarations, with their members
in order, those that the sections depend on once metadata stands in place. -/
structure ResolvedKind.IsRendered (params : Params) (k : ResolvedKind)
    (declarations : List Declaration) : Prop where
  order : declarations.Sublist (k.declarations.map (·.arrange params.memberOrder))
  nodup : (declarations.map (·.name)).Nodup
  mem_iff : ∀ d ∈ k.declarations.map (·.arrange params.memberOrder), d ∈ declarations ↔
    (k.expandMetadata params.metadata).Reaches
      ((k.expandMetadata params.metadata).envelope.map (·.type)) d.name
  /-- Nothing is reached that has no declaration. -/
  closed : ∀ name, (k.expandMetadata params.metadata).Reaches
    ((k.expandMetadata params.metadata).envelope.map (·.type)) name →
      name ∈ declarations.map (·.name)

/-- That the TypeScript module of the kind `k` declares the spec, the kind and `declarations`, and
mentions only what these declare. Its text is the file that is rendered. -/
structure TypeScript.IsSelfContained (params : Params) (k : ResolvedKind)
    (declarations : List Declaration) : Prop where
  text : moduleText params k = textOf (moduleTokens params k)
  declared : declaredIn (moduleTokens params k) =
    "spec" :: k.name :: declarations.map (·.name)
  mentioned : ∀ name ∈ mentionedIn (moduleTokens params k), name ∈ declarations.map (·.name)
  rendered : Generator.tsTypes.render params k = .ok [
    { name := Generator.tsTypes.mainFileName k.machineName
      content := textOf (moduleTokens params k) }]

/-- That the JSON Schema of the kind `k` defines `declarations` and refers only to these. Its text
is the file that is rendered. -/
structure JsonSchema.IsSelfContained (params : Params) (k : ResolvedKind)
    (declarations : List Declaration) : Prop where
  definitions : (document params k).member? "definitions" =
    if declarations.isEmpty then none else some (.object (declarations.map definition))
  references : ∀ target ∈ (document params k).references,
    ∃ name ∈ declarations.map (·.name), target = definitionPointer name
  rendered : Generator.jsonSchema.render params k = .ok [
    { name := Generator.jsonSchema.mainFileName k.machineName
      content := (document params k).pretty ++ "\n" }]

/-- That the Go files `files` declare types of the names `names` and `declarations`, each once, and
mention only these; and that their texts do so. -/
structure Go.IsSelfContained (files : List File) (names : List String)
    (declarations : List Declaration) : Prop where
  declared : ∃ own, own.map TypeDeclaration.name = names ∧ Covers files own declarations
  mentioned : ∀ name ∈ files.flatMap File.mentions,
    name ∈ names ∨ name ∈ declarations.map (·.name)
  prints : ∀ file ∈ files, Prints file (fileText file)
  declaredInText : (files.flatMap fun file => namesOf .declared (fileParts file)).Perm
    (names ++ declarations.map (·.name))
  mentionedInText : ∀ name ∈ files.flatMap fun file => namesOf .mentioned (fileParts file),
    name ∈ names ∨ name ∈ declarations.map (·.name)

/-- That what is rendered in `rendered` are the texts of Go files that declare types of the names
`names` and `declarations`, each once, and mention only these. -/
def Go.RendersSelfContained (rendered : List RenderedFile) (names : List String)
    (declarations : List Declaration) : Prop :=
  ∃ files, rendered.map (·.content) = files.map fileText ∧ IsSelfContained files names declarations

/-- Files that cover some declarations are self-contained if they mention nothing else, and then so
are their texts. -/
private theorem Go.Covers.isSelfContained {files : List File} {own : List TypeDeclaration}
    {declarations : List Declaration} (h : Covers files own declarations)
    (hmentioned : ∀ name ∈ files.flatMap File.mentions,
      name ∈ own.map (·.name) ∨ name ∈ declarations.map (·.name)) :
    IsSelfContained files (own.map (·.name)) declarations where
  declared := ⟨own, rfl, h⟩
  mentioned := hmentioned
  prints := fun file _ => prints_fileText file
  declaredInText := by
    simp only [(prints_fileText _).declared]
    rw [← List.map_flatMap]
    exact h.names
  mentionedInText := by
    intro name hname
    obtain ⟨file, hfile, hname⟩ := List.mem_flatMap.mp hname
    rw [(prints_fileText file).mentioned] at hname
    refine hmentioned name (List.mem_flatMap.mpr ⟨file, hfile, ?_⟩)
    rcases List.mem_append.mp hname with hblock | htype
    · -- The type of a constant is that of its block.
      obtain ⟨b, hb, hname⟩ := List.mem_flatMap.mp hblock
      obtain ⟨constant, -, rfl⟩ := List.mem_map.mp hname
      exact List.mem_append_right _ (List.mem_map_of_mem hb)
    · exact List.mem_append_left _ htype

namespace ResolvedKind

variable {k : ResolvedKind} {name : String} (params : Params)

theorem presented_spec :
    (k.presented params).spec = k.spec.withType (k.spec.type.arrange params.memberOrder) := by
  have hspec : (k.expandMetadata params.metadata).spec = k.spec := by
    unfold expandMetadata
    split
    · split <;> rfl
    · rfl
  rw [← hspec]
  rfl

/-- The standalone spec mentions what the section mentions. -/
private theorem mem_names_spec_of_standaloneSpec
    (hname : name ∈ Shape.fieldNames (k.standaloneSpec params)) :
    name ∈ (k.presented params).spec.type.names := by
  -- The members of the standalone spec are sorted, but they are the fields of the section.
  have hfields : name ∈ Shape.fieldNames k.specFields := by
    have hsort := Shape.fieldNames_sort params.specDeclarationOrder
      (Shape.arrangeTypes params.memberOrder k.specFields)
    have harrange := Shape.fieldNames_arrangeTypes params.memberOrder k.specFields
    exact (hsort.trans harrange).mem_iff.mp hname
  have hspec : name ∈ k.spec.type.names := by
    rw [specFields] at hfields
    split at hfields
    · next fields htype =>
      rw [htype, Shape.names]
      exact hfields
    · exact absurd hfields List.not_mem_nil
  rw [presented_spec]
  exact (Shape.names_arrange params.memberOrder k.spec.type).mem_iff.mpr hspec

/-- What the sections of `k` as they are rendered mention is rendered. -/
theorem mem_names_of_section (hclosed : k.IsClosed)
    (hname : name ∈ Shape.fieldNames (k.presented params).envelope) :
    name ∈ (k.presented params).reachableDeclarations.map (·.name) := by
  refine (hclosed.presented params).mem_reachableDeclarations (.of_mem ?_)
  rw [flatMap_names_envelope]
  exact hname

variable (hclosed : k.IsClosed) (hnodup : (k.declarations.map (·.name)).Nodup)
include hclosed hnodup

/-- What a renderer selects of `k` is what is to be rendered. -/
theorem isRendered_reachableDeclarations :
    k.IsRendered params (k.presented params).reachableDeclarations := by
  have hpresented := k.presented_declarations params
  refine ⟨?_, ?_, fun d hd => ?_, fun name hname => ?_⟩
  · rw [← hpresented]
    exact List.filter_sublist
  · refine nodup_reachable ?_
    rw [names_presented_declarations]
    exact hnodup
  · rw [mem_reachableDeclarations_presented]
    exact and_iff_right hd
  · refine (hclosed.presented params).mem_reachableDeclarations ?_
    exact (reaches_arrange params.memberOrder).mpr hname

/-- What the declarations of `k` that are rendered mention is rendered. -/
theorem mem_names_of_body
    (hname : name ∈ (k.presented params).reachableDeclarations.flatMap (·.body.names)) :
    name ∈ (k.presented params).reachableDeclarations.map (·.name) := by
  obtain ⟨d, hd, hmention⟩ := List.mem_flatMap.mp hname
  refine (hclosed.presented params).body_reached ?_ hd hmention
  rw [names_presented_declarations]
  exact hnodup

/-! ### The renderers -/

private theorem typeScript_isSelfContained :
    TypeScript.IsSelfContained params k (k.presented params).reachableDeclarations := by
  have htext := TypeScript.textOf_moduleTokens params k
  refine ⟨htext.symm, TypeScript.declaredIn_moduleTokens params k, fun name hname => ?_, ?_⟩
  swap
  · rw [htext]
    rfl
  rw [TypeScript.mentionedIn_moduleTokens, List.append_assoc] at hname
  rcases List.mem_append.mp hname with hspec | hname
  · have hsection := mem_names_spec_of_standaloneSpec params hspec
    refine (hclosed.presented params).section_reached ?_ hsection
    exact List.mem_cons_of_mem _ List.mem_cons_self
  · rcases List.mem_append.mp hname with hsection | hbody
    · exact mem_names_of_section params hclosed hsection
    · exact mem_names_of_body params hclosed hnodup hbody

private theorem jsonSchema_isSelfContained :
    JsonSchema.IsSelfContained params k (k.presented params).reachableDeclarations := by
  refine ⟨JsonSchema.definitions_document params k, fun target htarget => ?_, rfl⟩
  rw [JsonSchema.references_document] at htarget
  obtain ⟨name, hname, rfl⟩ := List.mem_map.mp htarget
  refine ⟨name, ?_, rfl⟩
  rcases List.mem_append.mp hname with hsection | hbody
  · exact mem_names_of_section params hclosed hsection
  · exact mem_names_of_body params hclosed hnodup hbody

private theorem typesFile_isSelfContained {file : Go.File}
    (hfile : Go.typesFile params k = .ok file) :
    Go.IsSelfContained [file] [k.name] (k.presented params).reachableDeclarations := by
  obtain ⟨root, hroot, hmentions, hcovers⟩ := Go.typesFile_covers hfile
  rw [← hroot]
  refine hcovers.isSelfContained fun name hname => .inr ?_
  rcases hcovers.mentions hname with hsection | hbody | hdeclared
  · rw [List.flatMap_singleton, hmentions] at hsection
    exact mem_names_of_section params hclosed hsection
  · exact mem_names_of_body params hclosed hnodup hbody
  · exact hdeclared

private theorem sectionFiles_isSelfContained {files : List Go.NamedFile}
    (hfiles : Go.sectionFiles params k = .ok files) :
    Go.IsSelfContained (files.map (·.file)) (k.name :: Go.sectionTypeNames params k)
      (k.presented params).reachableDeclarations := by
  obtain ⟨-, root, roots, hroot, hmembers, hroots, hsections, hcovers⟩ :=
    Go.sectionFiles_covers hnodup hfiles
  rw [← hroot, ← hroots]
  refine hcovers.isSelfContained fun name hname => ?_
  rcases hcovers.mentions hname with hown | hbody | hdeclared
  · rw [List.flatMap_cons, hmembers, hsections] at hown
    rcases List.mem_append.mp hown with hmember | hsection
    · refine .inl (List.mem_cons_of_mem _ ?_)
      rwa [hroots]
    · exact .inr (mem_names_of_section params hclosed hsection)
  · exact .inr (mem_names_of_body params hclosed hnodup hbody)
  · exact .inr hdeclared

end ResolvedKind

/-- All output of the resolved kind `r` is self-contained, whatever `params` are: the TypeScript
module, the JSON Schema, the Go file and the Go files of the sections, where they can be made,
declare the declarations that the sections depend on, each once and no others, and mention no type
that is not declared. The same holds of the texts of the files that are rendered. -/
theorem output_selfContained {policy : Policy} {k : Kind} {r : ResolvedKind}
    (h : k.resolve policy = .ok r) (params : Params) :
    ∃ declarations, r.IsRendered params declarations ∧
      TypeScript.IsSelfContained params r declarations ∧
      JsonSchema.IsSelfContained params r declarations ∧
      (∀ file, Go.typesFile params r = .ok file →
        Go.IsSelfContained [file] [r.name] declarations) ∧
      (∀ files, Go.sectionFiles params r = .ok files →
        Go.IsSelfContained (files.map (·.file)) (r.name :: Go.sectionTypeNames params r)
          declarations) ∧
      (∀ rendered, Generator.goTypes.render params r = .ok rendered →
        Go.RendersSelfContained rendered [r.name] declarations) ∧
      ∀ rendered, Generator.goSectionTypes.render params r = .ok rendered →
        Go.RendersSelfContained rendered (r.name :: Go.sectionTypeNames params r)
          declarations := by
  have hclosed := Kind.resolve_isClosed h
  have hnodup := Kind.resolve_nodup h
  refine ⟨_, r.isRendered_reachableDeclarations params hclosed hnodup,
    r.typeScript_isSelfContained params hclosed hnodup,
    r.jsonSchema_isSelfContained params hclosed hnodup, ?_, ?_, ?_, ?_⟩
  · exact fun file hfile => r.typesFile_isSelfContained params hclosed hnodup hfile
  · exact fun files hfiles => r.sectionFiles_isSelfContained params hclosed hnodup hfiles
  · intro rendered hrender
    obtain ⟨file, hfile, rfl⟩ := bind_return_eq_ok.mp hrender
    exact ⟨[file], rfl, r.typesFile_isSelfContained params hclosed hnodup hfile⟩
  · intro rendered hrender
    obtain ⟨files, hfiles, rfl⟩ := bind_return_eq_ok.mp hrender
    refine ⟨files.map (·.file), ?_, r.sectionFiles_isSelfContained params hclosed hnodup hfiles⟩
    rw [List.map_map, List.map_map]
    rfl

namespace Sample

theorem selfContained_lamp : ∃ declarations file files types sections,
    lampResolved.IsRendered {} declarations ∧ "SpecColor" ∈ declarations.map (·.name) ∧
      TypeScript.IsSelfContained {} lampResolved declarations ∧
      JsonSchema.IsSelfContained {} lampResolved declarations ∧
      Go.typesFile {} lampResolved = .ok file ∧
      Go.IsSelfContained [file] ["Lamp"] declarations ∧
      Go.sectionFiles {} lampResolved = .ok files ∧
      Go.IsSelfContained (files.map (·.file)) ["Lamp", "Metadata", "Spec", "Status"]
        declarations ∧
      Generator.goTypes.render {} lampResolved = .ok types ∧
      Go.RendersSelfContained types ["Lamp"] declarations ∧
      Generator.goSectionTypes.render {} lampResolved = .ok sections ∧
      Go.RendersSelfContained sections ["Lamp", "Metadata", "Spec", "Status"] declarations := by
  obtain ⟨file, hfile⟩ := exists_typesFile_lamp
  obtain ⟨files, hfiles⟩ := exists_sectionFiles_lamp
  obtain ⟨declarations, hrendered, htypeScript, hjsonSchema, htypes, hsections, htypesText,
    hsectionsText⟩ := output_selfContained resolve_lamp {}
  have hcolor : "SpecColor" ∈ declarations.map (·.name) :=
    hrendered.closed _ (.of_mem (by decide))
  have hnames : lampResolved.name :: Go.sectionTypeNames {} lampResolved =
      ["Lamp", "Metadata", "Spec", "Status"] := by with_unfolding_all rfl
  have hrenderTypes : Generator.goTypes.render {} lampResolved =
      .ok [{ name := "lamp_types_gen.go", content := Go.fileText file }] :=
    bind_return_eq_ok.mpr ⟨file, hfile, rfl⟩
  have hrenderSections : Generator.goSectionTypes.render {} lampResolved =
      .ok (files.map fun f => { name := f.name, content := Go.fileText f.file }) :=
    bind_return_eq_ok.mpr ⟨files, hfiles, rfl⟩
  rw [hnames] at hsections hsectionsText
  exact ⟨declarations, file, files, _, _, hrendered, hcolor, htypeScript, hjsonSchema, hfile,
    htypes file hfile, hfiles, hsections files hfiles, hrenderTypes, htypesText _ hrenderTypes,
    hrenderSections, hsectionsText _ hrenderSections⟩

end Sample

end KindSchema
