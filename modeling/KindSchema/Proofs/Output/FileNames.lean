import Mathlib.Data.List.Nodup
import KindSchema.Output.Rendering
import KindSchema.Proofs.Files.Path
import KindSchema.Proofs.Resolution.Run

/-!
# The names of rendered files

Which files a generator makes of a kind does not depend on what the kind holds: their names are the
machine name followed by one of the endings of the generator.

* `Generator.render_fileNames`: what is rendered has the names that `Generator.fileNames` lists.
* `Generator.eq_of_mem_fileNames`: no two generators have a file name in common.
* `Path.EntryName.of_isMachineName`: a machine name is a directory name, and the start of file
  names.
-/

namespace KindSchema

/-! ### Resolved kinds -/

/-- The section of a run keeps its name. -/
private theorem Resolution.SectionRun.name_eq {c : Context} {f : Field TypeExpr} {names : Names}
    {step : Step (Field Shape)} (run : SectionRun c f names step) : step.result.name = f.name := by
  cases run <;> rfl

/-- The sections of a run keep their names. -/
private theorem Resolution.SectionsRun.names_eq {c : Context} {sections : List (Field TypeExpr)}
    {names : Names} {step : Step (List (Field Shape))} (run : SectionsRun c sections names step) :
    step.result.map (·.name) = sections.map (·.name) := by
  induction run with
  | nil => rfl
  | cons head _ ih => rw [List.map_cons, List.map_cons, head.name_eq, ih]

/-- The fields of a run keep their names. -/
private theorem Resolution.FieldsRun.names_eq {c : Context} {opened path fields names step}
    (run : FieldsRun c opened path fields names step) :
    step.result.map (·.name) = fields.map (·.name) := by
  induction fields generalizing names step with
  | nil =>
    cases run
    rfl
  | cons f fields ih =>
    cases run with
    | cons _ tail => exact congrArg (f.name :: ·) (ih tail)

namespace Kind

variable {policy : Policy} {k : Kind} {r : ResolvedKind}

/-- The resolved kind `r` has the sections of every kind. -/
theorem resolve_sectionNames (h : k.resolve policy = .ok r) :
    r.envelope.map (·.name) = ["metadata", "spec", "status"] := by
  obtain ⟨-, -, step, run, henvelope, -⟩ := resolve_run h
  rw [henvelope, run.names_eq]
  rfl

/-- The spec of `r` is a struct with fields of the names that `k` gives them. -/
theorem resolve_spec (h : k.resolve policy = .ok r) : ∃ fields,
    r.spec = { name := "spec", type := .struct fields, docs := k.spec.docs } ∧
      fields.map (·.name) = k.spec.fields.map (·.name) := by
  obtain ⟨-, -, step, run, henvelope, -⟩ := resolve_run h
  cases run with
  | cons metadata run =>
  cases run with
  | cons spec run =>
  have hspec := congrArg (·[1]?) henvelope
  cases spec with
  | @struct s _ step type fields =>
    obtain rfl := TypeExpr.struct.inj type
    exact ⟨step.result, Option.some.inj hspec, fields.names_eq⟩
  | other noStruct _ => exact absurd rfl (noStruct k.spec)

/-- The resolved kind `r` has the machine name of `k`. -/
theorem resolve_machineName (h : k.resolve policy = .ok r) : r.machineName = k.machineName := by
  rw [resolve] at h
  obtain ⟨-, -, h⟩ := bind_eq_ok.mp h
  obtain ⟨metadata, -, h⟩ := bind_eq_ok.mp h
  obtain ⟨spec, -, h⟩ := bind_eq_ok.mp h
  obtain ⟨status, -, h⟩ := bind_eq_ok.mp h
  cases h
  rfl

end Kind

namespace ResolvedKind

variable (params : Params) (k : ResolvedKind)

private theorem expandMetadata_machineName (mode : MetadataMode) :
    (k.expandMetadata mode).machineName = k.machineName := by
  unfold expandMetadata
  split
  · split <;> rfl
  · rfl

private theorem expandMetadata_sectionNames (mode : MetadataMode) :
    (k.expandMetadata mode).envelope.map (·.name) = k.envelope.map (·.name) := by
  unfold expandMetadata
  split
  · split <;> rfl
  · rfl

private theorem presented_machineName : (k.presented params).machineName = k.machineName :=
  k.expandMetadata_machineName params.metadata

theorem presented_sectionNames :
    (k.presented params).envelope.map (·.name) = k.envelope.map (·.name) :=
  k.expandMetadata_sectionNames params.metadata

end ResolvedKind

/-! ### Rendered files -/

/-- The files of the sections of a kind are named for the sections. -/
private theorem Go.filesOfSections_names {package : String} {k : ResolvedKind}
    {claimed : List String} {sections : List (Field Shape)} {files : List NamedFile}
    (h : filesOfSections package k claimed sections = .ok files) :
    files.map (·.name) =
      sections.map fun f => k.machineName ++ "_" ++ Naming.lower f.name ++ "_gen.go" := by
  induction sections generalizing claimed files with
  | nil => cases h; rfl
  | cons f sections ih =>
    obtain ⟨_, -, h⟩ := bind_eq_ok.mp h
    obtain ⟨rest, hrest, h⟩ := bind_eq_ok.mp h
    cases h
    rw [List.map_cons, List.map_cons, ih hrest]

/-- The Go files of a kind in sections: that of the kind, then those of its sections. -/
private theorem Go.sectionFiles_names {params : Params} {k : ResolvedKind} {files : List NamedFile}
    (h : sectionFiles params k = .ok files) :
    files.map (·.name) = (k.machineName ++ "_gen.go") ::
      (k.envelope.map (·.name)).map fun name =>
        k.machineName ++ "_" ++ Naming.lower name ++ "_gen.go" := by
  unfold sectionFiles at h
  dsimp only at h
  split at h
  · cases h
  split at h
  · cases h
  · obtain ⟨_, -, h⟩ := bind_eq_ok.mp h
    obtain ⟨rest, hrest, h⟩ := bind_eq_ok.mp h
    cases h
    rw [List.map_cons, filesOfSections_names hrest, ← k.presented_sectionNames params,
      List.map_map, k.presented_machineName params]
    rfl

namespace Generator

/-- How the names of the files end that a generator makes of a kind. -/
def endings : Generator → List String
  | .tsTypes => ["_types.gen.ts"]
  | .goTypes => ["_types_gen.go"]
  | .jsonSchema => ["_types_gen.json"]
  | .goSectionTypes => ["_gen.go", "_metadata_gen.go", "_spec_gen.go", "_status_gen.go"]
  | .tsIndex => []

/-- The names of the files that `g` makes of a kind with the given machine name. -/
def fileNames (g : Generator) (machineName : String) : List String :=
  g.endings.map (machineName ++ ·)

variable {g g' : Generator} {machineName name : String}

/-- If `g` renders kinds on their own, it makes some file of each. -/
theorem fileNames_ne_nil (hg : g.isAggregate = false) : g.fileNames machineName ≠ [] := by
  cases g <;> simp_all [fileNames, endings, isAggregate]

/-- The file name `name` of a kind tells the generator. -/
theorem eq_of_mem_fileNames (h : name ∈ g.fileNames machineName)
    (h' : name ∈ g'.fileNames machineName) : g = g' := by
  obtain ⟨ending, hending, rfl⟩ := List.mem_map.mp h
  obtain ⟨ending', hending', heq⟩ := List.mem_map.mp h'
  rw [(String.append_right_inj _).mp heq] at hending'
  have hdisjoint : ∀ g g' : Generator, ∀ e ∈ g.endings, e ∈ g'.endings → g = g' := by
    intro g g'
    cases g <;> cases g' <;> decide
  exact hdisjoint g g' ending hending hending'

/-- What `g` renders of `r` has the names that are listed for it. -/
theorem render_fileNames {params : Params} {r : ResolvedKind} {files : List RenderedFile}
    (hg : g.isAggregate = false)
    (hsections : r.envelope.map (·.name) = ["metadata", "spec", "status"])
    (h : g.render params r = .ok files) : files.map (·.name) = g.fileNames r.machineName := by
  have hmain (ending : String) :
      r.machineName ++ "_" ++ ending = r.machineName ++ ("_" ++ ending) :=
    String.append_assoc
  cases g with
  | tsTypes | jsonSchema =>
    cases h
    exact congrArg (· :: []) (hmain _)
  | goTypes =>
    obtain ⟨_, -, h⟩ := bind_eq_ok.mp h
    cases h
    exact congrArg (· :: []) (hmain _)
  | goSectionTypes =>
    obtain ⟨rendered, hrendered, h⟩ := bind_eq_ok.mp h
    cases h
    -- The files of the sections are named after them, which is why their names are assumed.
    have hnames := Go.sectionFiles_names hrendered
    rw [hsections] at hnames
    simp only [List.map_map]
    refine hnames.trans ?_
    simp only [List.map_cons, List.map_nil, fileNames, endings, String.append_assoc]
    rfl
  | tsIndex => cases hg

/-- An index is the only file that is made of all kinds. -/
theorem isAggregate_iff : g.isAggregate = true ↔ g = .tsIndex :=
  beq_iff_eq

end Generator

/-! ### Names of entries -/

/-- The name `machineName` followed by `ending`, a text without slashes, is the name of an entry. -/
theorem Path.EntryName.of_isMachineName {machineName ending : String}
    (h : Naming.isMachineName machineName = true) (hending : '/' ∉ ending.toList) :
    Path.EntryName (machineName ++ ending) := by
  rw [Naming.isMachineName] at h
  split at h
  · cases h
  · next c cs hchars =>
    obtain ⟨hfirst, hrest⟩ := Bool.and_eq_true_iff.mp h
    have htext : (machineName ++ ending).toList = c :: (cs ++ ending.toList) := by
      rw [String.toList_append, hchars, List.cons_append]
    -- A machine name begins with a letter and has no slash, so the whole is one part of a path.
    refine .of_toList htext ?_ ?_
    · rintro rfl
      exact absurd hfirst (by decide)
    · rw [List.mem_cons, List.mem_append]
      rintro (rfl | hmem | hmem)
      · exact absurd hfirst (by decide)
      · exact absurd (List.all_eq_true.mp hrest '/' hmem) (by decide)
      · exact hending hmem

end KindSchema
