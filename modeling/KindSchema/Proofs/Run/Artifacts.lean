import KindSchema.Proofs.Output.FileNames
import KindSchema.Run.Pipeline

/-!
# Artifacts

An artifact is a file that a pipeline makes of a kind, or of all kinds together, apart from the
variant. Each variant has a file for it, in a directory that is named for the variant.

* `Artifact.same_path_iff`: two files have the same path if and only if they belong to the same
  artifact and either have the same variant or lie below an absolute subdirectory.
* `Artifact.location_eq_iff`: their locations are the same also where the subdirectory climbs above
  the directory that is named for the variant.
* `Pipeline.generate_files`: the files of a cell are those of the artifacts of its kind and
  generator.
-/

namespace KindSchema

/-- A file that is made of a kind, or of all kinds, whatever the variant. -/
structure Artifact where
  generator : Generator
  /-- The machine name of the kind; none if the file is made of all kinds. -/
  machineName : Option String
  fileName : String
deriving DecidableEq, Repr

/-- The subdirectory of `g`, as a path. -/
def Pipeline.subdirectoryPath (p : Pipeline) (g : Generator) : Path :=
  ⟨(p.subdirectory? g).getD ""⟩

/-! ### Subdirectories -/

section Subdirectory

variable {label : String} {subdirectory : Option String}

/-- What lies below a subdirectory has its components, after those of the directory unless the
subdirectory is absolute. -/
theorem components_belowSubdirectory (h : Path.EntryName label) :
    (belowSubdirectory ⟨label⟩ subdirectory).components =
      if (⟨subdirectory.getD ""⟩ : Path).isAbsolute then (⟨subdirectory.getD ""⟩ : Path).components
      else .entry label :: (⟨subdirectory.getD ""⟩ : Path).relativeComponents := by
  cases subdirectory with
  | none => exact h.components
  | some s =>
    by_cases hs : s = ""
    · subst hs
      exact h.components
    · rw [belowSubdirectory, if_neg hs, Option.getD_some]
      split
      · next habsolute => rw [Path.join_of_isAbsolute habsolute]
      · next hrelative =>
        rw [Path.components_join h.ne_empty (Bool.eq_false_iff.mpr hrelative), h.components]
        rfl

/-- What lies below a subdirectory is resolved from the directory. -/
theorem location_belowSubdirectory (h : Path.EntryName label) (base : Location) :
    (belowSubdirectory ⟨label⟩ subdirectory).location base =
      (⟨subdirectory.getD ""⟩ : Path).location (base ++ [label]) := by
  cases subdirectory with
  | none => exact Path.location_entry h base
  | some s =>
    by_cases hs : s = ""
    · subst hs
      exact Path.location_entry h base
    · rw [belowSubdirectory, if_neg hs, Path.location_join, Path.location_entry h, Option.getD_some]

/-- What lies below a subdirectory has a path that is not empty. -/
theorem text_belowSubdirectory_ne_empty (h : Path.EntryName label) :
    (belowSubdirectory ⟨label⟩ subdirectory).text ≠ "" := by
  unfold belowSubdirectory
  split
  · exact h.ne_empty
  · split
    · exact h.ne_empty
    · exact Path.text_join_ne_empty h.ne_empty

end Subdirectory

namespace Artifact

/-- The name of the top directory of `a` in the variant `v`. -/
def label (a : Artifact) (v : VariantId) : String :=
  match a.machineName with
  | some machineName => machineName ++ "_" ++ a.generator.layoutName ++ "_" ++ v.name
  | none => a.generator.layoutName ++ "_" ++ v.name

/-- The names of the last entries on the path of `a`. -/
def ending (a : Artifact) : List String :=
  a.machineName.toList ++ [a.fileName]

/-- The path of `a` in the variant `v`. -/
def path (p : Pipeline) (a : Artifact) (v : VariantId) : Path :=
  (belowSubdirectory ⟨a.label v⟩ (p.subdirectory? a.generator)).descend a.ending

/-- The artifacts that there are. -/
inductive Proper : Artifact → Prop
  /-- A file of a kind. -/
  | kind {g : Generator} {machineName fileName : String}
      (valid : Naming.isMachineName machineName = true) (perKind : g.isAggregate = false)
      (listed : fileName ∈ g.fileNames machineName) : Proper ⟨g, some machineName, fileName⟩
  /-- The file of all kinds. -/
  | index : Proper ⟨.tsIndex, none, Generator.tsIndex.suffix⟩

variable {p : Pipeline} {a b : Artifact} {v w : VariantId}

/-! ### Names -/

/-- The endings of file names start with an underscore and have no slash. -/
theorem slashless_of_mem_endings {g : Generator} {ending : String} (h : ending ∈ g.endings) :
    '/' ∉ ending.toList ∧ '_' ∈ ending.toList := by
  have hall : ∀ g : Generator, ∀ e ∈ g.endings, '/' ∉ e.toList ∧ '_' ∈ e.toList := by
    intro g
    cases g <;> decide
  exact hall g ending h

namespace Proper

private theorem fileName_entryName (h : a.Proper) : Path.EntryName a.fileName := by
  cases h with
  | kind valid perKind listed =>
    obtain ⟨ending, hending, rfl⟩ := List.mem_map.mp listed
    exact .of_isMachineName valid (slashless_of_mem_endings hending).1
  | index => exact .of_toList (c := 'i') rfl (by decide) (by decide)

private theorem label_entryName (h : a.Proper) (v : VariantId) : Path.EntryName (a.label v) := by
  cases h with
  | @kind g machineName _ valid perKind listed =>
    have hslash : '/' ∉ ("_" ++ g.layoutName ++ "_" ++ v.name).toList := by
      cases g <;> cases v <;> decide
    simpa only [label, String.append_assoc] using Path.EntryName.of_isMachineName valid hslash
  | index => cases v <;> exact .of_toList (c := 'T') rfl (by decide) (by decide)

private theorem ending_entryName (h : a.Proper) : ∀ name ∈ a.ending, Path.EntryName name := by
  have hfile := h.fileName_entryName
  intro name hname
  rcases List.mem_append.mp hname with hname | hname
  · cases h with
    | kind valid perKind listed =>
      cases List.mem_singleton.mp hname
      rw [← String.append_empty (s := name)]
      exact .of_isMachineName valid (by simp)
    | index => cases hname
  · cases List.mem_singleton.mp hname
    exact hfile

/-- The components of a path end in the names that the artifact has in every variant. -/
private theorem components_path (h : a.Proper) (p : Pipeline) (v : VariantId) :
    (a.path p v).components =
      (if (p.subdirectoryPath a.generator).isAbsolute then
        (p.subdirectoryPath a.generator).components
      else .entry (a.label v) :: (p.subdirectoryPath a.generator).relativeComponents) ++
        a.ending.map .entry := by
  have hlabel := h.label_entryName v
  rw [path, Path.components_descend (text_belowSubdirectory_ne_empty hlabel) h.ending_entryName,
    components_belowSubdirectory hlabel]
  rfl

/-- The index alone is made of all kinds: `a` has no machine name if it is the index. -/
theorem isAggregate_eq (h : a.Proper) : a.generator.isAggregate = a.machineName.isNone := by
  cases h with
  | kind valid perKind listed => exact perKind
  | index => rfl

/-- The path of `a` leads to its file. -/
theorem fileName?_path (h : a.Proper) (p : Pipeline) (v : VariantId) :
    (a.path p v).fileName? = some a.fileName := by
  rw [Path.fileName?_eq_some_iff, h.components_path, ending, List.map_append, ← List.append_assoc]
  exact List.getLast?_concat

/-- The location of a path ends in the names that the artifact has in every variant. -/
private theorem location_path (h : a.Proper) (p : Pipeline) (v : VariantId) (base : Location) :
    (a.path p v).location base =
      (p.subdirectoryPath a.generator).location (base ++ [a.label v]) ++ a.ending := by
  rw [path, Path.location_descend h.ending_entryName,
    location_belowSubdirectory (h.label_entryName v)]
  rfl

/-- The last names on a path tell the artifact. -/
private theorem eq_of_append_ending {α : Type} {f : String → α} (hf : Function.Injective f)
    (ha : a.Proper) (hb : b.Proper) {xs ys : List α}
    (h : xs ++ a.ending.map f = ys ++ b.ending.map f) : xs = ys ∧ a = b := by
  -- The file of all kinds has no underscore in its name, and every file of a kind has one.
  have hindex {g : Generator} {machineName fileName : String}
      (listed : fileName ∈ g.fileNames machineName) : fileName ≠ Generator.tsIndex.suffix := by
    rintro rfl
    obtain ⟨ending, hending, heq⟩ := List.mem_map.mp listed
    have hmem : '_' ∈ Generator.tsIndex.suffix.toList := by
      rw [← heq, String.toList_append]
      exact List.mem_append_right _ (slashless_of_mem_endings hending).2
    exact absurd hmem (by decide)
  have hfile : a.fileName = b.fileName := by
    have hlast := congrArg List.getLast? h
    simp only [ending, List.map_append, List.map_singleton, ← List.append_assoc,
      List.getLast?_concat, Option.some.injEq] at hlast
    exact hf hlast
  cases ha with
  | kind valid perKind listed =>
    cases hb with
    | kind valid' perKind' listed' =>
      obtain ⟨hxs, hending⟩ := List.append_inj' h rfl
      cases hf.list_map hending
      exact ⟨hxs, by rw [Generator.eq_of_mem_fileNames listed listed']⟩
    | index => exact absurd hfile (hindex listed)
  | index =>
    cases hb with
    | kind valid' perKind' listed' => exact absurd hfile.symm (hindex listed')
    | index => exact ⟨(List.append_inj' h rfl).1, rfl⟩

end Proper

/-- The top directory of an artifact tells the variant. -/
private theorem label_injective (h : a.label v = a.label w) : v = w := by
  have hname : v.name = w.name := by
    unfold label at h
    split at h <;> exact (String.append_right_inj _).mp h
  revert hname
  cases v <;> cases w <;> decide

/-- The paths of `a` and `b` are the same if and only if these are the same artifact and, unless the
subdirectory is absolute, in the same variant. -/
theorem same_path_iff (ha : a.Proper) (hb : b.Proper) :
    (a.path p v).same (b.path p w) = true ↔
      a = b ∧ (v = w ∨ (p.subdirectoryPath a.generator).isAbsolute = true) := by
  rw [Path.same_iff, ha.components_path, hb.components_path]
  constructor
  · intro h
    obtain ⟨htop, rfl⟩ := Proper.eq_of_append_ending (fun _ _ => Path.Component.entry.inj) ha hb h
    refine ⟨rfl, or_iff_not_imp_right.mpr fun hrelative => ?_⟩
    rw [if_neg hrelative, if_neg hrelative] at htop
    exact label_injective (Path.Component.entry.inj (List.cons.inj htop).1)
  · rintro ⟨rfl, rfl | habsolute⟩
    · rfl
    · rw [if_pos habsolute, if_pos habsolute]

/-- The files of `a` and `b` have the same location if and only if these are the same artifact and,
unless the subdirectory is absolute or climbs, in the same variant. -/
theorem location_eq_iff (ha : a.Proper) (hb : b.Proper) {base : Location} :
    (a.path p v).location base = (b.path p w).location base ↔
      a = b ∧ (v = w ∨ (p.subdirectoryPath a.generator).isAbsolute = true ∨
        (p.subdirectoryPath a.generator).Climbs) := by
  rw [ha.location_path, hb.location_path]
  constructor
  · intro h
    obtain ⟨htop, rfl⟩ := Proper.eq_of_append_ending Function.injective_id ha hb
      (by rwa [List.map_id, List.map_id])
    refine ⟨rfl, ?_⟩
    -- A subdirectory that does not climb stays below the directory of the variant and its label.
    by_contra hnot
    obtain ⟨hne, hrelative, hclimbs⟩ := not_or.mp hnot |>.imp id not_or.mp
    have hstays := Path.exists_location_of_not_climbs (Bool.eq_false_iff.mpr hrelative) hclimbs
    obtain ⟨entered, hentered⟩ := hstays (base ++ [a.label v])
    obtain ⟨entered', hentered'⟩ := hstays (base ++ [a.label w])
    rw [hentered, hentered', List.append_assoc, List.append_assoc] at htop
    have hlabel := (List.cons.inj (List.append_cancel_left htop)).1
    exact hne (label_injective hlabel)
  · rintro ⟨rfl, rfl | habsolute | hclimbs⟩
    · rfl
    · rw [Path.location_of_isAbsolute habsolute,
        Path.location_of_isAbsolute habsolute (base ++ [a.label w])]
    · rw [Path.location_of_climbs hclimbs base (a.label v) (a.label w)]

end Artifact

/-! ### The files of a cell -/

/-- That `f` is the artifact `a` in the variant of `f`. -/
structure GeneratedFile.IsArtifact (f : GeneratedFile) (p : Pipeline) (a : Artifact) : Prop where
  proper : a.Proper
  generator_eq : f.generator = a.generator
  path_eq : f.path = a.path p f.variant

namespace Pipeline

variable {p : Pipeline} {k : Kind} {g : Generator} {v : Variant} {files : List GeneratedFile}

/-- The files of a cell have the kind, the generator and the variant of the cell, and their paths
are those of the artifacts of `k`. -/
theorem generate_files (hg : g.isAggregate = false) (h : p.generate k g v = .ok files) :
    k.NamesValid ∧ (∀ f ∈ files, f.kind = k.name ∧ f.generator = g ∧ f.variant = v.id) ∧
      files.map (·.path) = (g.fileNames k.machineName).map fun name =>
        Artifact.path p ⟨g, some k.machineName, name⟩ v.id := by
  obtain ⟨r, hr, h⟩ := bind_eq_ok.mp h
  obtain ⟨rendered, hrendered, h⟩ := bind_eq_ok.mp h
  cases h
  have hresolve := mapError_eq_ok.mp hr
  have hnames := Generator.render_fileNames hg (Kind.resolve_sectionNames hresolve)
    (mapError_eq_ok.mp hrendered)
  have hmachine := Kind.resolve_machineName hresolve
  refine ⟨Kind.validate_names (Kind.resolve_run hresolve).1, fun f hf => ?_, ?_⟩
  · obtain ⟨file, -, rfl⟩ := List.mem_map.mp hf
    exact ⟨rfl, rfl, rfl⟩
  · rw [← hmachine, ← hnames, List.map_map, List.map_map]
    rfl

/-- Every cell that is rendered has a file. -/
theorem generate_ne_nil (hg : g.isAggregate = false) (h : p.generate k g v = .ok files) :
    files ≠ [] := by
  obtain ⟨-, -, hpaths⟩ := generate_files hg h
  rintro rfl
  exact Generator.fileNames_ne_nil hg (List.map_eq_nil_iff.mp hpaths.symm)

/-- Each file `f` of a cell is an artifact of its kind. -/
theorem exists_artifact_of_mem_generate (hg : g.isAggregate = false)
    (h : p.generate k g v = .ok files) {f : GeneratedFile} (hf : f ∈ files) :
    ∃ name ∈ g.fileNames k.machineName, f.IsArtifact p ⟨g, some k.machineName, name⟩ := by
  obtain ⟨hvalid, hcell, hpaths⟩ := generate_files hg h
  obtain ⟨-, hgenerator, hvariant⟩ := hcell f hf
  have hpath : f.path ∈ files.map (·.path) := List.mem_map_of_mem hf
  rw [hpaths] at hpath
  obtain ⟨name, hname, heq⟩ := List.mem_map.mp hpath
  exact ⟨name, hname, .kind hvalid.machine hg hname, hgenerator, by rw [← heq, hvariant]⟩

end Pipeline

end KindSchema
