import KindSchema.Proofs.Run.Artifacts

/-!
# The directories of cells

Where subdirectories are made of names alone, every cell has a top directory of its own below the
output directory, and all its files lie in it.

* `Slot.label_injective`: the name of a top directory tells the machine name, the generator and the
  variant, although machine names may contain and end with the underscores that separate the three.
* `Slot.exists_components_eq`, `Slot.exists_location_eq`: what a path of a cell consists of, and
  where it leads.
* `generate_paths`: the files that are generated have the paths of their cell.
* `paths_separated`: the paths of different cells are different, and none leaves the output
  directory.
-/

namespace KindSchema

/-! ### Cells by their paths -/

/-- A cell by what its paths are made of. -/
structure Slot where
  /-- The machine name of the kind; none for the cell of all kinds together. -/
  machineName : Option String
  generator : Generator
  variant : VariantId
deriving DecidableEq, Repr

namespace Slot

/-- That the machine name of `c`, if it has one, can be one of a kind. -/
def Valid (c : Slot) : Prop :=
  ∀ machineName ∈ c.machineName, Naming.isMachineName machineName = true

/-- The names of the files of `c`: the main file, and the others that the generator makes of a
kind. -/
def fileNames (c : Slot) : List String :=
  match c.machineName with
  | some machineName =>
    c.generator.mainFileName machineName :: (c.generator.fileNames machineName).tail
  | none => [c.generator.suffix]

/-- The path of the file `name` of `c`. -/
def path (p : Pipeline) (c : Slot) (name : String) : Path :=
  let subdirectory := p.subdirectory? c.generator
  match c.machineName with
  | some machineName =>
    (kindDirectory machineName c.generator c.variant subdirectory).join ⟨name⟩
  | none => aggregatePath name c.generator c.variant subdirectory

/-- The paths of the files of `c`. -/
def paths (p : Pipeline) (c : Slot) : List Path :=
  c.fileNames.map (c.path p)

/-- The name of the top directory of `c`. -/
def label (c : Slot) : String :=
  match c.machineName with
  | some machineName => machineName ++ "_" ++ c.generator.layoutName ++ "_" ++ c.variant.name
  | none => c.generator.layoutName ++ "_" ++ c.variant.name

/-- A file of a cell lies below its top directory, in the subdirectory, and there in a directory
that is named for the kind, if there is one. -/
private theorem path_eq (p : Pipeline) (c : Slot) (name : String) :
    c.path p name = (belowSubdirectory ⟨c.label⟩ (p.subdirectory? c.generator)).descend
      (c.machineName.toList ++ [name]) := by
  obtain ⟨_ | machineName, g, v⟩ := c <;> rfl

/-! ### Top directories -/

/-- A list is cut in one way only at its last occurrence of a separator. -/
private theorem eq_of_append_cons_eq {α : Type} {separator : α} {xs ys xs' ys' : List α}
    (h : xs ++ separator :: ys = xs' ++ separator :: ys') (hys : separator ∉ ys)
    (hys' : separator ∉ ys') : xs = xs' ∧ ys = ys' := by
  rcases List.append_eq_append_iff.mp h with ⟨between, rfl, hrest⟩ | ⟨between, rfl, hrest⟩
  · cases between with
    | nil => exact ⟨(List.append_nil _).symm, (List.cons.inj hrest).2⟩
    | cons c between =>
      obtain ⟨-, rfl⟩ := List.cons.inj hrest
      exact absurd (List.mem_append_right _ List.mem_cons_self) hys
  · cases between with
    | nil => exact ⟨List.append_nil _, (List.cons.inj hrest).2.symm⟩
    | cons c between =>
      obtain ⟨-, rfl⟩ := List.cons.inj hrest
      exact absurd (List.mem_append_right _ List.mem_cons_self) hys'

/-- The layout name of a generator starts with a capital, tells the generator, and contains no
underscore and no slash. -/
private theorem layoutName_plain (g : Generator) :
    (∃ c cs, g.layoutName.toList = c :: cs ∧ c.isLower = false ∧ c ≠ '.') ∧
      '_' ∉ g.layoutName.toList ∧ '/' ∉ g.layoutName.toList := by
  refine ⟨?_, ?_⟩
  · cases g <;> exact ⟨_, _, rfl, by decide, by decide⟩
  · cases g <;> decide

private theorem layoutName_injective {g g' : Generator} (h : g.layoutName = g'.layoutName) :
    g = g' := by
  revert h
  cases g <;> cases g' <;> decide

private theorem variantName_plain (v : VariantId) : '_' ∉ v.name.toList ∧ '/' ∉ v.name.toList := by
  cases v <;> decide

private theorem variantName_injective {v v' : VariantId} (h : v.name = v'.name) : v = v' := by
  revert h
  cases v <;> cases v' <;> decide

/-- The characters of the name of a top directory. -/
private theorem toList_label (c : Slot) :
    c.label.toList = (c.machineName.elim [] fun machineName => machineName.toList ++ ['_']) ++
      c.generator.layoutName.toList ++ '_' :: c.variant.name.toList := by
  obtain ⟨_ | machineName, g, v⟩ := c <;> simp [label]

/-- The name of the top directory of `c` tells the cell. The variant and the layout name come after
the last two underscores; a machine name starts with a small letter, and a layout name does not. -/
theorem label_injective {c c' : Slot} (hc : c.Valid) (hc' : c'.Valid)
    (h : c.label = c'.label) : c = c' := by
  have hchars := congrArg String.toList h
  rw [toList_label, toList_label] at hchars
  obtain ⟨hrest, hvariant⟩ :=
    eq_of_append_cons_eq hchars (variantName_plain _).1 (variantName_plain _).1
  have hvariant : c.variant = c'.variant := variantName_injective (String.toList_inj.mp hvariant)
  -- A machine name and a layout name have different first characters.
  have hfirst {machineName : String} {g : Generator} {rest : List Char}
      (hvalid : Naming.isMachineName machineName = true) :
      machineName.toList ++ rest ≠ g.layoutName.toList := by
    obtain ⟨⟨first, others, hlayout, hcapital, -⟩, -⟩ := layoutName_plain g
    rw [Naming.isMachineName] at hvalid
    split at hvalid
    · cases hvalid
    · next first' others' hchars' =>
      rw [hchars', hlayout]
      intro heq
      obtain ⟨rfl, -⟩ := List.cons.inj heq
      rw [hcapital] at hvalid
      cases hvalid
  obtain ⟨machineName, g, v⟩ := c
  obtain ⟨machineName', g', v'⟩ := c'
  obtain rfl : v = v' := hvariant
  cases machineName with
  | none =>
    cases machineName' with
    | none =>
      obtain rfl : g = g' := layoutName_injective (String.toList_inj.mp hrest)
      rfl
    | some machineName' =>
      simp only [Option.elim, List.nil_append, List.append_assoc] at hrest
      exact absurd hrest.symm (hfirst (hc' machineName' rfl))
  | some machineName =>
    cases machineName' with
    | none =>
      simp only [Option.elim, List.nil_append, List.append_assoc] at hrest
      exact absurd hrest (hfirst (hc machineName rfl))
    | some machineName' =>
      simp only [Option.elim, List.append_assoc, List.singleton_append] at hrest
      obtain ⟨hmachine, hlayout⟩ :=
        eq_of_append_cons_eq hrest (layoutName_plain _).2.1 (layoutName_plain _).2.1
      obtain rfl : machineName = machineName' := String.toList_inj.mp hmachine
      obtain rfl : g = g' := layoutName_injective (String.toList_inj.mp hlayout)
      rfl

/-- The name of a top directory is the name of an entry. -/
private theorem label_entryName {c : Slot} (hc : c.Valid) : Path.EntryName c.label := by
  obtain ⟨machineName, g, v⟩ := c
  obtain ⟨⟨first, others, hlayout, -, hdot⟩, -, hslash⟩ := layoutName_plain g
  have hvariant := (variantName_plain v).2
  cases machineName with
  | none =>
    have hchars : (label ⟨none, g, v⟩).toList = first :: (others ++ '_' :: v.name.toList) := by
      rw [toList_label, hlayout]
      rfl
    rw [hlayout] at hslash
    refine .of_toList hchars hdot ?_
    simp_all
  | some machineName =>
    have hending : '/' ∉ ("_" ++ g.layoutName ++ "_" ++ v.name).toList := by
      simp_all
    simpa only [label, String.append_assoc] using
      Path.EntryName.of_isMachineName (hc machineName rfl) hending

/-! ### Files -/

private theorem suffix_entryName (g : Generator) : Path.EntryName g.suffix := by
  cases g <;> exact ⟨by decide, by decide, by decide, by decide⟩

/-- The files of a cell have different names. -/
private theorem nodup_fileNames (c : Slot) : c.fileNames.Nodup := by
  obtain ⟨_ | machineName, g, v⟩ := c
  · exact List.nodup_singleton _
  · have hnames : fileNames ⟨some machineName, g, v⟩ =
        (("_" ++ g.suffix) :: g.endings.tail).map (machineName ++ ·) := by
      simp only [fileNames, Generator.fileNames, Generator.mainFileName, List.map_cons,
        List.map_tail, String.append_assoc]
    rw [hnames]
    refine List.Nodup.map (fun a b h => (String.append_right_inj _).mp h) ?_
    cases g <;> decide

/-- What leads to a file of a cell, in the directories of the cell, are entries. -/
private theorem entryName_of_mem {c : Slot} (hc : c.Valid) {name : String}
    (hname : name ∈ c.fileNames) :
    ∀ entry ∈ c.machineName.toList ++ [name], Path.EntryName entry := by
  obtain ⟨_ | machineName, g, v⟩ := c
  · intro entry hentry
    obtain rfl := List.mem_singleton.mp hentry
    obtain rfl := List.mem_singleton.mp hname
    exact suffix_entryName g
  · have hmachine : Naming.isMachineName machineName = true := hc machineName rfl
    have hfile : Path.EntryName name := by
      rcases List.mem_cons.mp hname with rfl | hname
      · have hsuffix : '/' ∉ ("_" ++ g.suffix).toList := by
          have hslash := (suffix_entryName g).slashless
          simp_all
        simpa only [Generator.mainFileName, String.append_assoc] using
          Path.EntryName.of_isMachineName hmachine hsuffix
      · obtain ⟨ending, hending, rfl⟩ := List.mem_map.mp (List.mem_of_mem_tail hname)
        exact .of_isMachineName hmachine (Artifact.slashless_of_mem_endings hending).1
    intro entry hentry
    rcases List.mem_cons.mp hentry with rfl | hentry
    · rw [← String.append_empty (s := entry)]
      exact .of_isMachineName hmachine (by simp)
    · obtain rfl := List.mem_singleton.mp hentry
      exact hfile

end Slot

/-! ### Subdirectories of names -/

/-- That `q` is relative and made of names alone. The empty path is, too. -/
def Path.IsPlain (q : Path) : Prop :=
  ∃ names : List String, q.components = names.map .entry

namespace Path.IsPlain

variable {q : Path}

private theorem not_mem (h : q.IsPlain) {c : Component} (hc : ∀ name, c ≠ .entry name) :
    c ∉ q.components := by
  obtain ⟨names, hnames⟩ := h
  rw [hnames]
  intro hmem
  obtain ⟨name, -, rfl⟩ := List.mem_map.mp hmem
  exact hc name rfl

private theorem isAbsolute (h : q.IsPlain) : q.isAbsolute = false := by
  refine Bool.eq_false_iff.mpr fun habsolute => h.not_mem (c := .root) nofun ?_
  obtain ⟨first, rest, hparts⟩ := List.exists_cons_of_ne_nil q.parts_ne_nil
  simp [components, hparts, habsolute]

/-- Such a path adds all its components to those of another. -/
private theorem relativeComponents (h : q.IsPlain) : q.relativeComponents = q.components := by
  have hrelative : q.isAbsolute = false := h.isAbsolute
  obtain ⟨first, rest, hparts⟩ := List.exists_cons_of_ne_nil q.parts_ne_nil
  have hdot : first ≠ "." := by
    rintro rfl
    refine h.not_mem (c := .current) nofun ?_
    simp [components, hparts, hrelative]
  rw [Path.relativeComponents, hparts, List.filterMap_cons]
  simp only [components, hparts, hrelative, hdot, if_false, Bool.false_eq_true]
  cases componentOf? first <;> rfl

/-- Such a path leads on from where it starts. -/
private theorem exists_location (h : q.IsPlain) (base : Location) :
    ∃ entered, q.location base = base ++ entered :=
  exists_location_of_not_climbs h.isAbsolute (not_climbs_of_not_mem (h.not_mem nofun)) base

end Path.IsPlain

namespace Slot

variable {p : Pipeline} {c : Slot} {q : Path}

/-- The paths of the files of `c` are made of names, of which the first is that of the top
directory, and differ in the last. -/
theorem exists_components_eq (hplain : (p.subdirectoryPath c.generator).IsPlain) (hc : c.Valid) :
    ∃ names : List String, ∀ name ∈ c.fileNames,
      (c.path p name).components = (c.label :: names ++ [name]).map .entry := by
  have hlabel := label_entryName hc
  obtain ⟨names, hnames⟩ := id hplain
  refine ⟨names ++ c.machineName.toList, fun name hname => ?_⟩
  rw [path_eq, Path.components_descend (text_belowSubdirectory_ne_empty hlabel)
    (entryName_of_mem hc hname), components_belowSubdirectory hlabel]
  change (if (p.subdirectoryPath c.generator).isAbsolute then _ else
    _ :: (p.subdirectoryPath c.generator).relativeComponents) ++ _ = _
  rw [hplain.isAbsolute, hplain.relativeComponents, hnames]
  simp

/-- The path of the file `name` of `c` leads to a place below the top directory of the cell. -/
theorem exists_location_eq (hplain : (p.subdirectoryPath c.generator).IsPlain) (hc : c.Valid)
    {name : String} (hname : name ∈ c.fileNames) (base : Location) :
    ∃ names, (c.path p name).location base = base ++ c.label :: names := by
  obtain ⟨entered, hentered⟩ := hplain.exists_location (base ++ [c.label])
  refine ⟨entered ++ (c.machineName.toList ++ [name]), ?_⟩
  rw [path_eq, Path.location_descend (entryName_of_mem hc hname),
    location_belowSubdirectory (label_entryName hc)]
  change (p.subdirectoryPath c.generator).location _ ++ _ = _
  rw [hentered]
  simp

/-- The paths of different cells are different, as they are written and where they lead. -/
private theorem path_ne {c' : Slot} (hplain : ∀ g, (p.subdirectoryPath g).IsPlain) (hc : c.Valid)
    (hc' : c'.Valid) (hne : c ≠ c') (hq : q ∈ c.paths p) {q' : Path} (hq' : q' ∈ c'.paths p) :
    q.same q' = false ∧
      ∀ root base, (Path.join root q).location base ≠ (Path.join root q').location base := by
  obtain ⟨name, hname, rfl⟩ := List.mem_map.mp hq
  obtain ⟨name', hname', rfl⟩ := List.mem_map.mp hq'
  -- Different slots have different labels, and the label is the first part of each path.
  have hlabel : c.label ≠ c'.label := fun heq => hne (label_injective hc hc' heq)
  constructor
  · obtain ⟨names, hnames⟩ := exists_components_eq (hplain c.generator) hc
    obtain ⟨names', hnames'⟩ := exists_components_eq (hplain c'.generator) hc'
    rw [← Bool.not_eq_true, Path.same_iff, hnames name hname, hnames' name' hname']
    exact fun heq => hlabel (Path.Component.entry.inj (List.cons.inj heq).1)
  · intro root base
    obtain ⟨below, hbelow⟩ := exists_location_eq (hplain c.generator) hc hname (root.location base)
    obtain ⟨below', hbelow'⟩ :=
      exists_location_eq (hplain c'.generator) hc' hname' (root.location base)
    rw [Path.location_join, Path.location_join, hbelow, hbelow']
    exact fun heq => hlabel (List.cons.inj (List.append_cancel_left heq)).1

/-- The files of a cell have different paths. -/
private theorem pairwise_paths (hplain : (p.subdirectoryPath c.generator).IsPlain) (hc : c.Valid) :
    (c.paths p).Pairwise fun q q' => q.same q' = false := by
  obtain ⟨names, hnames⟩ := exists_components_eq hplain hc
  refine List.pairwise_map.mpr
    (c.nodup_fileNames.imp_of_mem fun {name name'} hname hname' hne => ?_)
  rw [← Bool.not_eq_true, Path.same_iff, hnames name hname, hnames name' hname']
  intro heq
  have hlast := List.append_cancel_left
    ((Function.Injective.list_map fun _ _ => Path.Component.entry.inj) heq)
  exact hne (List.singleton_inj.mp hlast)

/-- A path of a cell is relative and has no step upwards, and leads to a place below the directory
that it is joined to. -/
private theorem path_below (hplain : (p.subdirectoryPath c.generator).IsPlain) (hc : c.Valid)
    (hq : q ∈ c.paths p) : q.isAbsolute = false ∧ .parent ∉ q.components ∧
      ∀ root base, ∃ names, names ≠ [] ∧
        (Path.join root q).location base = root.location base ++ names := by
  obtain ⟨name, hname, rfl⟩ := List.mem_map.mp hq
  obtain ⟨names, hnames⟩ := exists_components_eq hplain hc
  have hpath : (c.path p name).IsPlain := ⟨_, hnames name hname⟩
  refine ⟨hpath.isAbsolute, hpath.not_mem nofun, fun root base => ?_⟩
  obtain ⟨below, hbelow⟩ := exists_location_eq hplain hc hname (root.location base)
  exact ⟨_, List.cons_ne_nil _ _, (Path.location_join _ _ _).trans hbelow⟩

end Slot

/-! ### Generated files -/

section Generated

variable {p : Pipeline} {kinds : List Kind} {k : Kind} {g : Generator} {v : Variant}

/-- The files that `g` generates of `k` have the paths of its cell. -/
theorem generate_paths {files : List GeneratedFile} (hg : g.isAggregate = false)
    (h : p.generate k g v = .ok files) :
    files.map (·.path) = Slot.paths p ⟨some k.machineName, g, v.id⟩ := by
  have hnames : g.fileNames k.machineName =
      g.mainFileName k.machineName :: (g.fileNames k.machineName).tail := by
    cases g with
    | tsIndex => cases hg
    | _ => simp [Generator.fileNames, Generator.endings, Generator.mainFileName,
        Generator.suffix, String.append_assoc]
  rw [(Pipeline.generate_files hg h).2.2, hnames]
  rfl

/-- The file that is generated of all kinds has the path of its cell. -/
private theorem generateAggregate_paths {file : GeneratedFile}
    (h : (p.generateAggregate kinds g v).file = .ok file) :
    [file.path] = Slot.paths p ⟨none, g, v.id⟩ := by
  obtain ⟨content, -, h⟩ := bind_eq_ok.mp h
  cases h
  rfl

end Generated

/-- Where the subdirectories of `p` are made of names alone, the files of different cells have
different paths, and so do the files of one cell. Every path is relative and made of names, so that
it leads to a place below the output directory. The files that a run generates have these paths. -/
theorem paths_separated {p : Pipeline} (hplain : ∀ g, (p.subdirectoryPath g).IsPlain) :
    (∀ c c' : Slot, c.Valid → c'.Valid → c ≠ c' → ∀ q ∈ c.paths p, ∀ q' ∈ c'.paths p,
      q.same q' = false ∧
        ∀ root base, (Path.join root q).location base ≠ (Path.join root q').location base) ∧
    (∀ c : Slot, c.Valid → (c.paths p).Pairwise fun q q' => q.same q' = false) ∧
    (∀ c : Slot, c.Valid → ∀ q ∈ c.paths p, q.isAbsolute = false ∧ .parent ∉ q.components ∧
      ∀ root base, ∃ names, names ≠ [] ∧
        (Path.join root q).location base = root.location base ++ names) ∧
    (∀ k g v files, g.isAggregate = false → p.generate k g v = .ok files →
      files.map (·.path) = Slot.paths p ⟨some k.machineName, g, v.id⟩) ∧
    ∀ kinds g v file, (p.generateAggregate kinds g v).file = .ok file →
      [file.path] = Slot.paths p ⟨none, g, v.id⟩ := by
  exact ⟨fun c c' hc hc' hne q hq q' hq' => Slot.path_ne hplain hc hc' hne hq hq',
    fun c hc => Slot.pairwise_paths (hplain c.generator) hc,
    fun c hc q hq => Slot.path_below (hplain c.generator) hc hq,
    fun k g v files => generate_paths, fun kinds g v file => generateAggregate_paths⟩

namespace Sample

/-- TypeScript modules below `root`, Go files in sections below `api/v1`, and an index. -/
def nested : Pipeline where
  generators := [.tsTypes, .goSectionTypes, .tsIndex]
  subdirectories := [(.tsTypes, "root"), (.goSectionTypes, "api/v1"), (.tsIndex, "")]

/-- Of two machine names one may be the other with a further separator. -/
theorem separated_item : (∀ g, (nested.subdirectoryPath g).IsPlain) ∧
    (∀ q ∈ Slot.paths nested ⟨some "item", .goSectionTypes, .noParams⟩,
      ∀ q' ∈ Slot.paths nested ⟨some "item_", .goSectionTypes, .noParams⟩, q.same q' = false) ∧
    (Slot.paths nested ⟨some "item_", .goSectionTypes, .noParams⟩).Pairwise
      fun q q' => q.same q' = false := by
  have hplain : ∀ g, (nested.subdirectoryPath g).IsPlain := by
    intro g
    cases g with
    | tsTypes => exact ⟨["root"], by decide⟩
    | goSectionTypes => exact ⟨["api", "v1"], by decide⟩
    | goTypes | jsonSchema | tsIndex => exact ⟨[], by decide⟩
  have hitem : Slot.Valid ⟨some "item", .goSectionTypes, .noParams⟩ := by
    rintro _ ⟨⟩
    decide
  have hitem' : Slot.Valid ⟨some "item_", .goSectionTypes, .noParams⟩ := by
    rintro _ ⟨⟩
    decide
  obtain ⟨hdifferent, hown, -⟩ := paths_separated hplain
  exact ⟨hplain, fun q hq q' hq' => (hdifferent _ _ hitem hitem' (by decide) q hq q' hq').1,
    hown _ hitem'⟩

end Sample

end KindSchema
