import KindSchema.Proofs.Command.Execution
import KindSchema.Proofs.Kind.RoundTrip

/-!
# Rejected files among the cells of a run

Rejected files fail under names that are made of their paths, and kinds under their own. The report
of a command says one thing only of each cell as long as these names do not meet.

* `Report.OneOutcome.append_iff`: when failures can be added to a report.
* `Pipeline.mentions_iff`: the names of the cells that a run reports.
* `execute_oneOutcome_iff`: the report of a command has one outcome for each cell if and only if no
  two rejected files have the same name, none has a name that the run reports, and no kind of an
  index has the name of the index itself.
-/

namespace KindSchema

/-! ### Reports with more failures -/

/-- Failures can be added to `r` if they are of different cells that it does not tell of. -/
theorem Report.OneOutcome.append_iff {r : Report} {added : List CellFailure} :
    ({ r with failures := r.failures ++ added } : Report).OneOutcome ↔
      r.OneOutcome ∧ (added.map (·.cell)).Nodup ∧ ∀ f ∈ added, f.cell ∉ r.cells := by
  constructor
  · intro h
    have honce := h.failed_once
    rw [List.map_append, List.nodup_append] at honce
    obtain ⟨hfailed, hadded, hacross⟩ := honce
    have hreport : r.OneOutcome := {
      written_failed := fun e he f hf => h.written_failed e he f (List.mem_append_left _ hf)
      written_skipped := h.written_skipped
      failed_skipped := fun f hf => h.failed_skipped f (List.mem_append_left _ hf)
      failed_once := hfailed }
    refine ⟨hreport, hadded, fun f hf hc => ?_⟩
    -- The cells of a report are the written, the failed and the skipped ones.
    rw [Report.cells, List.mem_append, List.mem_append] at hc
    obtain (hc | hc) | hc := hc
    · obtain ⟨e, he, hcell⟩ := List.mem_map.mp hc
      exact h.written_failed e he f (List.mem_append_right _ hf) hcell
    · exact hacross _ hc _ (List.mem_map_of_mem hf) rfl
    · exact h.failed_skipped f (List.mem_append_right _ hf) hc
  · rintro ⟨h, hadded, hfresh⟩
    refine ⟨fun e he f hf => ?_, h.written_skipped, fun f hf hc => ?_, ?_⟩
    · rcases List.mem_append.mp hf with hf | hf
      · exact h.written_failed e he f hf
      · intro heq
        refine hfresh f hf (List.mem_append_left _ (List.mem_append_left _ ?_))
        exact heq ▸ List.mem_map_of_mem he
    · rcases List.mem_append.mp hf with hf | hf
      · exact h.failed_skipped f hf hc
      · exact hfresh f hf (List.mem_append_right _ hc)
    · rw [List.map_append, List.nodup_append]
      refine ⟨h.failed_once, hadded, fun c hc c' hc' heq => ?_⟩
      obtain ⟨f, hf, rfl⟩ := List.mem_map.mp hc'
      exact hfresh f hf (List.mem_append_left _ (List.mem_append_right _ (heq ▸ hc)))

/-! ### The names of cells -/

namespace Pipeline

variable {p : Pipeline} {kinds : List Kind} {name : String}

/-- That a run of `p` over `kinds` reports a cell of `name`. A kind has cells of its own if there is
a generator for single kinds; otherwise it is told of only if an index skips it or leaves it out. -/
def Mentions (p : Pipeline) (kinds : List Kind) (name : String) : Prop :=
  (∃ k ∈ kinds, k.name = name ∧ (p.perKind ≠ [] ∨
    .tsIndex ∈ p.generators ∧ ∃ v ∈ p.effectiveVariants, k.supports v.id = false ∨
      ∃ cause, memberOf (kinds.filter (·.supports v.id)) .tsIndex k = .error cause)) ∨
  name = CellId.allKinds ∧ .tsIndex ∈ p.generators

/-- A run of `p` over `kinds` reports a cell of `name` exactly if it mentions `name`. -/
theorem mentions_iff : p.Mentions kinds name ↔ ∃ c ∈ (p.plan kinds).cells, c.kind = name := by
  obtain ⟨v₀, hv₀⟩ := List.exists_mem_of_ne_nil _ p.effectiveVariants_ne_nil
  constructor
  -- A generator for the kind alone, a place left out of an index, or the name for all kinds.
  · rintro (⟨k, hk, rfl, hperKind | ⟨hindex, v, hv, hleftOut⟩⟩ | ⟨rfl, hindex⟩)
    · obtain ⟨g, hg⟩ := List.exists_mem_of_ne_nil _ hperKind
      exact ⟨_, mem_cells_plan hk hg hv₀, rfl⟩
    · refine ⟨⟨k.name, .tsIndex, v.id⟩, List.mem_append_right _ (List.mem_append.mpr ?_), rfl⟩
      cases hsupports : k.supports v.id with
      | false =>
        exact .inr (mem_plan_skipped.mpr ⟨k, hk, .tsIndex, hindex, v, hv, hsupports, rfl⟩)
      | true =>
        obtain hundeclared | ⟨cause, hmember⟩ := hleftOut
        · cases hundeclared.symm.trans hsupports
        · refine .inl (List.mem_map.mpr ⟨⟨⟨k.name, .tsIndex, v.id⟩, .schema cause⟩, ?_, rfl⟩)
          exact mem_plan_excluded.mpr ⟨hindex, v, hv, k, hk, hsupports, cause, hmember, rfl⟩
    · refine ⟨⟨CellId.allKinds, .tsIndex, v₀.id⟩, List.mem_append_left _ ?_, rfl⟩
      exact mem_cells_outcomes.mpr (.inr ⟨hindex, v₀, hv₀, rfl⟩)
  · rintro ⟨c, hc, rfl⟩
    rw [Plan.cells, List.mem_append, List.mem_append] at hc
    obtain hc | hc | hc := hc
    · obtain ⟨k, hk, g, hg, v, -, -, rfl⟩ | ⟨hindex, v, -, rfl⟩ := mem_cells_outcomes.mp hc
      · exact .inl ⟨k, hk, rfl, .inl (List.ne_nil_of_mem hg)⟩
      · exact .inr ⟨rfl, hindex⟩
    · obtain ⟨e, he, rfl⟩ := List.mem_map.mp hc
      obtain ⟨hindex, v, hv, k, hk, -, cause, hmember, rfl⟩ := mem_plan_excluded.mp he
      exact .inl ⟨k, hk, rfl, .inr ⟨hindex, v, hv, .inr ⟨cause, hmember⟩⟩⟩
    · obtain ⟨k, hk, g, hg, v, hv, hundeclared, rfl⟩ := mem_plan_skipped.mp hc
      refine .inl ⟨k, hk, rfl, ?_⟩
      cases haggregate : g.isAggregate with
      | false => exact .inl (List.ne_nil_of_mem (mem_perKind.mpr ⟨hg, haggregate⟩))
      | true =>
        obtain rfl := Generator.isAggregate_iff.mp haggregate
        exact .inr ⟨hg, v, hv, .inl hundeclared⟩

/-- The cells of a plan are of its generators and of its variants. -/
private theorem exists_of_mem_cells_plan {c : CellId} (hc : c ∈ (p.plan kinds).cells) :
    ∃ g ∈ p.generators, ∃ v ∈ p.effectiveVariants, c = ⟨c.kind, g, v.id⟩ := by
  rw [Plan.cells, List.mem_append, List.mem_append] at hc
  obtain hc | hc | hc := hc
  · obtain ⟨k, -, g, hg, v, hv, -, rfl⟩ | ⟨hindex, v, hv, rfl⟩ := mem_cells_outcomes.mp hc
    · exact ⟨g, (mem_perKind.mp hg).1, v, hv, rfl⟩
    · exact ⟨.tsIndex, hindex, v, hv, rfl⟩
  · obtain ⟨e, he, rfl⟩ := List.mem_map.mp hc
    obtain ⟨hindex, v, hv, k, -, -, cause, -, rfl⟩ := mem_plan_excluded.mp he
    exact ⟨.tsIndex, hindex, v, hv, rfl⟩
  · obtain ⟨k, -, g, hg, v, hv, -, rfl⟩ := mem_plan_skipped.mp hc
    exact ⟨g, hg, v, hv, rfl⟩

variable {rejected : List (String × SchemaError)}

/-- Rejected files fail in cells of their own if the run does not report their names. -/
private theorem rejection_fresh_iff :
    (∀ f ∈ rejected.flatMap fun r => p.rejection r.1 r.2, f.cell ∉ (p.plan kinds).cells) ↔
      ∀ r ∈ rejected, ¬ p.Mentions kinds r.1 := by
  constructor
  · intro h r hr hmentions
    obtain ⟨c, hc, hname⟩ := mentions_iff.mp hmentions
    obtain ⟨g, hg, v, hv, heq⟩ := exists_of_mem_cells_plan hc
    -- A rejected file fails with every generator in every variant, so in this cell too.
    refine h ⟨⟨r.1, g, v.id⟩, .schema r.2⟩ (List.mem_flatMap.mpr ⟨r, hr, ?_⟩) ?_
    · exact mem_rejection.mpr ⟨g, hg, v, hv, rfl⟩
    · rw [← hname, ← heq]
      exact hc
  · intro h f hf hc
    obtain ⟨r, hr, hf⟩ := List.mem_flatMap.mp hf
    obtain ⟨g, -, v, -, rfl⟩ := mem_rejection.mp hf
    exact h r hr (mentions_iff.mpr ⟨_, hc, rfl⟩)

/-- Rejected files fail in different cells if and only if they have different names. -/
private theorem nodup_rejections_iff (hne : p.generators ≠ []) (hgenerators : p.generators.Nodup)
    (hvariants : (p.variants.map (·.id)).Nodup) :
    ((rejected.flatMap fun r => p.rejection r.1 r.2).map (·.cell)).Nodup ↔
      (rejected.map Prod.fst).Nodup := by
  have hcells (r : String × SchemaError) : (p.rejection r.1 r.2).map (·.cell) =
      (p.perKind ++ p.aggregates).flatMap fun g =>
        p.effectiveVariants.map fun v => ⟨r.1, g, v.id⟩ := by
    rw [rejection, List.map_flatMap]
    simp only [List.map_map]
    rfl
  have hown (r : String × SchemaError) : ((p.rejection r.1 r.2).map (·.cell)).Nodup := by
    rw [hcells]
    refine nodup_flatMap_cells r.1 ?_ (nodup_effectiveVariants hvariants)
    refine (List.perm_append_comm.trans ?_).nodup_iff.mpr hgenerators
    exact List.filter_append_perm (·.isAggregate) p.generators
  have hname {r : String × SchemaError} {c : CellId}
      (hc : c ∈ (p.rejection r.1 r.2).map (·.cell)) : c.kind = r.1 := by
    obtain ⟨f, hf, rfl⟩ := List.mem_map.mp hc
    obtain ⟨g, -, v, -, rfl⟩ := mem_rejection.mp hf
    rfl
  rw [List.map_flatMap, List.nodup_flatMap]
  constructor
  · rintro ⟨-, h⟩
    refine List.pairwise_map.mpr (h.imp fun {r r'} hdisjoint heq => ?_)
    -- One generator and one variant are enough: the two rejections would share that cell.
    obtain ⟨g, hg⟩ := List.exists_mem_of_ne_nil _ hne
    obtain ⟨v, hv⟩ := List.exists_mem_of_ne_nil _ p.effectiveVariants_ne_nil
    have hmem (r : String × SchemaError) :
        ⟨r.1, g, v.id⟩ ∈ (p.rejection r.1 r.2).map (·.cell) :=
      List.mem_map.mpr ⟨_, mem_rejection.mpr ⟨g, hg, v, hv, rfl⟩, rfl⟩
    exact hdisjoint (hmem r) (heq ▸ hmem r')
  · intro h
    refine ⟨fun r _ => hown r, (List.pairwise_map.mp h).imp fun {r r'} hne c hc hc' => hne ?_⟩
    exact (hname hc).symm.trans (hname hc')

end Pipeline

/-! ### The report of a command -/

/-- That the names of rejected files, of kinds and of an index do not meet in a report of `p` on
what was `found`. -/
structure LoadedKinds.NamesApart (found : LoadedKinds) (p : Pipeline) : Prop where
  /-- No two rejected files have the same name. -/
  rejected : (found.rejected.map Prod.fst).Nodup
  /-- No rejected file has a name under which the run reports a cell. -/
  fresh : ∀ r ∈ found.rejected, ¬ p.Mentions found.kinds r.1
  /-- No kind has the name of the index. -/
  index : .tsIndex ∈ p.generators → ∀ k ∈ found.kinds, k.name ≠ CellId.allKinds

/-- The report of a run of `p` on what was `found`, with the rejected files added, has one outcome
for each cell if and only if the names do not meet. -/
theorem rejectAll_oneOutcome_iff {found : LoadedKinds} {p : Pipeline} (hne : p.generators ≠ [])
    (hnames : (found.kinds.map (·.name)).Nodup) (hgenerators : p.generators.Nodup)
    (hvariants : (p.variants.map (·.id)).Nodup) (w : Writer) {σ : Type} [FileStore (StateM σ)]
    (s : σ) : (p.rejectAll found.rejected
        ((p.run w found.kinds : StateM σ Report).run s).1).OneOutcome ↔ found.NamesApart p := by
  obtain ⟨hwritten, hfailures, hskipped⟩ :=
    p.rejectAll_perm found.rejected ((p.run w found.kinds : StateM σ Report).run s).1
  -- The report is sorted again with each rejected file, which makes no difference here.
  have hperm : (p.rejectAll found.rejected
      ((p.run w found.kinds : StateM σ Report).run s).1).OneOutcome ↔
      ({ ((p.run w found.kinds : StateM σ Report).run s).1 with
        failures := ((p.run w found.kinds : StateM σ Report).run s).1.failures ++
          found.rejected.flatMap fun r => p.rejection r.1 r.2 } : Report).OneOutcome :=
    ⟨fun h => h.of_perm hwritten.symm hfailures.symm hskipped.symm,
      fun h => h.of_perm hwritten hfailures hskipped⟩
  rw [hperm, Report.OneOutcome.append_iff, Pipeline.oneOutcome_run_iff hnames hgenerators hvariants,
    Pipeline.nodup_rejections_iff hne hgenerators hvariants]
  simp only [mem_cells_run_iff]
  rw [Pipeline.rejection_fresh_iff]
  exact ⟨fun ⟨hindex, hrejected, hfresh⟩ => ⟨hrejected, hfresh, hindex⟩,
    fun ⟨hrejected, hfresh, hindex⟩ => ⟨hindex, hrejected, hfresh⟩⟩

/-- The report of a command for `c`, a valid configuration, has one outcome for each cell if and
only if the names of its rejected files, its kinds and its index do not meet, and then no error is
found for a cell of which a file is written. -/
theorem execute_oneOutcome_iff {c : Config} {t : FileTree} {files : List Path}
    (options : GenerateOptions) (hvalid : c.validate = .ok ())
    (hrequested : ∀ name ∈ options.variant, (VariantId.ofName? name).isSome = true)
    (hfiles : ((c.kindFiles : StateM FileTree _).run t).1 = .ok files) :
    ∃ found p report console after,
      (c.loadKinds : StateM FileTree _).run t = (.ok found, t) ∧
      c.pipeline options.variant = .ok p ∧
      (Session.execute c options : Session (StateM FileTree) Report).run.run t =
        ((.ok report, console), after) ∧
      (report.OneOutcome ↔ found.NamesApart p) ∧
      (found.NamesApart p → ∀ e ∈ report.written, report.failure? e.cell = none) := by
  obtain ⟨found, hload, hdecides⟩ := Config.loadKinds_run hfiles
  obtain ⟨p, hp, hne, hgenerators, hvariants⟩ :=
    Config.exists_pipeline (Config.validate_eq_ok_iff.mp hvalid) hrequested
  have hiff := rejectAll_oneOutcome_iff hne hdecides.names hgenerators hvariants
    (options.writer c) t
  refine ⟨found, p, _, _, _, hload, hp, Session.execute_run hload hp, hiff, fun hapart e he => ?_⟩
  exact (hiff.mpr hapart).failure?_eq_none he

/-- The verdicts on two files of which only the first can be loaded. -/
private theorem FileTree.verdicts_pair {t : FileTree} {first second : Path} {k : Kind}
    {cause : LoadError} (hfirst : t.kindAt first = .ok k)
    (hsecond : t.kindAt second = .error cause) :
    t.verdicts [first, second] = [(first, .ok k), (second, .error cause.message)] := by
  simp only [verdicts, verdictsAfter, verdict, hfirst, hsecond, List.any_nil, Bool.false_eq_true,
    if_false]

namespace Sample

private theorem ofText_folder : Kind.ofText folder.toText = .ok folder := by
  rw [Kind.ofText_toText]
  exact Kind.decode_toJson (by decide)

/-- Of a file with the small kind and an empty one, the first is loaded. -/
theorem verdicts_of_readText {t : FileTree} {first second : Path}
    (hfirst : t.readText first = .ok folder.toText) (hsecond : t.readText second = .ok "") :
    ∃ message, t.verdicts [first, second] = [(first, .ok folder), (second, .error message)] := by
  have hfolder : t.kindAt first = .ok folder := by
    rw [FileTree.kindAt_of_readText hfirst, ofText_folder]
    rfl
  obtain ⟨cause, htorn⟩ : ∃ cause, t.kindAt second = .error cause := by
    obtain ⟨cause, hcause⟩ : ∃ cause, Kind.ofText "" = .error cause := ⟨_, rfl⟩
    rw [FileTree.kindAt_of_readText hsecond, hcause]
    exact ⟨_, rfl⟩
  exact ⟨cause.message, FileTree.verdicts_pair hfolder htorn⟩

/-- Of the two files the first is loaded. -/
private theorem verdicts_shelf : ∃ message, shelf.verdicts [⟨"folder.json"⟩, ⟨"torn.json"⟩] =
    [(⟨"folder.json"⟩, .ok folder), (⟨"torn.json"⟩, .error message)] :=
  verdicts_of_readText (by rfl) (by rfl)

/-- In the directory of the two files no names meet. -/
private theorem namesApart_shelf {found : LoadedKinds} {p : Pipeline}
    (h : found.Decides shelf [⟨"folder.json"⟩, ⟨"torn.json"⟩]) : found.NamesApart p := by
  obtain ⟨message, hverdicts⟩ := verdicts_shelf
  have hkinds : found.kinds = [folder] := by
    rw [h.kinds_eq, hverdicts]
    rfl
  have hrejected : found.rejected = [malformedSource ⟨"torn.json"⟩ message] := by
    rw [h.rejected_eq, hverdicts]
    rfl
  have hsource : (malformedSource ⟨"torn.json"⟩ message).1 = "torn" := by
    change sourceName ⟨"torn.json"⟩ = "torn"
    decide +kernel
  refine ⟨?_, fun r hr => ?_, fun _ k hk => ?_⟩
  · rw [hrejected]
    exact List.nodup_singleton _
  · rw [hrejected, List.mem_singleton] at hr
    rw [hr, hsource, hkinds]
    rintro (⟨k, hk, hname, -⟩ | ⟨hname, -⟩)
    · rw [List.mem_singleton.mp hk] at hname
      exact absurd hname (by decide)
    · exact absurd hname (by decide)
  · rw [hkinds, List.mem_singleton] at hk
    rw [hk]
    decide

/-- The report on the two files has one outcome for each cell. -/
theorem oneOutcome_shelf :
    shelfConfig.validate = .ok () ∧
      ((shelfConfig.kindFiles : StateM FileTree _).run shelf).1 =
        .ok [⟨"folder.json"⟩, ⟨"torn.json"⟩] ∧
      ∃ found p report console after,
        (shelfConfig.loadKinds : StateM FileTree _).run shelf = (.ok found, shelf) ∧
        shelfConfig.pipeline none = .ok p ∧
        (Session.execute shelfConfig {} : Session (StateM FileTree) Report).run.run shelf =
          ((.ok report, console), after) ∧
        found.NamesApart p ∧ report.OneOutcome ∧
        ∀ e ∈ report.written, report.failure? e.cell = none := by
  have hvalid : shelfConfig.validate = .ok () := by decide +kernel
  have hfiles : ((shelfConfig.kindFiles : StateM FileTree _).run shelf).1 =
      .ok [⟨"folder.json"⟩, ⟨"torn.json"⟩] := by rfl
  obtain ⟨found, p, report, console, after, hload, hp, hrun, hiff, hnone⟩ :=
    execute_oneOutcome_iff {} hvalid (fun _ h => nomatch h) hfiles
  have hapart : found.NamesApart p := by
    obtain ⟨found', hload', hdecides⟩ := Config.loadKinds_run hfiles
    obtain rfl := Except.ok.inj (Prod.mk.inj (hload.symm.trans hload')).1
    exact namesApart_shelf hdecides
  exact ⟨hvalid, hfiles, found, p, report, console, after, hload, hp, hrun, hapart,
    hiff.mpr hapart, hnone hapart⟩

/-- Two files of one name in different directories, both with the text `text`. -/
def doubled (text : String) : FileTree :=
  (((FileTree.empty []).put ["Folder.json"] (.text text)).put ["more"] .directory).put
    ["more", "Folder.json"] (.text text)

/-- TypeScript modules of the two files. -/
def doubledConfig : Config where
  kinds := ["Folder.json", "more/Folder.json"]
  generators := ["ts-types"]

/-- The pipeline of the two files. -/
def doubledPipeline : Pipeline where
  generators := [.tsTypes]
  variants := [{ id := .noParams }]

private theorem kindFiles_doubled (text : String) :
    ((doubledConfig.kindFiles : StateM FileTree _).run (doubled text)).1 =
      .ok [⟨"Folder.json"⟩, ⟨"more/Folder.json"⟩] := by
  rfl

/-- Of two files with a text of the small kind the first is loaded. -/
private theorem verdicts_doubled {text : String} (h : Kind.ofText text = .ok folder) :
    (doubled text).verdicts [⟨"Folder.json"⟩, ⟨"more/Folder.json"⟩] =
      [(⟨"Folder.json"⟩, .ok folder),
        (⟨"more/Folder.json"⟩, .error "kind 'Folder' is defined more than once")] := by
  have hfirst : (doubled text).readText ⟨"Folder.json"⟩ = .ok text := by rfl
  have hsecond : (doubled text).readText ⟨"more/Folder.json"⟩ = .ok text := by rfl
  have hkind {path : Path} (hread : (doubled text).readText path = .ok text) :
      (doubled text).kindAt path = .ok folder := by
    rw [FileTree.kindAt_of_readText hread, h]
    rfl
  simp only [FileTree.verdicts, FileTree.verdictsAfter, FileTree.verdict, FileTree.defines,
    hkind hfirst, hkind hsecond, List.nil_append, List.any_cons, List.any_nil, beq_self_eq_true,
    Bool.or_false, Bool.false_eq_true, if_true, if_false]
  rfl

/-- The file of the small kind is written. -/
private theorem mem_written_doubled :
    ⟨⟨"Folder", .tsTypes, .noParams⟩,
      ⟨"generated/folder_TSTypesJenny_NoParams/folder/folder_types.gen.ts"⟩⟩ ∈
    ((doubledPipeline.run (GenerateOptions.writer {} doubledConfig) [folder] :
      StateM FileTree Report).run (doubled folder.toText)).1.written := by
  have hentries : (((doubledPipeline.plan [folder]).outcomes.mapM
      (Outcome.settle (GenerateOptions.writer {} doubledConfig)) : StateM FileTree _).run
        (doubled folder.toText)).1.flatMap CellResult.written =
      [⟨⟨"Folder", .tsTypes, .noParams⟩,
        ⟨"generated/folder_TSTypesJenny_NoParams/folder/folder_types.gen.ts"⟩⟩] := by
    decide +kernel
  rw [(Pipeline.written_run_perm _ _ _).mem_iff, hentries]
  exact List.mem_singleton_self _

/-- The cell of the small kind is reported as written, for the first file, and as failed, for the
second. -/
theorem written_and_failed_doubled :
    doubledConfig.validate = .ok () ∧
      ((doubledConfig.kindFiles : StateM FileTree _).run (doubled folder.toText)).1 =
        .ok [⟨"Folder.json"⟩, ⟨"more/Folder.json"⟩] ∧
      ∃ report console after,
        (Session.execute doubledConfig {} : Session (StateM FileTree) Report).run.run
          (doubled folder.toText) = ((.ok report, console), after) ∧
        ¬ report.OneOutcome ∧ ∃ e ∈ report.written,
          e.cell = ⟨"Folder", .tsTypes, .noParams⟩ ∧ (report.failure? e.cell).isSome = true := by
  have hvalid : doubledConfig.validate = .ok () := by decide +kernel
  have hp : doubledConfig.pipeline ({} : GenerateOptions).variant = .ok doubledPipeline := by
    decide +kernel
  obtain ⟨found, hload, hdecides⟩ := Config.loadKinds_run (kindFiles_doubled folder.toText)
  have hkinds : found.kinds = [folder] := by
    rw [hdecides.kinds_eq, verdicts_doubled ofText_folder]
    rfl
  have hrun := Session.execute_run hload hp
  have haccounts := rejectAll_accountsForFiles (p := doubledPipeline) hdecides
    (GenerateOptions.writer {} doubledConfig)
  rw [hkinds, verdicts_doubled ofText_folder] at haccounts
  rw [hkinds] at hrun
  have hwritten := (doubledPipeline.rejectAll_perm found.rejected _).1.mem_iff.mpr
    mem_written_doubled
  have hfailed := haccounts.rejected ⟨"more/Folder.json"⟩ _
    (List.mem_cons_of_mem _ (List.mem_singleton_self _)) .tsTypes (List.mem_singleton_self _)
    { id := .noParams } (List.mem_singleton_self _)
  -- The file that is rejected has the name of the kind that is loaded.
  have hsource : sourceName ⟨"more/Folder.json"⟩ = "Folder" := by decide +kernel
  rw [hsource] at hfailed
  refine ⟨hvalid, kindFiles_doubled _, _, _, _, hrun, fun h => ?_, _, hwritten, rfl, ?_⟩
  · exact h.written_failed _ hwritten _ hfailed rfl
  · rw [Report.failure?, Option.isSome_map, List.find?_isSome]
    exact ⟨_, hfailed, beq_self_eq_true _⟩

end Sample

end KindSchema
