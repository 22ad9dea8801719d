import KindSchema.Proofs.Command.CellIdentity
import KindSchema.Proofs.Command.Sessions
import KindSchema.Proofs.Run.Counts

/-!
# The summary of failures

If cells have failed, the command `generate` ends with two numbers: of the cells that failed, and of
all that were attempted.

* `Session.exists_of_generate_cellsFailed`: the numbers are the lengths of the parts of a report.
* `generate_summary_sums`: what they count, and when they count cells.
-/

namespace KindSchema

/-- The kind files of a configuration that loads kinds are found. -/
private theorem Config.exists_kindFiles {c : Config} {t t' : FileTree} {found : LoadedKinds}
    (h : (c.loadKinds : StateM FileTree _).run t = (.ok found, t')) :
    ∃ files, ((c.kindFiles : StateM FileTree _).run t).1 = .ok files := by
  rw [loadKinds, run_bind_eq] at h
  cases hfiles : ((c.kindFiles : StateM FileTree _).run t).1 with
  | ok files => exact ⟨files, rfl⟩
  | error e =>
    rw [hfiles] at h
    cases h

namespace Session

section

variable {σ : Type} [FileStore (StateM σ)] {told told' : Console} {s s' : σ}

/-- The report of an executed configuration is one of its pipeline. -/
private theorem exists_of_runFrom_execute_eq_ok {c : Config} {options : GenerateOptions}
    {report : Report}
    (h : (execute c options : Session (StateM σ) Report).runFrom told s =
      ((.ok report, told'), s')) :
    ∃ found p t, (c.loadKinds : StateM σ _).run s = (.ok found, t) ∧
      c.pipeline options.variant = .ok p := by
  obtain ⟨found, _, t, hloaded, hrest⟩ := exists_of_bind_eq_ok h
  obtain ⟨p, _, _, hpipeline, -⟩ := exists_of_bind_eq_ok hrest
  exact ⟨found, p, t, (runFrom_loaded_eq_ok hloaded).1, (runFrom_orConfigError_eq_ok hpipeline).1⟩

/-- If `generate` ends with two numbers, then they are those of the report of a valid
configuration. -/
theorem exists_of_generate_cellsFailed {options : GenerateOptions} {failed total : Nat}
    (h : (generate options : Session (StateM σ) Unit).runFrom {} s =
      ((.error (.cellsFailed failed total), told'), s')) :
    ∃ c report t between,
      (Config.load ⟨options.config.getD standardConfigFile⟩ : StateM σ _).run s = (.ok c, t) ∧
      c.validate = .ok () ∧
      (execute c options : Session (StateM σ) Report).runFrom {} t =
        ((.ok report, between), s') ∧
      summary report = .error (.cellsFailed failed total) := by
  rw [generate_eq] at h
  -- All steps before fail with errors of their own, so they have ended when the summary fails.
  have hloads : EndsIn (fun c => c.validate = .ok ()) (· ≠ .cellsFailed failed total)
      (loadValidConfig (options.config.getD standardConfigFile) : Session (StateM σ) Config) :=
    loadValidConfig_endsIn _ (fun _ => nofun) (fun _ => nofun)
  obtain ⟨c, between, t, hload, hloaded⟩ := hloads.exists_of_bind_eq_error (not_not.mpr rfl) h
  obtain ⟨hread, hvalid, rfl⟩ := runFrom_loadValidConfig_eq_ok hload
  have hlevels : EndsIn (fun a => c.logLevel options.logLevel = .ok a)
      (· ≠ .cellsFailed failed total)
      (orConfigError (c.logLevel options.logLevel) : Session (StateM σ) LogLevel) :=
    .orConfigError fun _ _ => nofun
  obtain ⟨level, between, t', hlevel, hchecked⟩ :=
    hlevels.exists_of_bind_eq_error (not_not.mpr rfl) hloaded
  obtain ⟨-, rfl, rfl⟩ := runFrom_orConfigError_eq_ok hlevel
  have hexecutes : EndsIn (fun _ => True) (· ≠ .cellsFailed failed total)
      (execute c options : Session (StateM σ) Report) :=
    execute_endsIn (fun _ _ _ => nofun) (fun _ _ => nofun)
  obtain ⟨report, between, t, hexecute, hexecuted⟩ :=
    hexecutes.exists_of_bind_eq_error (not_not.mpr rfl) hchecked
  obtain ⟨told'', hconclude⟩ := concludes_conclude options report between t
  rw [hconclude, Prod.mk.injEq, Prod.mk.injEq] at hexecuted
  obtain ⟨⟨hsummary, -⟩, rfl⟩ := hexecuted
  exact ⟨c, report, t', between, hread, hvalid, hexecute, hsummary⟩

/-- If a valid configuration has been executed, `generate` ends as its report says. -/
private theorem exists_runFrom_generate (options : GenerateOptions) {c : Config} {level : LogLevel}
    {report : Report} {s'' : σ}
    (hread : (Config.load ⟨options.config.getD standardConfigFile⟩ : StateM σ _).run s =
      (.ok c, s'))
    (hvalid : c.validate = .ok ()) (hlevel : c.logLevel options.logLevel = .ok level)
    (hexecute : (execute c options : Session (StateM σ) Report).runFrom {} s' =
      ((.ok report, told), s'')) :
    ∃ told', (generate options : Session (StateM σ) Unit).runFrom {} s =
      ((summary report, told'), s'') := by
  have hlevels : (orConfigError (c.logLevel options.logLevel) :
      Session (StateM σ) LogLevel).runFrom {} s' = ((.ok level, {}), s') := by
    rw [hlevel]
    rfl
  obtain ⟨told', hconclude⟩ := concludes_conclude options report told s''
  refine ⟨told', ?_⟩
  rw [generate_eq, runFrom_bind_of_eq_ok (runFrom_loadValidConfig hread hvalid {}),
    runFrom_bind_of_eq_ok hlevels, runFrom_bind_of_eq_ok hexecute, hconclude]

end

/-- Two numbers are told if there are failures, and they are lengths. -/
private theorem summary_eq_cellsFailed_iff {report : Report} {failed total : Nat} :
    summary report = .error (.cellsFailed failed total) ↔ report.failures ≠ [] ∧
      failed = report.failures.length ∧ total = failed + report.written.length := by
  rw [summary, Report.isSuccess]
  split
  · next hnil => simp [List.isEmpty_iff.mp hnil]
  · next hne =>
    rw [Except.error.injEq, Failure.cellsFailed.injEq, and_iff_right (mt List.isEmpty_iff.mpr hne)]
    constructor
    · rintro ⟨rfl, rfl⟩
      exact ⟨rfl, rfl⟩
    · rintro ⟨rfl, rfl⟩
      exact ⟨rfl, rfl⟩

end Session

/-- If `generate` ends with two numbers, then it has read a valid configuration and run a pipeline
of which cells have failed, and the numbers are those of the report. The report tells of no cell
twice among its failures, and of none both as written and as failed, if the names of rejected files,
of kinds and of the index do not meet. -/
theorem generate_summary_sums {options : GenerateOptions} {t after : FileTree} {console : Console}
    {failed total : Nat}
    (h : (Session.generate options : Session (StateM FileTree) Unit).run.run t =
      ((.error (.cellsFailed failed total), console), after)) :
    ∃ c found p report told,
      (Config.load ⟨options.config.getD standardConfigFile⟩ : StateM FileTree _).run t =
        (.ok c, t) ∧
      c.validate = .ok () ∧
      (c.loadKinds : StateM FileTree _).run t = (.ok found, t) ∧
      c.pipeline options.variant = .ok p ∧
      (Session.execute c options : Session (StateM FileTree) Report).run.run t =
        ((.ok report, told), after) ∧
      report.failures ≠ [] ∧ report.Sums failed total ∧
      (found.NamesApart p → (report.failures.map (·.cell)).Nodup ∧
        Disjoint report.writtenCells report.failedCells) := by
  obtain ⟨c, report, t', told, hread, hvalid, hexecute, hsummary⟩ :=
    Session.exists_of_generate_cellsFailed h
  -- Reading the configuration changes no file.
  obtain rfl : t = t' := by
    have hkeeps := Config.keepsState_load (t = ·) ⟨options.config.getD standardConfigFile⟩ t rfl
    rwa [hread] at hkeeps
  obtain ⟨found, p, t', hfound, hp⟩ := Session.exists_of_runFrom_execute_eq_ok hexecute
  obtain ⟨files, hfiles⟩ := Config.exists_kindFiles hfound
  obtain ⟨found', hload, hdecides⟩ := Config.loadKinds_run hfiles
  obtain rfl : found = found' := Except.ok.inj (Prod.mk.inj (hfound.symm.trans hload)).1
  obtain ⟨hgenerators, hvariants, -⟩ := Config.pipeline_eq_ok_iff.mp hp
  have hne := Config.ne_nil_of_generatorIds (Config.validate_eq_ok_iff.mp hvalid).generators
    hgenerators
  have hgenerators := Config.nodup_of_generatorIds hgenerators
  have hvariants := Config.nodup_of_effectiveVariants hvariants
  have hrun := hexecute.symm.trans (Session.execute_run hload hp)
  obtain rfl : report = p.rejectAll found.rejected
      ((p.run (options.writer c) found.kinds : StateM FileTree Report).run t).1 :=
    Except.ok.inj (Prod.mk.inj (Prod.mk.inj hrun).1).1
  obtain ⟨hfailures, rfl, rfl⟩ := Session.summary_eq_cellsFailed_iff.mp hsummary
  have hperm := (p.rejectAll_perm found.rejected
    ((p.run (options.writer c) found.kinds : StateM FileTree Report).run t).1).1
  -- A cell may have several files, so what is counted are entries and not cells.
  have hcount :=
    Pipeline.length_written_run hdecides.names hgenerators hvariants (options.writer c) t
  dsimp only at hcount
  rw [← hperm.length_eq, ← cellsOf_eq_of_perm hperm] at hcount
  refine ⟨c, found, p, _, told, hread, hvalid, hload, hp, hexecute, hfailures,
    Report.sums_of_length_written hcount, fun hapart => ?_⟩
  have honce := (rejectAll_oneOutcome_iff hne hdecides.names hgenerators hvariants
    (options.writer c) t).mpr hapart
  refine ⟨honce.failed_once, Finset.disjoint_left.mpr fun cell hwritten hfailed => ?_⟩
  obtain ⟨e, he, rfl⟩ := mem_cellsOf.mp hwritten
  obtain ⟨f, hf, hcell⟩ := List.mem_map.mp (List.mem_toFinset.mp hfailed)
  exact honce.written_failed e he f hf hcell.symm

namespace Sample

/-- The text of a configuration with section types of two files. -/
def cabinetText : String :=
  "kinds = [\"folder.json\", \"torn.json\"]\ngenerators = [\"go-section-types\"]\n"

/-- A directory with a configuration, a kind in one file and no kind in another. -/
def cabinet : FileTree :=
  shelf.put [standardConfigFile] (.text cabinetText)

/-- Section types of the two files. -/
def cabinetConfig : Config where
  kinds := ["folder.json", "torn.json"]
  generators := ["go-section-types"]

/-- The pipeline of the two files. -/
def cabinetPipeline : Pipeline where
  generators := [.goSectionTypes]
  variants := [{ id := .noParams }]

private theorem load_cabinet : (Config.load ⟨standardConfigFile⟩ : StateM FileTree _).run cabinet =
    (.ok cabinetConfig, cabinet) :=
  load_shelf (by decide +kernel) rfl

private theorem kindFiles_cabinet : ((cabinetConfig.kindFiles : StateM FileTree _).run cabinet).1 =
    .ok [⟨"folder.json"⟩, ⟨"torn.json"⟩] := by
  rfl

/-- The cell of the kind. -/
def folderCell : CellId := ⟨"Folder", .goSectionTypes, .noParams⟩

/-- The cell that the torn file would have had. -/
def tornCell : CellId := ⟨"torn", .goSectionTypes, .noParams⟩

/-- Of the two files the first is loaded. -/
private theorem verdicts_cabinet : ∃ message, cabinet.verdicts [⟨"folder.json"⟩, ⟨"torn.json"⟩] =
    [(⟨"folder.json"⟩, .ok folder), (⟨"torn.json"⟩, .error message)] :=
  verdicts_of_readText rfl rfl

/-- The kind has four files, of one cell. -/
private theorem cells_cabinet :
    let results := (((cabinetPipeline.plan [folder]).outcomes.mapM
      (Outcome.settle (GenerateOptions.writer {} cabinetConfig)) : StateM FileTree _).run cabinet).1
    ((results.flatMap CellResult.written).map (·.cell), results.flatMap CellResult.failures) =
      ([folderCell, folderCell, folderCell, folderCell], []) := by
  decide +kernel

/-- A run over the kind writes its four files, and nothing fails. -/
private theorem run_cabinet :
    let report := ((cabinetPipeline.run (GenerateOptions.writer {} cabinetConfig) [folder] :
      StateM FileTree Report).run cabinet).1
    (report.written.map (·.cell)).Perm [folderCell, folderCell, folderCell, folderCell] ∧
      report.failures = [] := by
  obtain ⟨hwritten, hfailures⟩ := Prod.mk.inj cells_cabinet
  have hexcluded : (cabinetPipeline.plan [folder]).excluded = [] := by decide +kernel
  constructor
  · rw [← hwritten]
    exact (Pipeline.written_run_perm _ _ _).map _
  · rw [Pipeline.run_eq_reportOf]
    refine ((Report.failures_sorted_perm _).trans (.of_eq ?_)).eq_nil
    rw [Plan.reportOf, hexcluded, hfailures]
    rfl

/-- Four files are written, and the torn file fails. -/
private theorem report_cabinet {found : LoadedKinds}
    (h : found.Decides cabinet [⟨"folder.json"⟩, ⟨"torn.json"⟩]) :
    let report := cabinetPipeline.rejectAll found.rejected ((cabinetPipeline.run
      (GenerateOptions.writer {} cabinetConfig) found.kinds : StateM FileTree Report).run cabinet).1
    (report.written.map (·.cell)).Perm [folderCell, folderCell, folderCell, folderCell] ∧
      (report.failures.map (·.cell)).Perm [tornCell] := by
  obtain ⟨message, hverdicts⟩ := verdicts_cabinet
  have hkinds : found.kinds = [folder] := by
    rw [h.kinds_eq, hverdicts]
    rfl
  have hrejected : found.rejected = [malformedSource ⟨"torn.json"⟩ message] := by
    rw [h.rejected_eq, hverdicts]
    rfl
  have hrejection (name : String) (e : SchemaError) :
      (cabinetPipeline.rejection name e).map (·.cell) = [⟨name, .goSectionTypes, .noParams⟩] := rfl
  have hsource : (malformedSource ⟨"torn.json"⟩ message).1 = "torn" := by
    change sourceName ⟨"torn.json"⟩ = "torn"
    decide +kernel
  obtain ⟨hwritten, hfailures⟩ := run_cabinet
  rw [hkinds, hrejected]
  obtain ⟨hwrittenAll, hfailuresAll, -⟩ := cabinetPipeline.rejectAll_perm
    [malformedSource ⟨"torn.json"⟩ message] ((cabinetPipeline.run
      (GenerateOptions.writer {} cabinetConfig) [folder] : StateM FileTree Report).run cabinet).1
  refine ⟨(hwrittenAll.map _).trans hwritten, ?_⟩
  rw [hfailures, List.nil_append] at hfailuresAll
  refine (hfailuresAll.map _).trans (.of_eq ?_)
  rw [List.flatMap_singleton, hrejection, hsource]
  rfl

/-- The command tells of one failure among five cells. -/
private theorem generate_cabinet : ∃ report told console after,
    (Session.execute cabinetConfig {} : Session (StateM FileTree) Report).run.run cabinet =
        ((.ok report, told), after) ∧
      (report.written.map (·.cell)).Perm [folderCell, folderCell, folderCell, folderCell] ∧
      (report.failures.map (·.cell)).Perm [tornCell] ∧
      (Session.generate {} : Session (StateM FileTree) Unit).run.run cabinet =
        ((.error (.cellsFailed 1 5), console), after) := by
  have hvalid : cabinetConfig.validate = .ok () := by decide +kernel
  have hp : cabinetConfig.pipeline ({} : GenerateOptions).variant = .ok cabinetPipeline := by
    decide +kernel
  have hlevel : cabinetConfig.logLevel ({} : GenerateOptions).logLevel = .ok .standard := by rfl
  obtain ⟨found, hload, hdecides⟩ := Config.loadKinds_run kindFiles_cabinet
  have hrun := Session.execute_run hload hp
  obtain ⟨hwritten, hfailures⟩ := report_cabinet hdecides
  obtain ⟨console, hgenerate⟩ := Session.exists_runFrom_generate {} load_cabinet hvalid hlevel hrun
  have hlength := hwritten.length_eq
  have hlength' := hfailures.length_eq
  rw [List.length_map] at hlength hlength'
  have hsummary := Session.summary_eq_cellsFailed_iff.mpr
    ⟨List.ne_nil_of_length_eq_add_one hlength', hlength'.symm, by rw [hlength]⟩
  rw [hsummary] at hgenerate
  exact ⟨_, _, console, _, hrun, hwritten, hfailures, hgenerate⟩

/-- The numbers that the command tells for the two files. -/
theorem generate_summary_sums_cabinet : ∃ console after,
    (Session.generate {} : Session (StateM FileTree) Unit).run.run cabinet =
        ((.error (.cellsFailed 1 5), console), after) ∧
      ∃ c found p report told,
        (Config.load ⟨standardConfigFile⟩ : StateM FileTree _).run cabinet = (.ok c, cabinet) ∧
        c.validate = .ok () ∧
        (c.loadKinds : StateM FileTree _).run cabinet = (.ok found, cabinet) ∧
        c.pipeline none = .ok p ∧
        (Session.execute c {} : Session (StateM FileTree) Report).run.run cabinet =
          ((.ok report, told), after) ∧
        report.failures ≠ [] ∧ report.Sums 1 5 ∧
        (found.NamesApart p → (report.failures.map (·.cell)).Nodup ∧
          Disjoint report.writtenCells report.failedCells) := by
  obtain ⟨-, -, console, after, -, -, -, hgenerate⟩ := generate_cabinet
  have hsums := generate_summary_sums hgenerate
  exact ⟨console, after, hgenerate, hsums⟩

/-- There are two cells, and the command counts five, as the four files of the first one count one
by one. -/
theorem five_counted_cabinet : cabinetConfig.validate = .ok () ∧
    (Config.load ⟨standardConfigFile⟩ : StateM FileTree _).run cabinet =
      (.ok cabinetConfig, cabinet) ∧
    ∃ report told console after,
      (Session.execute cabinetConfig {} : Session (StateM FileTree) Report).run.run cabinet =
        ((.ok report, told), after) ∧
      report.writtenCells = {folderCell} ∧ report.failedCells = {tornCell} ∧
      (report.writtenCells ∪ report.failedCells).card = 2 ∧
      (Session.generate {} : Session (StateM FileTree) Unit).run.run cabinet =
        ((.error (.cellsFailed 1 5), console), after) := by
  have hvalid : cabinetConfig.validate = .ok () := by decide +kernel
  obtain ⟨report, told, console, after, hrun, hwritten, hfailures, hgenerate⟩ := generate_cabinet
  have hwrittenCells : report.writtenCells = {folderCell} :=
    (List.toFinset_eq_of_perm _ _ hwritten).trans (by decide)
  have hfailedCells : report.failedCells = {tornCell} :=
    (List.toFinset_eq_of_perm _ _ hfailures).trans (by decide)
  refine ⟨hvalid, load_cabinet, report, told, console, after, hrun, hwrittenCells, hfailedCells, ?_,
    hgenerate⟩
  rw [hwrittenCells, hfailedCells]
  decide

end Sample

end KindSchema
