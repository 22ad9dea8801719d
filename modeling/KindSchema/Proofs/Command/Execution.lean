import KindSchema.Command.Generate
import KindSchema.Kind.Encoding
import KindSchema.Proofs.Command.Sessions
import KindSchema.Proofs.Config.Loading
import KindSchema.Proofs.Config.Validation
import KindSchema.Proofs.Run.CellIdentity

/-!
# Executing a configuration

What a command reports of the kind files of a configuration: of those it runs its pipeline over, and
of those that could not be used.

* `Session.execute_run`: a command runs the pipeline over the kinds that were loaded, and adds the
  files that were rejected to the report.
* `Pipeline.rejectAll_perm`: what is added is a failure for each rejected file, each generator and
  each variant.
* `execute_accountsForFiles`: so no kind file is lost.
-/

namespace KindSchema

/-! ### The run of a command -/

/-- The writer of the command `generate`. -/
def GenerateOptions.writer (options : GenerateOptions) (c : Config) : Writer where
  root := (options.output.map Path.mk).getD c.outputPath
  mode := if options.check then .verify else .write

/-- What the command `generate` tells before it runs over some kinds. -/
def GenerateOptions.announcement (options : GenerateOptions) (c : Config) (count : Nat) : String :=
  (if options.check then "Checking " else "Generating ") ++ toString count ++ " kind(s) into " ++
    (options.writer c).root.text ++ "\n"

namespace Session

/-- To execute `c` is to run its pipeline `p` over the kinds that are loaded, and to add the files
that are rejected. -/
theorem execute_run {σ : Type} [FileStore (StateM σ)] {c : Config} {options : GenerateOptions}
    {s s' : σ} {found : LoadedKinds} {p : Pipeline}
    (hload : (c.loadKinds : StateM σ _).run s = (.ok found, s'))
    (hp : c.pipeline options.variant = .ok p) :
    (execute c options : Session (StateM σ) Report).run.run s =
      let done := (p.run (options.writer c) found.kinds : StateM σ Report).run s'
      ((.ok (p.rejectAll found.rejected done.1),
        { out := options.announcement c found.kinds.length }), done.2) := by
  change (execute c options : Session (StateM σ) Report).runFrom {} s = _
  rw [execute, runFrom_bind_of_eq_ok (runFrom_loaded_of_eq_ok hload {}), hp]
  rfl

end Session

/-! ### Rejected files -/

namespace Pipeline

variable {p : Pipeline}

/-- The failures in a run of `p` of the kind `name`, which could not take part because of `e`. -/
def rejection (p : Pipeline) (name : String) (e : SchemaError) : List CellFailure :=
  (p.perKind ++ p.aggregates).flatMap fun g =>
    p.effectiveVariants.map fun v => ⟨⟨name, g, v.id⟩, .schema e⟩

/-- A generator renders kinds one by one or all together. -/
private theorem mem_perKind_append_aggregates {g : Generator} :
    g ∈ p.perKind ++ p.aggregates ↔ g ∈ p.generators := by
  rw [perKind, aggregates, List.mem_append, List.mem_filter, List.mem_filter]
  cases g.isAggregate <;> simp

theorem mem_rejection {name : String} {e : SchemaError} {f : CellFailure} :
    f ∈ p.rejection name e ↔
      ∃ g ∈ p.generators, ∃ v ∈ p.effectiveVariants, f = ⟨⟨name, g, v.id⟩, .schema e⟩ := by
  simp only [rejection, List.mem_flatMap, List.mem_map, mem_perKind_append_aggregates, eq_comm]

/-- To reject the kinds of `rejected` adds their failures to `report`, and changes nothing else but
the order. -/
theorem rejectAll_perm (rejected : List (String × SchemaError)) (report : Report) :
    (p.rejectAll rejected report).written.Perm report.written ∧
      (p.rejectAll rejected report).failures.Perm
        (report.failures ++ rejected.flatMap fun r => p.rejection r.1 r.2) ∧
      (p.rejectAll rejected report).skipped.Perm report.skipped := by
  unfold rejectAll
  induction rejected generalizing report with
  | nil => exact ⟨.refl _, .of_eq (List.append_nil _).symm, .refl _⟩
  | cons r rejected ih =>
    obtain ⟨hwritten, hfailures, hskipped⟩ := ih (p.reject r.1 r.2 report)
    refine ⟨hwritten.trans (Report.written_sorted_perm _), hfailures.trans ?_,
      hskipped.trans (Report.skipped_sorted_perm _)⟩
    rw [List.flatMap_cons, ← List.append_assoc]
    exact (Report.failures_sorted_perm _).append_right _

/-- What a report tells of a cell stays when kinds are rejected. -/
private theorem mem_cells_rejectAll {rejected : List (String × SchemaError)} {report : Report}
    {c : CellId} (hc : c ∈ report.cells) : c ∈ (p.rejectAll rejected report).cells := by
  obtain ⟨hwritten, hfailures, hskipped⟩ := p.rejectAll_perm rejected report
  rw [Report.cells, List.mem_append, List.mem_append] at hc ⊢
  refine hc.imp (Or.imp (hwritten.map _).mem_iff.mpr fun hc => ?_) hskipped.mem_iff.mpr
  obtain ⟨f, hf, rfl⟩ := List.mem_map.mp hc
  exact List.mem_map_of_mem (hfailures.mem_iff.mpr (List.mem_append_left _ hf))

end Pipeline

/-! ### Kind files -/

/-- That the report `r` accounts for kind files with their `verdicts`. -/
structure Report.AccountsForFiles (r : Report) (p : Pipeline)
    (verdicts : List (Path × Except String Kind)) : Prop where
  /-- The cells of a kind that is loaded are written, failed or skipped. -/
  loaded : ∀ path k, (path, .ok k) ∈ verdicts → ∀ g ∈ p.perKind, ∀ v ∈ p.effectiveVariants,
    ⟨k.name, g, v.id⟩ ∈ r.cells
  /-- A file that is rejected fails with every generator in every variant. -/
  rejected : ∀ path message, (path, .error message) ∈ verdicts →
    ∀ g ∈ p.generators, ∀ v ∈ p.effectiveVariants,
      ⟨⟨sourceName path, g, v.id⟩, .schema (.malformed (sourceName path) message)⟩ ∈ r.failures

section

variable {σ : Type} [FileStore (StateM σ)] {p : Pipeline} {w : Writer} {kinds : List Kind}

/-- The report of a run of `p` over `kinds` speaks of the cells of its plan. -/
theorem mem_cells_run_iff {c : CellId} (s : σ) :
    c ∈ ((p.run w kinds : StateM σ Report).run s).1.cells ↔ c ∈ (p.plan kinds).cells := by
  obtain ⟨results, hsettles, hreport⟩ := Pipeline.exists_results p kinds (p.plan kinds).outcomes s
  rw [Pipeline.run_eq_runInOrder, hreport]
  exact Plan.mem_cells_reportOf_iff hsettles fun o ho => Pipeline.result_ne_ok_nil ho

/-- Every cell of `k` is in the plan. -/
theorem mem_cells_plan {k : Kind} (hk : k ∈ kinds) {g : Generator} (hg : g ∈ p.perKind)
    {v : Variant} (hv : v ∈ p.effectiveVariants) : ⟨k.name, g, v.id⟩ ∈ (p.plan kinds).cells := by
  cases hsupports : k.supports v.id with
  | true =>
    exact List.mem_append_left _
      (Pipeline.mem_cells_outcomes.mpr (.inl ⟨k, hk, g, hg, v, hv, hsupports, rfl⟩))
  | false =>
    refine List.mem_append_right _ (List.mem_append_right _ ?_)
    exact Pipeline.mem_plan_skipped.mpr
      ⟨k, hk, g, (Pipeline.mem_perKind.mp hg).1, v, hv, hsupports, rfl⟩

end

variable {c : Config} {t : FileTree} {files : List Path}
  {found : LoadedKinds} {p : Pipeline}

/-- The report of a run over the kinds of `found`, with the rejected files added, accounts for all
`files`. -/
theorem rejectAll_accountsForFiles (hdecides : found.Decides t files) (w : Writer) :
    (p.rejectAll found.rejected ((p.run w found.kinds : StateM FileTree Report).run t).1)
      |>.AccountsForFiles p (t.verdicts files) where
  loaded path k hverdict g hg v hv := by
    have hk : k ∈ found.kinds := by
      rw [hdecides.kinds_eq]
      exact List.mem_filterMap.mpr ⟨_, hverdict, rfl⟩
    exact Pipeline.mem_cells_rejectAll ((mem_cells_run_iff t).mpr (mem_cells_plan hk hg hv))
  rejected path message hverdict g hg v hv := by
    have hsource : malformedSource path message ∈ found.rejected := by
      rw [hdecides.rejected_eq]
      exact List.mem_filterMap.mpr ⟨_, hverdict, rfl⟩
    refine (p.rejectAll_perm _ _).2.1.mem_iff.mpr (List.mem_append_right _ ?_)
    exact List.mem_flatMap.mpr ⟨_, hsource, Pipeline.mem_rejection.mpr ⟨g, hg, v, hv, rfl⟩⟩

/-- If a report that accounts for all files is a success, then no file was rejected. -/
private theorem Report.AccountsForFiles.exists_ok {r : Report}
    {verdicts : List (Path × Except String Kind)} (h : r.AccountsForFiles p verdicts)
    (hgenerators : p.generators ≠ []) (hsuccess : r.isSuccess = true) {path : Path}
    {verdict : Except String Kind} (hverdict : (path, verdict) ∈ verdicts) :
    ∃ k, verdict = .ok k := by
  cases verdict with
  | ok k => exact ⟨k, rfl⟩
  | error message =>
    obtain ⟨g, hg⟩ := List.exists_mem_of_ne_nil _ hgenerators
    obtain ⟨v, hv⟩ := List.exists_mem_of_ne_nil _ p.effectiveVariants_ne_nil
    have hfailed := h.rejected path message hverdict g hg v hv
    rw [List.isEmpty_iff.mp hsuccess] at hfailed
    cases hfailed

/-- Files that are all accepted give the kinds that are loaded. -/
private theorem LoadedKinds.Decides.map_kindAt (h : found.Decides t files)
    (hall : ∀ path verdict, (path, verdict) ∈ t.verdicts files → ∃ k, verdict = .ok k) :
    files.map t.kindAt = found.kinds.map .ok := by
  have hkinds : ∀ entry ∈ t.verdicts files, ∃ k, acceptedKind entry = some k ∧
      t.kindAt entry.1 = .ok k := by
    rintro ⟨path, verdict⟩ hmem
    obtain ⟨k, rfl⟩ := hall path verdict hmem
    obtain ⟨before, after, -, hverdict⟩ := FileTree.exists_of_mem_verdicts hmem
    exact ⟨k, rfl, FileTree.kindAt_of_verdict hverdict⟩
  have hfiles : (t.verdicts files).map (t.kindAt ∘ Prod.fst) = files.map t.kindAt := by
    rw [← List.map_map, h.files_eq]
  rw [← hfiles, h.kinds_eq, List.map_filterMap, ← List.filterMap_eq_map]
  refine List.filterMap_congr fun entry hentry => ?_
  obtain ⟨k, hk, hkind⟩ := hkinds entry hentry
  simp [hk, hkind]

/-- No kind file is lost. Each of `files`, the kind files of a valid configuration `c`, is loaded or
rejected, as its verdict says, the kinds that are loaded have different names, and the report
accounts for all files; if it is a success, then every file has given a kind, and these are the
kinds that were loaded. -/
theorem execute_accountsForFiles (options : GenerateOptions) (hvalid : c.validate = .ok ())
    (hrequested : ∀ name ∈ options.variant, (VariantId.ofName? name).isSome = true)
    (hfiles : ((c.kindFiles : StateM FileTree _).run t).1 = .ok files) :
    ∃ found p report console after,
      (c.loadKinds : StateM FileTree _).run t = (.ok found, t) ∧
      found.Decides t files ∧
      c.pipeline options.variant = .ok p ∧
      (Session.execute c options : Session (StateM FileTree) Report).run.run t =
        ((.ok report, console), after) ∧
      report.AccountsForFiles p (t.verdicts files) ∧
      (report.isSuccess = true → files.map t.kindAt = found.kinds.map .ok) := by
  obtain ⟨found, hload, hdecides⟩ := Config.loadKinds_run hfiles
  obtain ⟨p, hp, hgenerators, -, -⟩ :=
    Config.exists_pipeline (Config.validate_eq_ok_iff.mp hvalid) hrequested
  have haccounts := rejectAll_accountsForFiles (p := p) hdecides (options.writer c)
  refine ⟨found, p, _, _, _, hload, hdecides, hp, Session.execute_run hload hp, haccounts, ?_⟩
  exact fun hsuccess => hdecides.map_kindAt fun path verdict =>
    haccounts.exists_ok hgenerators hsuccess

namespace Sample

/-- A directory with a kind in one file and no kind in another. -/
def shelf : FileTree :=
  ((FileTree.empty []).put ["folder.json"] (.text folder.toText)).put ["torn.json"] (.text "")

/-- The configuration `c` is read if its `text` is put beside the two files. -/
theorem load_shelf {text : String} {c : Config} (h : Config.ofText? text = some c)
    (hbase : c.base = ⟨""⟩) :
    (Config.load ⟨standardConfigFile⟩ : StateM FileTree _).run
      (shelf.put [standardConfigFile] (.text text)) =
        (.ok c, shelf.put [standardConfigFile] (.text text)) := by
  have hread : (FileStore.readText ⟨standardConfigFile⟩ : StateM FileTree _).run
      (shelf.put [standardConfigFile] (.text text)) =
        (.ok text, shelf.put [standardConfigFile] (.text text)) := by rfl
  have hparent : (Path.mk standardConfigFile).parent?.getD ⟨""⟩ = c.base := by
    rw [hbase]
    decide +kernel
  rw [Config.load_run hread h, hparent]

/-- TypeScript modules of the two files. -/
def shelfConfig : Config where
  kinds := ["folder.json", "torn.json"]
  generators := ["ts-types", "ts-index"]

/-- The file that holds a kind and the torn one are both accounted for. -/
theorem accountsForFiles_shelf :
    shelfConfig.validate = .ok () ∧
      ((shelfConfig.kindFiles : StateM FileTree _).run shelf).1 =
        .ok [⟨"folder.json"⟩, ⟨"torn.json"⟩] ∧
      ∃ p report console after, shelfConfig.pipeline none = .ok p ∧
        (Session.execute shelfConfig {} : Session (StateM FileTree) Report).run.run shelf =
          ((.ok report, console), after) ∧
        report.AccountsForFiles p (shelf.verdicts [⟨"folder.json"⟩, ⟨"torn.json"⟩]) := by
  have hvalid : shelfConfig.validate = .ok () := by decide +kernel
  have hfiles : ((shelfConfig.kindFiles : StateM FileTree _).run shelf).1 =
      .ok [⟨"folder.json"⟩, ⟨"torn.json"⟩] := by rfl
  obtain ⟨found, p, report, console, after, -, -, hp, hrun, haccounts, -⟩ :=
    execute_accountsForFiles {} hvalid (fun _ h => nomatch h) hfiles
  exact ⟨hvalid, hfiles, p, report, console, after, hp, hrun, haccounts⟩

end Sample

end KindSchema
