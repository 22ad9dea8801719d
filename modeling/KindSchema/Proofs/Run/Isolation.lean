import KindSchema.Proofs.Run.Outcomes
import KindSchema.Proofs.Run.Reports

/-!
# Isolation of kinds

What a run reports of the cells of a kind does not depend on the other kinds of the run, as long as
no two kinds have the same name or machine name.

* `Pipeline.filter_plan_outcomes`: the outcomes of the cells of a kind depend on no other cells.
* `kind_isolated`: they are those of a run over the kind alone, and so are the entries of the cells
  in the report of a dry run.
-/

namespace KindSchema

variable {p : Pipeline} {kinds : List Kind} {k : Kind} {name : String}

/-! ### The cells of a kind -/

/-- Whether `c` renders the kind `name` on its own. -/
def CellId.isOfKind (name : String) (c : CellId) : Bool :=
  c.kind == name && !c.generator.isAggregate

/-- Where each part of a list comes of the cells of one kind, those of a kind are found by a test of
their cells. -/
private theorem filter_isOfKind_flatMap {α : Type} {cellOf : α → CellId} {part : Kind → List α}
    (hpart : ∀ other name, ∀ a ∈ part other, (cellOf a).isOfKind name = (other.name == name))
    (hnames : (kinds.map (·.name)).Nodup) (hk : k ∈ kinds) :
    (kinds.flatMap part).filter (fun a => (cellOf a).isOfKind k.name) = part k := by
  have hown : (part k).filter (fun a => (cellOf a).isOfKind k.name) = part k :=
    List.filter_eq_self.mpr fun a ha => by rw [hpart k k.name a ha, beq_self_eq_true]
  have hother : ∀ other ∈ kinds, other ≠ k →
      (part other).filter (fun a => (cellOf a).isOfKind k.name) = [] := by
    intro other hmem hne
    refine List.filter_eq_nil_iff.mpr fun a ha => ?_
    rw [hpart other k.name a ha, beq_iff_eq]
    exact fun heq => hne (List.inj_on_of_nodup_map hnames hmem hk heq)
  rw [List.filter_flatMap]
  exact (flatMap_eq_of_forall_ne hnames.of_map hk hother).trans hown

/-- The entries of `r` for the cells that render the kind `name` on its own. -/
def Report.ofKind (name : String) (r : Report) : Report where
  written := r.written.filter (·.cell.isOfKind name)
  failures := r.failures.filter (·.cell.isOfKind name)
  skipped := r.skipped.filter (·.isOfKind name)

/-- It does not matter whether a report is sorted before or after entries are left out. -/
private theorem Report.ofKind_sorted (r : Report) :
    r.sorted.ofKind name = (r.ofKind name).sorted := by
  have hwritten := filter_mergeSort_isLE compareWritten (·.cell.isOfKind name) r.written
  have hfailures := filter_mergeSort_isLE (Ordering.byKey CellFailure.cell Ord.compare)
    (·.cell.isOfKind name) r.failures
  have hskipped := filter_mergeSort_isLE Ord.compare (CellId.isOfKind name) r.skipped
  rw [ofKind, sorted, hwritten, hskipped]
  exact congrArg (fun failures => Report.mk _ failures _) hfailures

/-- The entries for a kind are those of the results of its cells. -/
private theorem Plan.ofKind_reportOf (plan : Plan) (results : List CellResult) :
    (plan.reportOf results).ofKind name =
      { written := (results.filter (·.cell.isOfKind name)).flatMap CellResult.written
        failures := plan.excluded.filter (·.cell.isOfKind name) ++
          (results.filter (·.cell.isOfKind name)).flatMap CellResult.failures
        skipped := plan.skipped.filter (·.isOfKind name) } := by
  have hwritten : (results.flatMap CellResult.written).filter (·.cell.isOfKind name) =
      (results.filter (·.cell.isOfKind name)).flatMap CellResult.written :=
    filter_flatMap_eq (fun r e he => by rw [CellResult.cell_of_mem_written he]) results
  have hfailures : (results.flatMap CellResult.failures).filter (·.cell.isOfKind name) =
      (results.filter (·.cell.isOfKind name)).flatMap CellResult.failures :=
    filter_flatMap_eq (fun r e he => by rw [CellResult.cell_of_mem_failures he]) results
  rw [Report.ofKind, reportOf, List.filter_append, hwritten, hfailures]

/-! ### The plan -/

namespace Pipeline

/-- Among kinds of different machine names none has a clash. -/
private theorem machineNameClash?_eq_none (hnames : (kinds.map (·.name)).Nodup)
    (hmachines : (kinds.map (·.machineName)).Nodup) (hk : k ∈ kinds) :
    machineNameClash? kinds k.name = none :=
  (machineNameClash?_eq_none_iff hnames hk).mpr fun _ hother heq =>
    List.inj_on_of_nodup_map hmachines hother hk heq

theorem isOfKind_of_mem_kindOutcomes (k : Kind) (name : String) :
    ∀ o ∈ p.kindOutcomes kinds k, o.cell.isOfKind name = (k.name == name) := by
  intro o ho
  obtain ⟨g, hg, v, -, -, rfl⟩ := mem_kindOutcomes.mp ho
  simp [outcomeOf, CellId.isOfKind, (mem_perKind.mp hg).2]

theorem isOfKind_of_mem_aggregateOutcomes {o : Outcome} (ho : o ∈ p.aggregateOutcomes kinds) :
    o.cell.isOfKind name = false := by
  obtain ⟨v, -, -, rfl⟩ := mem_aggregateOutcomes.mp ho
  exact Bool.and_false _

/-- The rendered cells of a kind. -/
private theorem filter_rendered (hnames : (kinds.map (·.name)).Nodup) (hk : k ∈ kinds) :
    (p.rendered kinds).filter (·.cell.isOfKind k.name) = p.kindOutcomes kinds k := by
  have haggregates : (p.aggregateOutcomes kinds).filter (·.cell.isOfKind k.name) = [] :=
    List.filter_eq_nil_iff.mpr fun o ho => by simp [isOfKind_of_mem_aggregateOutcomes ho]
  rw [rendered, List.filter_append, haggregates, List.append_nil]
  exact filter_isOfKind_flatMap isOfKind_of_mem_kindOutcomes hnames hk

/-- The outcomes of the cells of `k` are settled by comparing them with each other. -/
theorem filter_plan_outcomes (hnames : (kinds.map (·.name)).Nodup) (hk : k ∈ kinds) :
    (p.plan kinds).outcomes.filter (·.cell.isOfKind k.name) =
      rejectSharedPaths (p.kindOutcomes kinds k) := by
  rw [plan_outcomes, rejectSharedPaths, List.filter_map]
  simp only [Function.comp_def, Outcome.cell_rejectShared]
  rw [filter_rendered hnames hk, rejectSharedPaths]
  refine List.map_congr_left fun o ho => Outcome.rejectShared_congr fun own hown f hf => ?_
  exact .of_eq (pathClaimants_rendered hnames hk ho (Outcome.files_of_eq_ok hown ▸ hf))

/-- A kind alone has no clash. -/
private theorem machineNameClash?_singleton (k : Kind) : machineNameClash? [k] k.name = none :=
  machineNameClash?_eq_none (List.nodup_singleton _) (List.nodup_singleton _)
    (List.mem_singleton_self k)

/-- A kind without a clash is rendered as it is alone. -/
private theorem kindOutcomes_singleton (hclash : machineNameClash? kinds k.name = none) :
    p.kindOutcomes kinds k = p.kindOutcomes [k] k := by
  simp only [kindOutcomes, outcomeOf, hclash, machineNameClash?_singleton]

/-- The outcomes of the cells of a kind, files and errors, are those of a run over the kind
alone. -/
private theorem outcomes_isolated (p : Pipeline) (hnames : (kinds.map (·.name)).Nodup)
    (hmachines : (kinds.map (·.machineName)).Nodup) (hk : k ∈ kinds) :
    (p.plan kinds).outcomes.filter (·.cell.isOfKind k.name) =
      (p.plan [k]).outcomes.filter (·.cell.isOfKind k.name) := by
  have halone : (p.plan [k]).outcomes.filter (·.cell.isOfKind k.name) =
      rejectSharedPaths (p.kindOutcomes [k] k) :=
    filter_plan_outcomes (List.nodup_singleton _) (List.mem_singleton_self k)
  rw [filter_plan_outcomes hnames hk, halone,
    kindOutcomes_singleton (machineNameClash?_eq_none hnames hmachines hk)]

/-- A kind that is left out of an index is reported with a cell of the index. -/
theorem filter_plan_excluded : (p.plan kinds).excluded.filter (·.cell.isOfKind name) = [] := by
  rw [List.filter_eq_nil_iff]
  intro e he
  obtain ⟨-, v, -, k, -, -, cause, -, rfl⟩ := mem_plan_excluded.mp he
  simp [CellId.isOfKind, Generator.isAggregate]

private theorem isOfKind_of_mem_kindSkipped (k : Kind) (name : String) :
    ∀ c ∈ p.kindSkipped k, c.isOfKind name = (k.name == name) := by
  intro c hc
  obtain ⟨g, hg, hc⟩ := List.mem_flatMap.mp hc
  obtain ⟨v, -, rfl⟩ := List.mem_map.mp hc
  simp [CellId.isOfKind, (mem_perKind.mp hg).2]

/-- The skipped cells of `k`. -/
theorem filter_plan_skipped (hnames : (kinds.map (·.name)).Nodup) (hk : k ∈ kinds) :
    (p.plan kinds).skipped.filter (·.isOfKind k.name) = p.kindSkipped k := by
  have haggregates : (p.aggregateSkipped kinds).filter (·.isOfKind k.name) = [] := by
    refine List.filter_eq_nil_iff.mpr fun c hc => ?_
    obtain ⟨⟨g, v⟩, hcell, hc⟩ := List.mem_flatMap.mp hc
    obtain ⟨-, rfl, -⟩ := mem_aggregateCells.mp hcell
    obtain ⟨other, -, rfl⟩ := List.mem_map.mp hc
    simp [CellId.isOfKind, Generator.isAggregate]
  rw [plan_skipped, List.filter_append, haggregates, List.append_nil]
  exact filter_isOfKind_flatMap isOfKind_of_mem_kindSkipped hnames hk

/-! ### The report -/

/-- What a dry run reports of the cells of a kind: the results of their outcomes, and the cells that
are skipped. -/
private theorem ofKind_dryReport (w : Writer) (hnames : (kinds.map (·.name)).Nodup)
    (hk : k ∈ kinds) :
    ((p.plan kinds).dryReport w).ofKind k.name =
      let results := ((p.plan kinds).outcomes.filter (·.cell.isOfKind k.name)).map (Outcome.dry w)
      Report.sorted
        { written := results.flatMap CellResult.written
          failures := results.flatMap CellResult.failures
          skipped := p.kindSkipped k } := by
  rw [Plan.dryReport, Report.ofKind_sorted, Plan.ofKind_reportOf, filter_plan_excluded,
    filter_plan_skipped hnames hk, List.filter_map, List.nil_append]
  rfl

end Pipeline

/-- The kind `k` is isolated from the others of a run. The outcomes of its cells, with the paths and
the contents of all files, are those of a run over `k` alone, and a dry run reports the same of
them: the same files, the same errors and the same skipped cells, in the same order. -/
theorem kind_isolated (p : Pipeline) {w : Writer} (hmode : w.mode = .dryRun)
    (hnames : (kinds.map (·.name)).Nodup) (hmachines : (kinds.map (·.machineName)).Nodup)
    (hk : k ∈ kinds) :
    (p.plan kinds).outcomes.filter (·.cell.isOfKind k.name) =
        (p.plan [k]).outcomes.filter (·.cell.isOfKind k.name) ∧
      ∀ (m : Type → Type) [Monad m] [LawfulMonad m] [FileStore m],
        Report.ofKind k.name <$> (p.run w kinds : m Report) =
          Report.ofKind k.name <$> (p.run w [k] : m Report) := by
  have houtcomes := p.outcomes_isolated hnames hmachines hk
  have halone : ([k].map (·.name)).Nodup := List.nodup_singleton _
  refine ⟨houtcomes, fun m _ _ _ => ?_⟩
  rw [Pipeline.run_dryRun p w _ hmode, Pipeline.run_dryRun p w _ hmode, map_pure, map_pure,
    Pipeline.ofKind_dryReport w hnames hk, houtcomes,
    Pipeline.ofKind_dryReport w halone (List.mem_singleton_self k)]

namespace Sample

/-- A kind whose spec contains a definition that contains itself. -/
def ring : Kind where
  name := "Ring"
  spec := { fields := [{ name := "start", type := .reference "Link" }] }
  definitions := [{
    name := "Link"
    type := .struct { fields := [{ name := "next", type := .reference "Link" }] } }]

/-- That the one kind is cyclic is no concern of the other. -/
theorem isolated_folder :
    ([ring, folder].map (·.name)).Nodup ∧ ([ring, folder].map (·.machineName)).Nodup ∧
      ((typeScript.plan [ring, folder]).outcomes.filter (·.cell.isOfKind "Folder")) =
        (typeScript.plan [folder]).outcomes.filter (·.cell.isOfKind "Folder") ∧
      Report.ofKind "Folder" <$>
          (typeScript.run { root := ⟨"out"⟩, mode := .dryRun } [ring, folder] : StateM FileTree _) =
        Report.ofKind "Folder" <$>
          (typeScript.run { root := ⟨"out"⟩, mode := .dryRun } [folder] : StateM FileTree _) := by
  have hnames : ([ring, folder].map (·.name)).Nodup := by decide
  have hmachines : ([ring, folder].map (·.machineName)).Nodup := by decide +kernel
  have hfolder : folder ∈ [ring, folder] := List.mem_cons_of_mem _ (List.mem_singleton_self _)
  have hisolated := kind_isolated typeScript (w := { root := ⟨"out"⟩, mode := .dryRun }) rfl hnames
    hmachines hfolder
  exact ⟨hnames, hmachines, hisolated.1, hisolated.2 (StateM FileTree)⟩

end Sample

end KindSchema
