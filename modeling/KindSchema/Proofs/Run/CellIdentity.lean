import KindSchema.Proofs.Run.Order

/-!
# The identity of cells

When a report says one thing only of each cell.

* `Report.OneOutcome`: no cell is in two parts of a report or fails twice.
* `Pipeline.nodup_cells_plan`: the cells of a plan are different if they can be told apart
  (`Pipeline.CellsApart`).
* `Pipeline.oneOutcome_run_iff`: the report of a run has one outcome for each cell if and only if
  there is no index, or no kind has the name under which it is reported.
-/

namespace KindSchema

/-! ### Lists -/

section Lists

variable {α β : Type} {R : α → β → Prop} {l : List α} {l' : List β}

/-- What is related element by element has for each element on the right one on the left. -/
theorem exists_of_mem_right (h : List.Forall₂ R l l') {b : β} (hb : b ∈ l') : ∃ a ∈ l, R a b := by
  induction h with
  | nil => cases hb
  | @cons a b' l l' hab _ ih =>
    rcases List.mem_cons.mp hb with rfl | hb
    · exact ⟨a, List.mem_cons_self, hab⟩
    · obtain ⟨a', ha', hrelated⟩ := ih hb
      exact ⟨a', List.mem_cons_of_mem a ha', hrelated⟩

theorem exists_of_mem_left (h : List.Forall₂ R l l') {a : α} (ha : a ∈ l) : ∃ b ∈ l', R a b :=
  exists_of_mem_right h.flip ha

end Lists

/-! ### Reports -/

/-- That no cell occurs in two parts of `r`, or twice among its failures. -/
structure Report.OneOutcome (r : Report) : Prop where
  written_failed : ∀ e ∈ r.written, ∀ f ∈ r.failures, e.cell ≠ f.cell
  written_skipped : ∀ e ∈ r.written, e.cell ∉ r.skipped
  failed_skipped : ∀ f ∈ r.failures, f.cell ∉ r.skipped
  failed_once : (r.failures.map (·.cell)).Nodup

namespace Report.OneOutcome

variable {r r' : Report}

/-- The order of a report does not matter. -/
theorem of_perm (h : r.OneOutcome) (hwritten : r'.written.Perm r.written)
    (hfailures : r'.failures.Perm r.failures) (hskipped : r'.skipped.Perm r.skipped) :
    r'.OneOutcome where
  written_failed e he f hf :=
    h.written_failed e (hwritten.mem_iff.mp he) f (hfailures.mem_iff.mp hf)
  written_skipped e he hc :=
    h.written_skipped e (hwritten.mem_iff.mp he) (hskipped.mem_iff.mp hc)
  failed_skipped f hf hc :=
    h.failed_skipped f (hfailures.mem_iff.mp hf) (hskipped.mem_iff.mp hc)
  failed_once := (hfailures.map _).nodup_iff.mpr h.failed_once

private theorem sorted_iff : r.sorted.OneOutcome ↔ r.OneOutcome := by
  have hwritten := Report.written_sorted_perm r
  have hfailures := Report.failures_sorted_perm r
  have hskipped := Report.skipped_sorted_perm r
  exact ⟨fun h => h.of_perm hwritten.symm hfailures.symm hskipped.symm,
    fun h => h.of_perm hwritten hfailures hskipped⟩

/-- No error is found for the cell of `e`, of which a file is written. -/
theorem failure?_eq_none (h : r.OneOutcome) {e : WrittenFile} (he : e ∈ r.written) :
    r.failure? e.cell = none := by
  rw [failure?, Option.map_eq_none_iff, List.find?_eq_none]
  intro f hf heq
  exact h.written_failed e he f hf (beq_iff_eq.mp heq).symm

end Report.OneOutcome

/-! ### Plans -/

/-- The cells that `plan` says anything of, each as often as it does. -/
def Plan.cells (plan : Plan) : List CellId :=
  plan.outcomes.map (·.cell) ++ (plan.excluded.map (·.cell) ++ plan.skipped)

namespace Plan

section Results

variable {plan : Plan} {w : Writer} {order : List Outcome} {results : List CellResult}
  (hsettles : List.Forall₂ (Outcome.Settles w) order results)
include hsettles

/-- The file `f` of the cell `o` is among the written ones, or the cell fails in writing. -/
theorem mem_written_or_failed {o : Outcome} (ho : o ∈ order) {f : GeneratedFile}
    (hf : f ∈ o.files) : ⟨o.cell, w.target f⟩ ∈ results.flatMap CellResult.written ∨
      ∃ cause, ⟨o.cell, .write cause⟩ ∈ results.flatMap CellResult.failures := by
  obtain ⟨files, hfiles, hmem⟩ := Outcome.exists_eq_ok_of_mem_files hf
  obtain ⟨r, hr, hcell, hresult⟩ := exists_of_mem_left hsettles ho
  rw [hfiles] at hresult
  obtain hok | ⟨cause, hcause⟩ := hresult
  · refine .inl (List.mem_flatMap.mpr ⟨r, hr, ?_⟩)
    rw [CellResult.written, hok]
    exact List.mem_map.mpr ⟨w.target f, List.mem_map_of_mem hmem, by rw [hcell]⟩
  · refine .inr ⟨cause, List.mem_flatMap.mpr ⟨r, hr, ?_⟩⟩
    rw [CellResult.failures, hcause, hcell]
    exact List.mem_singleton_self _

/-- A cell of which an outcome has a file or an error is written or fails. -/
private theorem exists_written_or_failed {o : Outcome} (ho : o ∈ order) (hne : o.result ≠ .ok []) :
    (∃ path, ⟨o.cell, path⟩ ∈ results.flatMap CellResult.written) ∨
      ∃ e, ⟨o.cell, e⟩ ∈ results.flatMap CellResult.failures := by
  cases hresult : o.result with
  | error e =>
    obtain ⟨r, hr, hcell, hsettled⟩ := exists_of_mem_left hsettles ho
    have hfailed : r.result = .error e := by rwa [hresult] at hsettled
    refine .inr ⟨e, List.mem_flatMap.mpr ⟨r, hr, ?_⟩⟩
    rw [CellResult.failures, hfailed, hcell]
    exact List.mem_singleton_self _
  | ok files =>
    obtain ⟨f, hf⟩ := List.exists_mem_of_ne_nil files fun hnil => hne (hnil ▸ hresult)
    obtain hwritten | ⟨cause, hfailed⟩ := mem_written_or_failed hsettles ho
      (Outcome.files_of_eq_ok hresult ▸ hf)
    · exact .inl ⟨_, hwritten⟩
    · exact .inr ⟨_, hfailed⟩

/-- A failure `e` is one of a kind that is left out of an index, or of an outcome: it is the error
of the outcome, or one in writing. -/
theorem exists_of_mem_failures {e : CellFailure}
    (he : e ∈ (plan.reportOf results).sorted.failures) :
    e ∈ plan.excluded ∨ ∃ o ∈ order, o.cell = e.cell ∧
      (o.result = .error e.error ∨ ∃ cause, e.error = .write cause) := by
  rcases List.mem_append.mp ((Report.failures_sorted_perm _).mem_iff.mp he) with he | he
  · exact .inl he
  · obtain ⟨r, hr, he⟩ := List.mem_flatMap.mp he
    obtain ⟨o, ho, hcell, hresult⟩ := exists_of_mem_right hsettles hr
    refine .inr ⟨o, ho, by rw [← hcell, CellResult.cell_of_mem_failures he], ?_⟩
    cases hfailed : r.result with
    | ok paths =>
      rw [CellResult.failures, hfailed] at he
      cases he
    | error error =>
      rw [CellResult.failures, hfailed, List.mem_singleton] at he
      subst he
      cases ho : o.result with
      | error error' =>
        rw [ho, hfailed] at hresult
        exact .inl (congrArg _ (Except.error.inj hresult).symm)
      | ok files =>
        rw [ho, hfailed] at hresult
        obtain hok | ⟨cause, hcause⟩ := hresult
        · cases hok
        · exact .inr ⟨cause, Except.error.inj hcause⟩

end Results

section Settled

variable {plan : Plan} {w : Writer} {results : List CellResult}
  (hsettles : List.Forall₂ (Outcome.Settles w) plan.outcomes results)
include hsettles

/-- A report of `plan` speaks of its cells, if each outcome has a file or an error. -/
theorem mem_cells_reportOf_iff (hfiles : ∀ o ∈ plan.outcomes, o.result ≠ .ok []) {c : CellId} :
    c ∈ (plan.reportOf results).sorted.cells ↔ c ∈ plan.cells := by
  constructor
  · intro hc
    rcases plan.mem_cells_reportOf results hc with hc | hc | hc
    · exact List.mem_append_left _ (map_cell_of_settles hsettles ▸ hc)
    · exact List.mem_append_right _ (List.mem_append_left _ hc)
    · exact List.mem_append_right _ (List.mem_append_right _ hc)
  · rw [cells, Report.cells]
    simp only [List.mem_append]
    rintro (hc | hc | hc)
    · obtain ⟨o, ho, rfl⟩ := List.mem_map.mp hc
      obtain ⟨path, hpath⟩ | ⟨e, he⟩ := exists_written_or_failed hsettles ho (hfiles o ho)
      · refine .inl (.inl (List.mem_map.mpr ⟨⟨o.cell, path⟩, ?_, rfl⟩))
        exact (Report.written_sorted_perm _).mem_iff.mpr hpath
      · refine .inl (.inr (List.mem_map.mpr ⟨⟨o.cell, e⟩, ?_, rfl⟩))
        exact (Report.failures_sorted_perm _).mem_iff.mpr (List.mem_append_right _ he)
    · obtain ⟨e, he, rfl⟩ := List.mem_map.mp hc
      refine .inl (.inr (List.mem_map_of_mem ((Report.failures_sorted_perm _).mem_iff.mpr ?_)))
      exact List.mem_append_left _ he
    · exact .inr ((Report.skipped_sorted_perm _).mem_iff.mpr hc)

/-- If the cells of a plan are different, then its report has one outcome for each. -/
private theorem oneOutcome_reportOf (h : plan.cells.Nodup) :
    (plan.reportOf results).OneOutcome := by
  rw [cells, ← map_cell_of_settles hsettles, List.nodup_append, List.nodup_append] at h
  -- Each part has no cell twice, and no two parts share one.
  obtain ⟨hresults, ⟨hexcluded, -, hbelow⟩, hacross⟩ := h
  have hfailed {f : CellFailure} (hf : f ∈ results.flatMap CellResult.failures) :
      ∃ r ∈ results, f ∈ r.failures ∧ f.cell = r.cell := by
    obtain ⟨r, hr, hmem⟩ := List.mem_flatMap.mp hf
    exact ⟨r, hr, hmem, CellResult.cell_of_mem_failures hmem⟩
  have hwritten {e : WrittenFile} (he : e ∈ results.flatMap CellResult.written) :
      ∃ r ∈ results, e ∈ r.written ∧ e.cell = r.cell := by
    obtain ⟨r, hr, hmem⟩ := List.mem_flatMap.mp he
    exact ⟨r, hr, hmem, CellResult.cell_of_mem_written hmem⟩
  refine ⟨fun e he f hf heq => ?_, fun e he hskipped => ?_, fun f hf hskipped => ?_, ?_⟩
  · obtain ⟨r, hr, hmem, hcell⟩ := hwritten he
    rcases List.mem_append.mp hf with hf | hf
    · refine hacross r.cell (List.mem_map_of_mem hr) f.cell ?_ (hcell ▸ heq)
      exact List.mem_append_left _ (List.mem_map_of_mem hf)
    · -- A result stands for written files or for a failure, and there is one for a cell.
      obtain ⟨r', hr', hmem', hcell'⟩ := hfailed hf
      obtain rfl := List.inj_on_of_nodup_map hresults hr hr' (by rw [← hcell, heq, hcell'])
      cases hresult : r.result with
      | error cause => rw [CellResult.written, hresult] at hmem; cases hmem
      | ok paths => rw [CellResult.failures, hresult] at hmem'; cases hmem'
  · obtain ⟨r, hr, -, hcell⟩ := hwritten he
    exact hacross r.cell (List.mem_map_of_mem hr) e.cell (List.mem_append_right _ hskipped)
      hcell.symm
  · rcases List.mem_append.mp hf with hf | hf
    · exact hbelow f.cell (List.mem_map_of_mem hf) f.cell hskipped rfl
    · obtain ⟨r, hr, -, hcell⟩ := hfailed hf
      exact hacross r.cell (List.mem_map_of_mem hr) f.cell (List.mem_append_right _ hskipped)
        hcell.symm
  · have honce : ((results.flatMap CellResult.failures).map (·.cell)).Sublist
        (results.map (·.cell)) := by
      rw [List.map_flatMap, ← List.flatMap_singleton' (results.map _), List.flatMap_map]
      refine List.Sublist.flatMap_right results fun r _ => ?_
      cases hresult : r.result with
      | error cause => rw [CellResult.failures, hresult]; exact .refl _
      | ok paths => rw [CellResult.failures, hresult]; exact List.nil_sublist _
    rw [reportOf, List.map_append, List.nodup_append]
    refine ⟨hexcluded, hresults.sublist honce, fun c hc c' hc' heq => ?_⟩
    exact hacross c' (honce.subset hc') c (List.mem_append_left _ hc) heq.symm

/-- If a report has one outcome for each cell, then no cell of its plan is in two parts of it. -/
private theorem nodup_cells_of_oneOutcome (hfiles : ∀ o ∈ plan.outcomes, o.result ≠ .ok [])
    (houtcomes : (plan.outcomes.map (·.cell)).Nodup) (hskipped : plan.skipped.Nodup)
    (h : (plan.reportOf results).OneOutcome) : plan.cells.Nodup := by
  have honce := h.failed_once
  rw [reportOf, List.map_append, List.nodup_append] at honce
  obtain ⟨hexcluded, -, hacross⟩ := honce
  rw [cells, List.nodup_append, List.nodup_append]
  refine ⟨houtcomes, ⟨hexcluded, hskipped, fun c hc c' hc' heq => ?_⟩, fun c hc c' hc' heq => ?_⟩
  · obtain ⟨e, he, rfl⟩ := List.mem_map.mp hc
    exact h.failed_skipped e (List.mem_append_left _ he) (heq ▸ hc')
  · obtain ⟨o, ho, rfl⟩ := List.mem_map.mp hc
    subst heq
    obtain ⟨path, hpath⟩ | ⟨e, he⟩ := exists_written_or_failed hsettles ho (hfiles o ho) <;>
      rcases List.mem_append.mp hc' with hc' | hc'
    · obtain ⟨f, hf, hcell⟩ := List.mem_map.mp hc'
      exact h.written_failed _ hpath f (List.mem_append_left _ hf) hcell.symm
    · exact h.written_skipped _ hpath hc'
    · exact hacross _ hc' _ (List.mem_map_of_mem he) rfl
    · exact h.failed_skipped _ (List.mem_append_right _ he) hc'

end Settled

end Plan

namespace Pipeline

variable {p : Pipeline} {kinds : List Kind}

/-- There is always a variant to be run. -/
theorem effectiveVariants_ne_nil (p : Pipeline) : p.effectiveVariants ≠ [] := by
  unfold effectiveVariants
  split
  · exact List.cons_ne_nil _ _
  · next hvariants => exact fun hnil => hvariants (List.isEmpty_iff.mpr hnil)

/-- The outcome `o` of a plan has a file or an error. -/
theorem result_ne_ok_nil {o : Outcome} (ho : o ∈ (p.plan kinds).outcomes) : o.result ≠ .ok [] := by
  intro hnil
  rw [plan_outcomes] at ho
  obtain ⟨o', ho', rfl⟩ := List.mem_map.mp ho
  have hresult := (Outcome.rejectShared_eq_ok_iff.mp hnil).1
  rcases List.mem_append.mp ho' with ho' | ho'
  · obtain ⟨k, -, ho'⟩ := List.mem_flatMap.mp ho'
    obtain ⟨g, hg, v, -, -, rfl⟩ := mem_kindOutcomes.mp ho'
    exact generate_ne_nil (mem_perKind.mp hg).2 (outcomeOf_eq_ok_iff.mp hresult).2 rfl
  · obtain ⟨v, -, -, rfl⟩ := mem_aggregateOutcomes.mp ho'
    obtain ⟨content, -, hfiles⟩ := aggregateOutcomeOf_eq_ok_iff.mp hresult
    cases hfiles

/-- That the cells of a run of `p` over `kinds` can be told apart: the kinds have different names,
none has the name under which an index is reported, and no generator or variant is listed twice. -/
structure CellsApart (p : Pipeline) (kinds : List Kind) : Prop where
  names : (kinds.map (·.name)).Nodup
  generators : p.generators.Nodup
  variants : (p.variants.map (·.id)).Nodup
  index : .tsIndex ∈ p.generators → ∀ k ∈ kinds, k.name ≠ CellId.allKinds

section Nodup

variable (hnames : (kinds.map (·.name)).Nodup) (hgenerators : p.generators.Nodup)
  (hvariants : (p.variants.map (·.id)).Nodup)
include hgenerators hvariants

/-- Where each index tells of different cells of its own, no cell occurs twice. -/
private theorem nodup_flatMap_aggregateCells {part : Generator × Variant → List CellId}
    (hown : ∀ a, ∀ c ∈ part a, c.generator = a.1 ∧ c.variant = a.2.id)
    (hnodup : ∀ a, (part a).Nodup) : (p.aggregateCells.flatMap part).Nodup := by
  have hindexes : (p.aggregateCells.map fun a => CellId.mk CellId.allKinds a.1 a.2.id).Nodup := by
    rw [aggregateCells, List.map_flatMap]
    simp only [List.map_map]
    exact nodup_flatMap_cells _ (hgenerators.filter _) (nodup_effectiveVariants hvariants)
  rw [List.nodup_flatMap]
  refine ⟨fun a _ => hnodup a, (List.pairwise_map.mp hindexes).imp fun {a a'} hne c hc hc' => ?_⟩
  obtain ⟨hgenerator, hvariant⟩ := hown a c hc
  obtain ⟨hgenerator', hvariant'⟩ := hown a' c hc'
  exact hne (by rw [← hgenerator, ← hvariant, hgenerator', hvariant'])

include hnames

/-- No kind is left out of an index twice. -/
private theorem nodup_cells_excluded : ((p.plan kinds).excluded.map (·.cell)).Nodup := by
  have hsublist (a : Generator × Variant) :
      ((excludedOf (kinds.filter (·.supports a.2.id)) a.1 a.2.id).map (·.cell)).Sublist
        ((kinds.filter (·.supports a.2.id)).map fun k => ⟨k.name, a.1, a.2.id⟩) := by
    refine map_filterMap_sublist (fun k e he => ?_) _
    split at he
    · cases he
    · cases he
      rfl
  rw [plan_excluded, aggregateExcluded, List.map_flatMap]
  refine nodup_flatMap_aggregateCells hgenerators hvariants (fun a c hc => ?_) fun a => ?_
  · obtain ⟨k, -, rfl⟩ := List.mem_map.mp ((hsublist a).subset hc)
    exact ⟨rfl, rfl⟩
  · refine List.Nodup.sublist (hsublist a) ?_
    have hmap := (nodup_names_filter hnames a.2.id).map
      (f := fun name => CellId.mk name a.1 a.2.id) fun _ _ heq => (CellId.mk.inj heq).1
    rwa [List.map_map] at hmap

/-- No cell is skipped twice. -/
private theorem nodup_skipped : (p.plan kinds).skipped.Nodup := by
  have hkinds := nodup_flatMap_kindCells hnames hgenerators hvariants fun k v => !k.supports v
  have hindexes : (p.aggregateSkipped kinds).Nodup := by
    refine nodup_flatMap_aggregateCells hgenerators hvariants (fun a c hc => ?_) fun a => ?_
    · obtain ⟨k, -, rfl⟩ := List.mem_map.mp hc
      exact ⟨rfl, rfl⟩
    · have hmap := (hnames.sublist (List.filter_sublist.map _ :
        ((kinds.filter (!·.supports a.2.id)).map (·.name)).Sublist _)).map
        (f := fun name => CellId.mk name a.1 a.2.id) fun _ _ heq => (CellId.mk.inj heq).1
      rwa [List.map_map] at hmap
  rw [plan_skipped, List.nodup_append]
  refine ⟨hkinds, hindexes, fun c hc c' hc' heq => ?_⟩
  obtain ⟨k, -, hc⟩ := List.mem_flatMap.mp hc
  rw [kindSkipped_eq] at hc
  obtain ⟨g, hg, v, -, -, rfl⟩ := mem_kindCells.mp hc
  obtain ⟨a, ha, hc'⟩ := List.mem_flatMap.mp hc'
  obtain ⟨k', -, rfl⟩ := List.mem_map.mp hc'
  have hgenerator : g = .tsIndex :=
    (CellId.mk.inj heq).2.1.trans (mem_aggregateCells.mp (Prod.eta a ▸ ha)).2.1
  have hperKind := (mem_perKind.mp hg).2
  rw [hgenerator] at hperKind
  cases hperKind

end Nodup

/-- Cells that can be told apart are different in a plan. -/
theorem nodup_cells_plan (h : p.CellsApart kinds) : (p.plan kinds).cells.Nodup := by
  obtain ⟨hnames, hgenerators, hvariants, hindex⟩ := h
  have houtcomes : ((p.plan kinds).outcomes.map (·.cell)).Nodup := by
    rw [plan_outcomes, map_cell_rejectSharedPaths]
    exact nodup_cells_rendered hnames hgenerators hvariants
  rw [Plan.cells, List.nodup_append, List.nodup_append]
  refine ⟨houtcomes, ⟨nodup_cells_excluded hnames hgenerators hvariants,
    nodup_skipped hnames hgenerators hvariants, fun c hc c' hc' heq => ?_⟩,
    fun c hc c' hc' heq => ?_⟩
  · obtain ⟨e, he, rfl⟩ := List.mem_map.mp hc
    obtain ⟨-, v, -, k, hk, hsupports, cause, -, rfl⟩ := mem_plan_excluded.mp he
    obtain ⟨k', hk', g, -, v', -, hundeclared, rfl⟩ := mem_plan_skipped.mp hc'
    obtain ⟨hname, -, hvariant⟩ := CellId.mk.inj heq
    obtain rfl := List.inj_on_of_nodup_map hnames hk hk' hname
    rw [hvariant, hundeclared] at hsupports
    cases hsupports
  · rcases mem_cells_outcomes.mp hc with
        ⟨k, hk, g, hg, v, -, hsupports, rfl⟩ | ⟨htsIndex, v, -, rfl⟩ <;>
      rcases List.mem_append.mp hc' with hc' | hc'
    · -- A kind is left out of an index only.
      obtain ⟨e, he, rfl⟩ := List.mem_map.mp hc'
      obtain ⟨-, v', -, k', -, -, cause, -, rfl⟩ := mem_plan_excluded.mp he
      have hperKind := (mem_perKind.mp hg).2
      rw [(CellId.mk.inj heq).2.1] at hperKind
      cases hperKind
    -- The kind would both declare the variant and not declare it.
    · obtain ⟨k', hk', g', -, v', -, hundeclared, rfl⟩ := mem_plan_skipped.mp hc'
      obtain ⟨hname, -, hvariant⟩ := CellId.mk.inj heq
      obtain rfl := List.inj_on_of_nodup_map hnames hk hk' hname
      rw [hvariant, hundeclared] at hsupports
      cases hsupports
    · obtain ⟨e, he, rfl⟩ := List.mem_map.mp hc'
      obtain ⟨-, v', -, k', hk', -, cause, -, rfl⟩ := mem_plan_excluded.mp he
      exact hindex htsIndex k' hk' (CellId.mk.inj heq).1.symm
    · obtain ⟨k', hk', g', -, v', -, -, rfl⟩ := mem_plan_skipped.mp hc'
      exact hindex htsIndex k' hk' (CellId.mk.inj heq).1.symm

/-- A kind has no name that stands for all kinds, if it can be a member of an index. -/
private theorem name_ne_of_memberOf {members : List Kind} {g : Generator} {k : Kind}
    {r : ResolvedKind} (h : memberOf members g k = .ok r) : k.name ≠ CellId.allKinds := by
  have hvalid := (Kind.resolve_run (memberOf_eq_ok_iff.mp h).2).1
  intro heq
  have hpascal := (Kind.validate_names hvalid).pascal
  rw [heq] at hpascal
  revert hpascal
  decide

variable (hnames : (kinds.map (·.name)).Nodup) (hgenerators : p.generators.Nodup)
  (hvariants : (p.variants.map (·.id)).Nodup)
include hnames hgenerators hvariants

/-- The cells of a plan are different if and only if they can be told apart. -/
private theorem nodup_cells_plan_iff : (p.plan kinds).cells.Nodup ↔
    (.tsIndex ∈ p.generators → ∀ k ∈ kinds, k.name ≠ CellId.allKinds) := by
  refine ⟨fun h hindex k hk hname => ?_,
    fun h => nodup_cells_plan ⟨hnames, hgenerators, hvariants, h⟩⟩
  obtain ⟨v, hv⟩ := List.exists_mem_of_ne_nil _ p.effectiveVariants_ne_nil
  rw [Plan.cells, List.nodup_append] at h
  have houtcome : ⟨k.name, .tsIndex, v.id⟩ ∈ (p.plan kinds).outcomes.map (·.cell) :=
    mem_cells_outcomes.mpr (.inr ⟨hindex, v, hv, by rw [hname]⟩)
  -- Besides the cell of the index itself there is one of a kind that is left out of it or skipped.
  refine h.2.2 _ houtcome _ (List.mem_append.mpr ?_) rfl
  cases hsupports : k.supports v.id with
  | true =>
    cases hmember : memberOf (kinds.filter (·.supports v.id)) .tsIndex k with
    | ok r => exact absurd hname (name_ne_of_memberOf hmember)
    | error cause =>
      refine .inl (List.mem_map.mpr ⟨⟨⟨k.name, .tsIndex, v.id⟩, .schema cause⟩, ?_, rfl⟩)
      exact mem_plan_excluded.mpr ⟨hindex, v, hv, k, hk, hsupports, cause, hmember, rfl⟩
  | false =>
    exact .inr (mem_plan_skipped.mpr ⟨k, hk, .tsIndex, hindex, v, hv, hsupports, rfl⟩)

/-- The report of a run of `p` over `kinds` has one outcome for each cell if and only if there is no
index, or no kind has the name under which it is reported. -/
theorem oneOutcome_run_iff {w : Writer} {σ : Type} [FileStore (StateM σ)] (s : σ) :
    ((p.run w kinds : StateM σ Report).run s).1.OneOutcome ↔
      (.tsIndex ∈ p.generators → ∀ k ∈ kinds, k.name ≠ CellId.allKinds) := by
  obtain ⟨results, hsettles, hreport⟩ := exists_results p kinds (p.plan kinds).outcomes s
  have houtcomes : ((p.plan kinds).outcomes.map (·.cell)).Nodup := by
    rw [plan_outcomes, map_cell_rejectSharedPaths]
    exact nodup_cells_rendered hnames hgenerators hvariants
  rw [run_eq_runInOrder, hreport, Report.OneOutcome.sorted_iff,
    ← nodup_cells_plan_iff hnames hgenerators hvariants]
  refine ⟨?_, Plan.oneOutcome_reportOf hsettles⟩
  exact Plan.nodup_cells_of_oneOutcome hsettles (fun o ho => result_ne_ok_nil ho) houtcomes
    (nodup_skipped hnames hgenerators hvariants)

end Pipeline

end KindSchema
