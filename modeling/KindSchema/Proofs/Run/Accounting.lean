import KindSchema.Proofs.Run.Isolation

/-!
# Every cell is accounted for

The report of a run says exactly one thing of each cell of a single kind: which files it has, why it
failed, or that it was skipped. This holds in every mode and over every file system.

* `Report.AccountsFor`: the three things that a report can say of a cell.
* `run_accounts`: a run says one of them of every cell, and nothing of any other.
-/

namespace KindSchema

/-! ### What a report says of a cell -/

namespace Report

/-- The written files of `c`. -/
def writtenOf (r : Report) (c : CellId) : List WrittenFile :=
  r.written.filter (·.cell == c)

/-- The failures of `c`. -/
def failuresOf (r : Report) (c : CellId) : List CellFailure :=
  r.failures.filter (·.cell == c)

/-- The cells that `r` says anything of. -/
def cells (r : Report) : List CellId :=
  r.written.map (·.cell) ++ r.failures.map (·.cell) ++ r.skipped

/-- That `r` accounts for the cell of `k`, `g` and `v`. The three cases exclude each other. -/
inductive AccountsFor (r : Report) (p : Pipeline) (w : Writer) (k : Kind) (g : Generator)
    (v : Variant) : Prop
  /-- The kind does not declare the variant. -/
  | skipped (undeclared : k.supports v.id = false)
      (once : r.skipped.count ⟨k.name, g, v.id⟩ = 1)
      (unwritten : r.writtenOf ⟨k.name, g, v.id⟩ = [])
      (unfailed : r.failuresOf ⟨k.name, g, v.id⟩ = [])
  /-- The cell has no files, or they could not all be written. -/
  | failed (declared : k.supports v.id = true)
      (unskipped : ⟨k.name, g, v.id⟩ ∉ r.skipped)
      (unwritten : r.writtenOf ⟨k.name, g, v.id⟩ = [])
      (once : (r.failuresOf ⟨k.name, g, v.id⟩).length = 1)
  /-- Every file of the cell has an entry. -/
  | written (declared : k.supports v.id = true)
      (unskipped : ⟨k.name, g, v.id⟩ ∉ r.skipped)
      (unfailed : r.failuresOf ⟨k.name, g, v.id⟩ = [])
      (files : List GeneratedFile) (generated : p.generate k g v = .ok files)
      (nonempty : files ≠ [])
      (each : ((r.writtenOf ⟨k.name, g, v.id⟩).map (·.path)).Perm (files.map w.target))

/-- That `r` accounts for all cells of single `kinds`, in order, and for no others. -/
structure Accounts (r : Report) (p : Pipeline) (w : Writer) (kinds : List Kind) : Prop where
  all : ∀ k ∈ kinds, ∀ g ∈ p.perKind, ∀ v ∈ p.effectiveVariants, r.AccountsFor p w k g v
  only : ∀ c ∈ r.cells, c.generator.isAggregate = false →
    ∃ k ∈ kinds, ∃ g ∈ p.perKind, ∃ v ∈ p.effectiveVariants, c = ⟨k.name, g, v.id⟩
  sorted : r.IsSorted

end Report

/-! ### The cells of a kind -/

namespace Pipeline

variable {p : Pipeline} {kinds : List Kind} {k : Kind} {g : Generator} {v : Variant}

/-- The cells of `k` in the variants that pass `test`. -/
def kindCells (p : Pipeline) (k : Kind) (test : VariantId → Bool) : List CellId :=
  p.perKind.flatMap fun g =>
    (p.effectiveVariants.filter (test ·.id)).map fun v => ⟨k.name, g, v.id⟩

theorem map_cell_kindOutcomes :
    (p.kindOutcomes kinds k).map (·.cell) = p.kindCells k k.supports := by
  rw [kindOutcomes, kindCells, List.map_flatMap]
  simp only [List.map_map]
  rfl

theorem kindSkipped_eq : p.kindSkipped k = p.kindCells k (!k.supports ·) :=
  rfl

theorem mem_kindCells {test : VariantId → Bool} {c : CellId} : c ∈ p.kindCells k test ↔
    ∃ g ∈ p.perKind, ∃ v ∈ p.effectiveVariants, test v.id = true ∧ c = ⟨k.name, g, v.id⟩ := by
  simp only [kindCells, List.mem_flatMap, List.mem_map, List.mem_filter, and_assoc, eq_comm]

/-- Cells of different `generators` and `variants` are different. -/
theorem nodup_flatMap_cells {generators : List Generator} {variants : List Variant} (name : String)
    (hgenerators : generators.Nodup) (hvariants : (variants.map (·.id)).Nodup) :
    (generators.flatMap fun g => variants.map fun v => CellId.mk name g v.id).Nodup := by
  rw [List.nodup_flatMap]
  constructor
  · intro g _
    have hmap := hvariants.map (f := CellId.mk name g) fun _ _ heq => (CellId.mk.inj heq).2.2
    rwa [List.map_map] at hmap
  · refine hgenerators.imp fun {g g'} hne c hc hc' => ?_
    obtain ⟨v, -, rfl⟩ := List.mem_map.mp hc
    obtain ⟨v', -, heq⟩ := List.mem_map.mp hc'
    exact hne (CellId.mk.inj heq).2.1.symm

/-- The variants that a run of `p` covers are different if those that are listed are. -/
theorem nodup_effectiveVariants (hvariants : (p.variants.map (·.id)).Nodup) :
    (p.effectiveVariants.map (·.id)).Nodup := by
  unfold effectiveVariants
  split
  · exact List.nodup_singleton _
  · exact hvariants

/-- No cell of `k` occurs twice. -/
theorem nodup_kindCells {test : VariantId → Bool} (hgenerators : p.generators.Nodup)
    (hvariants : (p.variants.map (·.id)).Nodup) : (p.kindCells k test).Nodup :=
  nodup_flatMap_cells k.name (hgenerators.filter _)
    ((nodup_effectiveVariants hvariants).sublist (List.filter_sublist.map _))

/-! ### The entries of a cell -/

/-- The outcome of a cell is found among those of its kind. -/
private theorem filter_cell_eq {α : Type} {cellOf : α → CellId} {c : CellId} {name : String}
    (hc : c.isOfKind name = true) (l : List α) : l.filter (cellOf · == c) =
      (l.filter fun a => (cellOf a).isOfKind name).filter (cellOf · == c) := by
  rw [List.filter_filter]
  refine List.filter_congr fun a _ => ?_
  cases ha : cellOf a == c with
  | false => rfl
  | true => rw [beq_iff_eq.mp ha, hc]; rfl

section Cell

variable (hnames : (kinds.map (·.name)).Nodup) (hk : k ∈ kinds)
  (hgenerators : p.generators.Nodup) (hvariants : (p.variants.map (·.id)).Nodup)
  (hg : g ∈ p.perKind) (hv : v ∈ p.effectiveVariants)
include hg

private theorem isOfKind_cell : CellId.isOfKind k.name ⟨k.name, g, v.id⟩ = true := by
  simp [CellId.isOfKind, (mem_perKind.mp hg).2]

include hnames hk

/-- A cell whose kind does not declare the variant has no outcome. -/
private theorem outcomes_undeclared (hundeclared : k.supports v.id = false) :
    (p.plan kinds).outcomes.filter (·.cell == ⟨k.name, g, v.id⟩) = [] := by
  rw [filter_cell_eq (isOfKind_cell hg), filter_plan_outcomes hnames hk, List.filter_eq_nil_iff]
  intro o ho heq
  have hcell := List.mem_map_of_mem (f := (·.cell)) ho
  rw [map_cell_rejectSharedPaths, map_cell_kindOutcomes, beq_iff_eq.mp heq] at hcell
  obtain ⟨_, -, v', -, hsupports, hv'⟩ := mem_kindCells.mp hcell
  rw [← (CellId.mk.inj hv').2.2, hundeclared] at hsupports
  cases hsupports

include hgenerators hvariants hv

/-- A cell whose kind declares the variant has one outcome. Its files are those of the kind. -/
private theorem exists_outcomes_eq_singleton (hdeclared : k.supports v.id = true) :
    ∃ o, (p.plan kinds).outcomes.filter (·.cell == ⟨k.name, g, v.id⟩) = [o] ∧
      ∀ files, o.result = .ok files → p.generate k g v = .ok files := by
  rw [filter_cell_eq (isOfKind_cell hg), filter_plan_outcomes hnames hk]
  have hcells : ((rejectSharedPaths (p.kindOutcomes kinds k)).map (·.cell)).Nodup := by
    rw [map_cell_rejectSharedPaths, map_cell_kindOutcomes]
    exact nodup_kindCells hgenerators hvariants
  have hrendered : p.outcomeOf kinds k g v ∈ p.kindOutcomes kinds k :=
    mem_kindOutcomes.mpr ⟨g, hg, v, hv, hdeclared, rfl⟩
  -- The second check keeps the cells, and these are different, so no other outcome has the cell.
  refine ⟨_, filter_eq_singleton hcells.of_map (List.mem_map_of_mem hrendered) ?_ ?_, ?_⟩
  · rw [Outcome.cell_rejectShared]
    exact beq_self_eq_true _
  · intro o ho heq
    refine List.inj_on_of_nodup_map hcells ho (List.mem_map_of_mem hrendered) ?_
    rw [Outcome.cell_rejectShared]
    exact beq_iff_eq.mp heq
  · intro files hfiles
    exact (outcomeOf_eq_ok_iff.mp (Outcome.rejectShared_eq_ok_iff.mp hfiles).1).2

omit hgenerators hvariants hv in
/-- A skipped cell is one of those of its kind. -/
private theorem count_plan_skipped : (p.plan kinds).skipped.count ⟨k.name, g, v.id⟩ =
    (p.kindCells k (!k.supports ·)).count ⟨k.name, g, v.id⟩ := by
  rw [← List.count_filter (isOfKind_cell (k := k) (v := v) hg), filter_plan_skipped hnames hk,
    kindSkipped_eq]

end Cell

end Pipeline

/-! ### The report of a run -/

/-- The results of `outcomes` have their cells. -/
theorem map_cell_of_settles {w : Writer} {outcomes : List Outcome} {results : List CellResult}
    (h : List.Forall₂ (Outcome.Settles w) outcomes results) :
    results.map (·.cell) = outcomes.map (·.cell) := by
  induction h with
  | nil => rfl
  | cons hsettles _ ih => rw [List.map_cons, List.map_cons, hsettles.1, ih]

namespace Plan

variable (plan : Plan) (results : List CellResult) (c : CellId)

/-- The written files of a cell are those of its results. -/
private theorem writtenOf_perm : ((plan.reportOf results).sorted.writtenOf c).Perm
    ((results.filter (·.cell == c)).flatMap CellResult.written) := by
  refine ((Report.written_sorted_perm _).filter _).trans (.of_eq ?_)
  exact filter_flatMap_eq (fun r e he => by rw [CellResult.cell_of_mem_written he]) results

/-- The failures of a cell of a kind are those of its results. -/
private theorem failuresOf_perm : ((plan.reportOf results).sorted.failuresOf c).Perm
    (plan.excluded.filter (·.cell == c) ++
      (results.filter (·.cell == c)).flatMap CellResult.failures) := by
  refine ((Report.failures_sorted_perm _).filter _).trans (.of_eq ?_)
  rw [reportOf, List.filter_append]
  exact congrArg _
    (filter_flatMap_eq (fun r e he => by rw [CellResult.cell_of_mem_failures he]) results)

/-- A report of `plan` speaks of the cells of the outcomes, of those that are left out of an index,
and of those that are skipped. -/
theorem mem_cells_reportOf {c : CellId} (hc : c ∈ (plan.reportOf results).sorted.cells) :
    c ∈ results.map (·.cell) ∨ c ∈ plan.excluded.map (·.cell) ∨ c ∈ plan.skipped := by
  rcases List.mem_append.mp hc with hc | hc
  · rcases List.mem_append.mp hc with hc | hc
    · obtain ⟨e, he, rfl⟩ := List.mem_map.mp hc
      obtain ⟨r, hr, hmem⟩ := List.mem_flatMap.mp ((Report.written_sorted_perm _).mem_iff.mp he)
      exact .inl (CellResult.cell_of_mem_written hmem ▸ List.mem_map_of_mem hr)
    · obtain ⟨e, he, rfl⟩ := List.mem_map.mp hc
      rcases List.mem_append.mp ((Report.failures_sorted_perm _).mem_iff.mp he) with he | he
      · exact .inr (.inl (List.mem_map_of_mem he))
      · obtain ⟨r, hr, hmem⟩ := List.mem_flatMap.mp he
        exact .inl (CellResult.cell_of_mem_failures hmem ▸ List.mem_map_of_mem hr)
  · exact .inr (.inr ((Report.skipped_sorted_perm _).mem_iff.mp hc))

end Plan

section Run

variable {p : Pipeline} {kinds : List Kind} {w : Writer} {results : List CellResult}

/-- A report says nothing of cells that the run does not have. -/
private theorem exists_of_mem_cells
    (hsettles : List.Forall₂ (Outcome.Settles w) (p.plan kinds).outcomes results) {c : CellId}
    (hc : c ∈ ((p.plan kinds).reportOf results).sorted.cells)
    (hperKind : c.generator.isAggregate = false) :
    ∃ k ∈ kinds, ∃ g ∈ p.perKind, ∃ v ∈ p.effectiveVariants, c = ⟨k.name, g, v.id⟩ := by
  rcases Plan.mem_cells_reportOf _ _ hc with hc | hc | hc
  · rw [map_cell_of_settles hsettles, Pipeline.mem_cells_outcomes] at hc
    obtain ⟨k, hk, g, hg, v, hv, -, rfl⟩ | ⟨-, v, -, rfl⟩ := hc
    · exact ⟨k, hk, g, hg, v, hv, rfl⟩
    · cases hperKind
  · obtain ⟨e, he, rfl⟩ := List.mem_map.mp hc
    have hkind : e.cell.isOfKind e.cell.kind = true := by simp [CellId.isOfKind, hperKind]
    exact absurd hkind (List.filter_eq_nil_iff.mp Pipeline.filter_plan_excluded e he)
  · obtain ⟨k, hk, g, hg, v, hv, -, rfl⟩ := Pipeline.mem_plan_skipped.mp hc
    exact ⟨k, hk, g, Pipeline.mem_perKind.mpr ⟨hg, hperKind⟩, v, hv, rfl⟩

variable {k : Kind} {g : Generator} {v : Variant}

/-- The results of a cell are those of its outcomes. -/
private theorem settles_filter_cell {outcomes : List Outcome}
    (hsettles : List.Forall₂ (Outcome.Settles w) outcomes results) (c : CellId) :
    List.Forall₂ (Outcome.Settles w) (outcomes.filter (·.cell == c))
      (results.filter (·.cell == c)) := by
  refine List.rel_filter (fun {o r} hsettled => ?_) hsettles
  dsimp only
  rw [hsettled.1]

/-- The failures of a cell of a single kind are those of its results, as no index leaves it out. -/
private theorem failuresOf_perm_of_mem_perKind (kinds : List Kind) (results : List CellResult)
    (k : Kind) (v : Variant) (hg : g ∈ p.perKind) :
    (((p.plan kinds).reportOf results).sorted.failuresOf ⟨k.name, g, v.id⟩).Perm
      ((results.filter (·.cell == ⟨k.name, g, v.id⟩)).flatMap CellResult.failures) := by
  have hperm := (p.plan kinds).failuresOf_perm results ⟨k.name, g, v.id⟩
  rwa [Pipeline.filter_cell_eq (Pipeline.isOfKind_cell hg), Pipeline.filter_plan_excluded,
    List.filter_nil, List.nil_append] at hperm

section Cell

variable (hsettles : List.Forall₂ (Outcome.Settles w) (p.plan kinds).outcomes results)
  (hnames : (kinds.map (·.name)).Nodup) (hgenerators : p.generators.Nodup)
  (hvariants : (p.variants.map (·.id)).Nodup) (hk : k ∈ kinds) (hg : g ∈ p.perKind)
  (hv : v ∈ p.effectiveVariants)
include hnames hk hg

/-- How often a cell of a single kind is reported as skipped. -/
private theorem count_skipped_reportOf :
    ((p.plan kinds).reportOf results).sorted.skipped.count ⟨k.name, g, v.id⟩ =
      (p.kindCells k (!k.supports ·)).count ⟨k.name, g, v.id⟩ :=
  ((Report.skipped_sorted_perm _).count_eq _).trans (Pipeline.count_plan_skipped hnames hk hg)

/-- A cell whose kind declares the variant is not skipped. -/
private theorem not_mem_skipped_reportOf (hdeclared : k.supports v.id = true) :
    ⟨k.name, g, v.id⟩ ∉ ((p.plan kinds).reportOf results).sorted.skipped := by
  rw [← List.count_eq_zero, count_skipped_reportOf hnames hk hg, List.count_eq_zero]
  intro hc
  obtain ⟨_, -, v', -, hundeclared, heq⟩ := Pipeline.mem_kindCells.mp hc
  rw [← (CellId.mk.inj heq).2.2, hdeclared] at hundeclared
  cases hundeclared

include hsettles hgenerators hvariants hv

/-- A cell whose kind does not declare the variant is skipped, and nothing else is said of it. -/
private theorem accountsFor_undeclared (hundeclared : k.supports v.id = false) :
    ((p.plan kinds).reportOf results).sorted.AccountsFor p w k g v := by
  have hown := settles_filter_cell hsettles ⟨k.name, g, v.id⟩
  rw [Pipeline.outcomes_undeclared hnames hk hg hundeclared] at hown
  have hresults := List.forall₂_nil_left_iff.mp hown
  have hwritten := (p.plan kinds).writtenOf_perm results ⟨k.name, g, v.id⟩
  have hfailures := failuresOf_perm_of_mem_perKind kinds results k v hg
  rw [hresults] at hwritten hfailures
  refine .skipped hundeclared ?_ hwritten.eq_nil hfailures.eq_nil
  rw [count_skipped_reportOf hnames hk hg]
  exact List.count_eq_one_of_mem (Pipeline.nodup_kindCells hgenerators hvariants)
    (Pipeline.mem_kindCells.mpr ⟨g, hg, v, hv, by rw [hundeclared]; rfl, rfl⟩)

/-- A cell whose kind declares the variant has one outcome, which has failed or is written. -/
private theorem accountsFor_declared (hdeclared : k.supports v.id = true) :
    ((p.plan kinds).reportOf results).sorted.AccountsFor p w k g v := by
  have hunskipped : ⟨k.name, g, v.id⟩ ∉ ((p.plan kinds).reportOf results).sorted.skipped :=
    not_mem_skipped_reportOf hnames hk hg hdeclared
  obtain ⟨o, houtcome, hfiles⟩ :=
    Pipeline.exists_outcomes_eq_singleton hnames hk hgenerators hvariants hg hv hdeclared
  have hown := settles_filter_cell hsettles ⟨k.name, g, v.id⟩
  rw [houtcome] at hown
  obtain ⟨r, rest, ⟨-, hresult⟩, hrest, hr⟩ := List.forall₂_cons_left_iff.mp hown
  have hwritten := (p.plan kinds).writtenOf_perm results ⟨k.name, g, v.id⟩
  have hfailures := failuresOf_perm_of_mem_perKind kinds results k v hg
  rw [hr, List.forall₂_nil_left_iff.mp hrest, List.flatMap_singleton] at hwritten hfailures
  -- A cell may fail before anything is written, or in writing.
  have hfailed {e : CellError} (he : r.result = .error e) :
      ((p.plan kinds).reportOf results).sorted.AccountsFor p w k g v := by
    rw [CellResult.written, he] at hwritten
    rw [CellResult.failures, he] at hfailures
    exact .failed hdeclared hunskipped hwritten.eq_nil hfailures.length_eq
  cases ho : o.result with
  | error e =>
    rw [ho] at hresult
    exact hfailed hresult
  | ok files =>
    rw [ho] at hresult
    obtain hok | ⟨e, he⟩ := hresult
    · have hgenerated := hfiles files ho
      have hnonempty : files ≠ [] :=
        Pipeline.generate_ne_nil (Pipeline.mem_perKind.mp hg).2 hgenerated
      rw [CellResult.written, hok] at hwritten
      rw [CellResult.failures, hok] at hfailures
      refine .written hdeclared hunskipped hfailures.eq_nil files hgenerated hnonempty ?_
      have hpaths := hwritten.map (·.path)
      rwa [List.map_map, List.map_map] at hpaths
    · exact hfailed he

/-- A report says one thing of a cell that the run has. -/
private theorem accountsFor_of_settles :
    ((p.plan kinds).reportOf results).sorted.AccountsFor p w k g v := by
  cases hsupports : k.supports v.id with
  | false => exact accountsFor_undeclared hsettles hnames hgenerators hvariants hk hg hv hsupports
  | true => exact accountsFor_declared hsettles hnames hgenerators hvariants hk hg hv hsupports

end Cell

end Run

/-- Every cell of a single kind is accounted for exactly once in the report of a run of `p` over
`kinds`, whatever the mode of `w` and the file system are. -/
theorem run_accounts {p : Pipeline} {kinds : List Kind} (hnames : (kinds.map (·.name)).Nodup)
    (hgenerators : p.generators.Nodup) (hvariants : (p.variants.map (·.id)).Nodup) (w : Writer)
    {σ : Type} [FileStore (StateM σ)] (s : σ) :
    ((p.run w kinds : StateM σ Report).run s).1.Accounts p w kinds := by
  obtain ⟨results, hsettles, hreport⟩ := Pipeline.exists_results p kinds (p.plan kinds).outcomes s
  rw [Pipeline.run_eq_runInOrder, hreport]
  exact {
    all := fun k hk g hg v hv =>
      accountsFor_of_settles hsettles hnames hgenerators hvariants hk hg hv
    only := fun c hc hperKind => exists_of_mem_cells hsettles hc hperKind
    sorted := Report.sorted_isSorted _ }

namespace Sample

/-- Each cell of the small kind is accounted for in a run over an empty directory. -/
theorem accounts_folder : ([folder].map (·.name)).Nodup ∧ typeScript.generators.Nodup ∧
    (typeScript.variants.map (·.id)).Nodup ∧
    ((typeScript.run { root := ⟨"out"⟩ } [folder] :
        StateM FileTree Report).run (.empty [])).1.Accounts
      typeScript { root := ⟨"out"⟩ } [folder] :=
  ⟨by decide, by decide, by decide, run_accounts (by decide) (by decide) (by decide) _ _⟩

end Sample

end KindSchema
