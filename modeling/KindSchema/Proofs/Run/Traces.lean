import KindSchema.Proofs.Run.CellIdentity

/-!
# Traces of cells

What a run changes in a tree of files, and for which cells.

* `keepsState_settle_changedOnly`: to settle an outcome changes a tree at the places of its files
  only, apart from directories that are made.
* `node?_mapM_settle`: what changes when outcomes are settled.
* `mapM_settle_filter`: outcomes without files leave nothing, as if they were not settled.
* `runInOrder_traces`: what changes is at the place of a file that is reported as written, or of one
  of a cell that fails in writing.
-/

namespace KindSchema

variable {w : Writer} {t : FileTree} {touched : Location → Prop}

/-! ### Single files -/

namespace Writer

variable {path : Path} {content : String} {file : GeneratedFile}

/-- A writer that is not for writing changes nothing. -/
private theorem keepsState_write_of_ne {holds : FileTree → Prop} (hmode : w.mode ≠ .write) :
    KeepsState holds (w.write file : StateM FileTree _) := by
  rw [write_eq, perform]
  cases hw : w.mode with
  | write => exact absurd hw hmode
  | verify =>
    refine .map _ (.bind (keepsState_readText _) fun existing => ?_)
    split <;> exact .pure _
  | dryRun => exact .map _ (.pure _)

/-- To put a file changes a tree at its location, and makes directories. -/
private theorem keepsState_put_changedOnly (h : touched (path.location t.base)) :
    KeepsState (t.ChangedOnly touched) (put path content : StateM FileTree _) := by
  intro s hs
  obtain ⟨made, hmade, hrun⟩ := exists_put_run path content s
  have hmade' : t.ChangedOnly touched made := hs.trans (hmade.mono fun _ => False.elim)
  obtain ⟨e, hrun⟩ | hrun := hrun
  · rw [hrun]
    exact hmade'
  · rw [hrun]
    refine hmade'.trans (FileTree.changedOnly_writeText ?_)
    rwa [hmade'.base_eq]

/-- To write a file changes a tree at its location, if at all. -/
private theorem keepsState_write_changedOnly (h : touched ((w.target file).location t.base)) :
    KeepsState (t.ChangedOnly touched) (w.write file : StateM FileTree _) := by
  by_cases hmode : w.mode = .write
  · rw [write_eq, perform, hmode]
    exact .map _ (keepsState_put_changedOnly h)
  · exact keepsState_write_of_ne hmode

end Writer

/-! ### Outcomes -/

/-- To settle `o` changes a tree at the locations of its files, if at all. -/
theorem keepsState_settle_changedOnly {o : Outcome}
    (h : ∀ f ∈ o.files, touched ((w.target f).location t.base)) :
    KeepsState (t.ChangedOnly touched) (o.settle w : StateM FileTree _) :=
  keepsState_settle fun f hf => Writer.keepsState_write_changedOnly (h f hf)

/-- What is changed at `l` when outcomes are settled is at the location of one of their files, or a
directory that is made where there was nothing. -/
theorem node?_mapM_settle {order : List Outcome} {l : Location}
    (hl : ((order.mapM (Outcome.settle w) : StateM FileTree _).run t).2.node? l ≠ t.node? l) :
    (t.node? l = none ∧
      ((order.mapM (Outcome.settle w) : StateM FileTree _).run t).2.node? l = some .directory) ∨
    ∃ o ∈ order, ∃ f ∈ o.files, (w.target f).location t.base = l := by
  let touched : Location → Prop := fun l =>
    ∃ o ∈ order, ∃ f ∈ o.files, (w.target f).location t.base = l
  have hkeeps : KeepsState (t.ChangedOnly touched)
      (order.mapM (Outcome.settle w) : StateM FileTree _) :=
    .mapM fun o ho => keepsState_settle_changedOnly fun f hf => ⟨o, ho, f, hf, rfl⟩
  by_cases htouched : touched l
  · exact .inr htouched
  · exact .inl (((hkeeps t (.refl _ _)).node l htouched).resolve_left hl)

section

variable {σ : Type} [FileStore (StateM σ)]

/-- There is nothing to be done for an outcome without files. -/
private theorem settle_run_snd_of_files_eq_nil {o : Outcome} (h : o.files = []) (s : σ) :
    ((o.settle w : StateM σ _).run s).2 = s := by
  obtain ⟨cell, error | files⟩ := o
  · rfl
  · obtain rfl : files = [] := h
    rfl

/-- The outcomes of `order` without files leave nothing, as if they were not settled. -/
theorem mapM_settle_filter (order : List Outcome) (s : σ) :
    ((order.mapM (Outcome.settle w) : StateM σ _).run s).2 =
      (((order.filter (!·.files.isEmpty)).mapM (Outcome.settle w) : StateM σ _).run s).2 := by
  induction order generalizing s with
  | nil => rfl
  | cons o order ih =>
    have hrun (rest : List Outcome) :
        (((o :: rest).mapM (Outcome.settle w) : StateM σ _).run s).2 =
          ((rest.mapM (Outcome.settle w) : StateM σ _).run
            ((o.settle w : StateM σ _).run s).2).2 := by
      rw [List.mapM_cons]
      rfl
    rw [hrun, List.filter_cons]
    split
    · rw [hrun, ih]
    · next hempty =>
      have hnil : o.files = [] := by simpa using hempty
      rw [settle_run_snd_of_files_eq_nil hnil, ih]

end

/-! ### Plans -/

namespace Plan

variable {plan : Plan} {order : List Outcome} {o : Outcome} {results : List CellResult}
  (hcells : plan.cells.Nodup) (horder : order.Perm plan.outcomes)
include hcells horder

/-- Where the cells of a plan are different, none that has an outcome is skipped. -/
private theorem cell_not_mem_skipped (ho : o ∈ order) :
    o.cell ∉ (plan.reportOf results).sorted.skipped := by
  intro hskipped
  rw [cells, List.nodup_append] at hcells
  refine hcells.2.2 _ (List.mem_map_of_mem (horder.mem_iff.mp ho)) _ ?_ rfl
  exact List.mem_append_right _ ((Report.skipped_sorted_perm _).mem_iff.mp hskipped)

/-- Where the cells of a plan are different, one that has files can fail in writing only. -/
private theorem exists_write_of_mem_failures
    (hsettles : List.Forall₂ (Outcome.Settles w) order results) (ho : o ∈ order)
    (hne : o.files ≠ []) {e : CellFailure} (he : e ∈ (plan.reportOf results).sorted.failures)
    (hcell : e.cell = o.cell) :
    ∃ cause, e.error = .write cause := by
  rw [cells, List.nodup_append] at hcells
  obtain ⟨houtcomes, -, hacross⟩ := hcells
  have hplan : o ∈ plan.outcomes := horder.mem_iff.mp ho
  obtain hexcluded | ⟨o', ho', hcell', herror | hwrite⟩ := exists_of_mem_failures hsettles he
  · refine absurd hcell.symm (hacross _ (List.mem_map_of_mem hplan) _ ?_)
    exact List.mem_append_left _ (List.mem_map_of_mem hexcluded)
  · -- The failure is of the same outcome, which has files and so no error.
    obtain rfl := List.inj_on_of_nodup_map houtcomes (horder.mem_iff.mp ho') hplan
      (hcell'.trans hcell)
    exact absurd (by rw [Outcome.files, herror]) hne
  · exact hwrite

end Plan

/-! ### Runs -/

/-- What a run leaves in `after` that takes the outcomes of its plan in `order` and starts with `t`,
and what it says of them in `report`. -/
structure Pipeline.Traces (p : Pipeline) (w : Writer) (kinds : List Kind) (order : List Outcome)
    (t after : FileTree) (report : Report) : Prop where
  /-- Only a writer that is for writing changes anything. -/
  unchanged : w.mode ≠ .write → after = t
  /-- What is changed is at the place of a file that is written, or of one of a cell that fails in
  writing. Otherwise only directories are made, where there was nothing. -/
  changed : ∀ l, after.node? l ≠ t.node? l →
    (t.node? l = none ∧ after.node? l = some .directory) ∨
    ∃ o ∈ order, ∃ f ∈ o.files, (w.target f).location t.base = l ∧
      (⟨o.cell, w.target f⟩ ∈ report.written ∨ ∃ cause, ⟨o.cell, .write cause⟩ ∈ report.failures)
  /-- The cells that have an error before anything is written might as well not be there. -/
  withoutFiles : after =
    (((order.filter (!·.files.isEmpty)).mapM (Outcome.settle w) : StateM FileTree _).run t).2
  /-- The failures of other kinds are those of kinds that are left out of an index, and those of
  such cells. -/
  failed : ∀ e ∈ report.failures, (∃ cause, e.error = .write cause) ∨
    e ∈ (p.plan kinds).excluded ∨ ∃ o ∈ order, o.cell = e.cell ∧ o.result = .error e.error
  /-- A cell that has files is not skipped, and fails in writing only. -/
  ofFiles : p.CellsApart kinds → ∀ o ∈ order, o.files ≠ [] → o.cell ∉ report.skipped ∧
    ∀ e ∈ report.failures, e.cell = o.cell → ∃ cause, e.error = .write cause

/-- A failed or skipped cell leaves no trace, in whatever `order` a run of `p` takes the outcomes of
its plan. -/
theorem runInOrder_traces {p : Pipeline} {kinds : List Kind} {order : List Outcome}
    (horder : order.Perm (p.plan kinds).outcomes) (w : Writer) (t : FileTree) :
    ∃ report after, (p.runInOrder w kinds order : StateM FileTree Report).run t = (report, after) ∧
      p.Traces w kinds order t after report := by
  have hrun : (p.runInOrder w kinds order : StateM FileTree Report).run t =
      (((p.plan kinds).reportOf
          ((order.mapM (Outcome.settle w) : StateM FileTree _).run t).1).sorted,
        ((order.mapM (Outcome.settle w) : StateM FileTree _).run t).2) := by
    rw [Pipeline.runInOrder_eq, StateT.run_map]
    rfl
  have hsettles := forall₂_mapM_run (fun o s => Pipeline.settles_settle (w := w) o s) order t
  refine ⟨_, _, hrun, ?_, fun l hl => ?_, mapM_settle_filter order t, fun e he => ?_,
    fun hapart o ho hne => ?_⟩
  · intro hmode
    have hkeeps : KeepsState (· = t) (order.mapM (Outcome.settle w) : StateM FileTree _) :=
      .mapM fun o _ => keepsState_settle fun f _ => Writer.keepsState_write_of_ne hmode
    exact hkeeps t rfl
  -- What has changed is at the location of a file, which is written or whose cell has failed.
  · obtain hmade | ⟨o, ho, f, hf, hlocation⟩ := node?_mapM_settle hl
    · exact .inl hmade
    · refine .inr ⟨o, ho, f, hf, hlocation, ?_⟩
      obtain hwritten | ⟨cause, hfailed⟩ := Plan.mem_written_or_failed hsettles ho hf
      · exact .inl ((Report.written_sorted_perm _).mem_iff.mpr hwritten)
      · refine .inr ⟨cause, (Report.failures_sorted_perm _).mem_iff.mpr ?_⟩
        exact List.mem_append_right _ hfailed
  · obtain hexcluded | ⟨o, ho, hcell, herror | hwrite⟩ := Plan.exists_of_mem_failures hsettles he
    · exact .inr (.inl hexcluded)
    · exact .inr (.inr ⟨o, ho, hcell, herror⟩)
    · exact .inl hwrite
  · have hcells := Pipeline.nodup_cells_plan hapart
    exact ⟨Plan.cell_not_mem_skipped hcells horder ho,
      fun e => Plan.exists_write_of_mem_failures hcells horder hsettles ho hne⟩

namespace Sample

/-- The small run over the small kind and one that is cyclic, with its cells taken backwards. -/
theorem traces_ring :
    (typeScript.plan [ring, folder]).outcomes.reverse.Perm
        (typeScript.plan [ring, folder]).outcomes ∧
      ∃ report after,
        (typeScript.runInOrder below [ring, folder]
            (typeScript.plan [ring, folder]).outcomes.reverse :
          StateM FileTree Report).run (.empty []) = (report, after) ∧
        typeScript.Traces below [ring, folder] (typeScript.plan [ring, folder]).outcomes.reverse
          (.empty []) after report :=
  ⟨List.reverse_perm _, runInOrder_traces (List.reverse_perm _) below (.empty [])⟩

end Sample

end KindSchema
