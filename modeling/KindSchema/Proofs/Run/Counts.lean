import Mathlib.Data.Finset.Card
import KindSchema.Proofs.Run.CellIdentity

/-!
# How many cells a report tells of

A report has an entry for each written file, and one for each failure. It tells of fewer cells if a
cell has several files.

* `Generator.fileCount`: how many files a generator makes of a kind.
* `Pipeline.length_written_run`: the written files of a run, counted by their cells.
* `Report.Sums`: what the lengths of the parts of a report say of the numbers of its cells.
-/

namespace KindSchema

/-- How many files `g` makes in a cell. -/
def Generator.fileCount (g : Generator) : Nat :=
  if g = .goSectionTypes then 4 else 1

private theorem Generator.length_fileNames {g : Generator} (hg : g.isAggregate = false)
    (machineName : String) : (g.fileNames machineName).length = g.fileCount := by
  rw [fileNames, List.length_map]
  cases g with
  | tsIndex => cases hg
  | _ => rfl

private theorem Generator.fileCount_ne_zero (g : Generator) : g.fileCount ≠ 0 := by
  cases g <;> decide

/-- The cells of the written files `entries`. -/
def cellsOf (entries : List WrittenFile) : Finset CellId :=
  (entries.map (·.cell)).toFinset

theorem mem_cellsOf {entries : List WrittenFile} {c : CellId} :
    c ∈ cellsOf entries ↔ ∃ e ∈ entries, e.cell = c := by
  rw [cellsOf, List.mem_toFinset, List.mem_map]

theorem cellsOf_eq_of_perm {entries entries' : List WrittenFile} (h : entries.Perm entries') :
    cellsOf entries = cellsOf entries' :=
  List.toFinset_eq_of_perm _ _ (h.map _)

/-- That `r` has as many files as the generator of its cell makes, if it has any. -/
def CellResult.IsWhole (r : CellResult) : Prop :=
  ∀ paths, r.result = .ok paths → paths.length = r.cell.generator.fileCount

private theorem CellResult.map_cell_written {r : CellResult} {paths : List Path}
    (h : r.result = .ok paths) :
    r.written.map (·.cell) = List.replicate paths.length r.cell := by
  rw [written, h, List.map_map]
  exact List.map_const'

/-- Of different cells that are whole, those with several files have four, and the others one. -/
private theorem length_written_eq {results : List CellResult}
    (hcells : (results.map (·.cell)).Nodup) (hwhole : ∀ r ∈ results, r.IsWhole) :
    (results.flatMap CellResult.written).length =
      (cellsOf (results.flatMap CellResult.written)).card +
        3 * ((cellsOf (results.flatMap CellResult.written)).filter
          (·.generator = .goSectionTypes)).card := by
  induction results with
  | nil => rfl
  | cons r results ih =>
    obtain ⟨hfresh, hcells⟩ := List.nodup_cons.mp hcells
    obtain ⟨hr, hresults⟩ := List.forall_mem_cons.mp hwhole
    have hrest := ih hcells hresults
    cases hresult : r.result with
    | error e =>
      have hwritten : r.written = [] := by rw [CellResult.written, hresult]
      rwa [List.flatMap_cons, hwritten, List.nil_append]
    | ok paths =>
      have hnew : r.cell ∉ cellsOf (results.flatMap CellResult.written) := by
        rw [mem_cellsOf]
        rintro ⟨e, he, heq⟩
        obtain ⟨r', hr', he⟩ := List.mem_flatMap.mp he
        rw [CellResult.cell_of_mem_written he] at heq
        exact hfresh (List.mem_map.mpr ⟨r', hr', heq⟩)
      have hcount : paths.length = r.cell.generator.fileCount := hr paths hresult
      have hlength : r.written.length = r.cell.generator.fileCount := by
        rw [CellResult.written, hresult, List.length_map, hcount]
      have hinsert : cellsOf ((r :: results).flatMap CellResult.written) =
          insert r.cell (cellsOf (results.flatMap CellResult.written)) := by
        rw [List.flatMap_cons, cellsOf, List.map_append, List.toFinset_append,
          CellResult.map_cell_written hresult, hcount,
          List.toFinset_replicate_of_ne_zero (Generator.fileCount_ne_zero _)]
        rfl
      rw [hinsert, Finset.card_insert_of_notMem hnew, Finset.filter_insert, List.flatMap_cons,
        List.length_append, hrest, hlength, Generator.fileCount]
      split
      · rw [Finset.card_insert_of_notMem fun h => hnew (Finset.mem_of_mem_filter _ h)]
        omega
      · omega

/-! ### Runs -/

namespace Pipeline

variable {p : Pipeline} {kinds : List Kind}

/-- The files of an outcome are as many as the generator of its cell makes. -/
private theorem length_files_of_mem_plan {o : Outcome} (ho : o ∈ (p.plan kinds).outcomes)
    {files : List GeneratedFile} (h : o.result = .ok files) :
    files.length = o.cell.generator.fileCount := by
  rw [plan_outcomes] at ho
  obtain ⟨o', ho', rfl⟩ := List.mem_map.mp ho
  have hresult := (Outcome.rejectShared_eq_ok_iff.mp h).1
  rw [Outcome.cell_rejectShared]
  -- The check of paths takes all files of a cell or none, so the rendered ones are counted.
  rcases List.mem_append.mp ho' with ho' | ho'
  · obtain ⟨k, -, ho'⟩ := List.mem_flatMap.mp ho'
    obtain ⟨g, hg, v, -, -, rfl⟩ := mem_kindOutcomes.mp ho'
    have hperKind := (mem_perKind.mp hg).2
    obtain ⟨-, -, hpaths⟩ := generate_files hperKind (outcomeOf_eq_ok_iff.mp hresult).2
    have hlength := congrArg List.length hpaths
    rw [List.length_map, List.length_map, Generator.length_fileNames hperKind] at hlength
    exact hlength
  · obtain ⟨v, -, -, rfl⟩ := mem_aggregateOutcomes.mp ho'
    obtain ⟨content, -, rfl⟩ := aggregateOutcomeOf_eq_ok_iff.mp hresult
    rfl

/-- The report of a run is that of the results of its plan. -/
theorem run_eq_reportOf {w : Writer} {σ : Type} [FileStore (StateM σ)] (s : σ) :
    ((p.run w kinds : StateM σ Report).run s).1 = ((p.plan kinds).reportOf
      (((p.plan kinds).outcomes.mapM (Outcome.settle w) : StateM σ _).run s).1).sorted := by
  rw [run_eq_runInOrder, runInOrder_eq, StateT.run_map]
  rfl

/-- The written files of a run of `p` are as many as its cells with a file, and three more for each
cell of section types. -/
theorem length_written_run (hnames : (kinds.map (·.name)).Nodup) (hgenerators : p.generators.Nodup)
    (hvariants : (p.variants.map (·.id)).Nodup) (w : Writer) {σ : Type} [FileStore (StateM σ)]
    (s : σ) :
    let written := ((p.run w kinds : StateM σ Report).run s).1.written
    written.length = (cellsOf written).card +
      3 * ((cellsOf written).filter (·.generator = .goSectionTypes)).card := by
  obtain ⟨results, hsettles, hreport⟩ := exists_results p kinds (p.plan kinds).outcomes s
  have hcells : (results.map (·.cell)).Nodup := by
    rw [map_cell_of_settles hsettles, plan_outcomes, map_cell_rejectSharedPaths]
    exact nodup_cells_rendered hnames hgenerators hvariants
  have hwhole : ∀ r ∈ results, r.IsWhole := by
    intro r hr paths hpaths
    obtain ⟨o, ho, hcell, hresult⟩ := exists_of_mem_right hsettles hr
    rw [hcell]
    split at hresult
    · cases hresult.symm.trans hpaths
    · next files hfiles =>
      obtain hall | ⟨e, he⟩ := hresult
      · rw [← length_files_of_mem_plan ho hfiles, Except.ok.inj (hpaths.symm.trans hall),
          List.length_map]
      · cases he.symm.trans hpaths
  have hperm : ((p.plan kinds).reportOf results).sorted.written.Perm
      (results.flatMap CellResult.written) := Report.written_sorted_perm _
  rw [run_eq_runInOrder, hreport]
  dsimp only
  rw [hperm.length_eq, cellsOf_eq_of_perm hperm]
  exact length_written_eq hcells hwhole

end Pipeline

/-! ### Sums -/

namespace Report

/-- The cells of which a file is written in `r`. -/
def writtenCells (r : Report) : Finset CellId :=
  cellsOf r.written

/-- The cells that failed in `r`. -/
def failedCells (r : Report) : Finset CellId :=
  (r.failures.map (·.cell)).toFinset

/-- The cells of which several files are written in `r`. -/
def sectionCells (r : Report) : Finset CellId :=
  r.writtenCells.filter (·.generator = .goSectionTypes)

/-- What `failed` and `total` say of the cells that failed, and of all that were attempted. -/
structure Sums (r : Report) (failed total : Nat) : Prop where
  failed_eq : failed = r.failures.length
  total_eq : total = failed + (r.writtenCells.card + 3 * r.sectionCells.card)
  /-- The first is the number of cells that failed if and only if none fails twice. -/
  failed_eq_card_iff : failed = r.failedCells.card ↔ (r.failures.map (·.cell)).Nodup
  /-- The second is the number of cells with a file or a failure if and only if moreover none has
  both, and none has several files. -/
  total_eq_card_iff : total = (r.writtenCells ∪ r.failedCells).card ↔
    (r.failures.map (·.cell)).Nodup ∧ Disjoint r.writtenCells r.failedCells ∧ r.sectionCells = ∅

/-- The lengths of the parts of `r` are such numbers. -/
theorem sums_of_length_written {r : Report}
    (h : r.written.length = r.writtenCells.card + 3 * r.sectionCells.card) :
    r.Sums r.failures.length (r.failures.length + r.written.length) := by
  have hnodup : r.failures.length = r.failedCells.card ↔ (r.failures.map (·.cell)).Nodup := by
    rw [← List.length_map (·.cell), eq_comm, ← Multiset.coe_nodup]
    exact Multiset.toFinset_card_eq_card_iff_nodup
  have hle : r.failedCells.card ≤ r.failures.length := by
    rw [← List.length_map (·.cell)]
    exact List.toFinset_card_le _
  refine ⟨rfl, by rw [h], hnodup, ?_⟩
  have hunion := Finset.card_union_add_card_inter r.writtenCells r.failedCells
  rw [← hnodup, Finset.disjoint_iff_inter_eq_empty, ← Finset.card_eq_zero, ← Finset.card_eq_zero]
  omega

end Report

end KindSchema
