import Mathlib.Data.List.Forall2
import Mathlib.Order.Defs.LinearOrder
import KindSchema.Proofs.Kind.Validation
import KindSchema.Run.Pipeline

/-!
# What a run reports

A run settles the outcomes of its plan one after the other: it writes the files of a cell, or finds
out that there are none. The report is made of the results.

* `Report.sorted_isSorted`: the parts of a report are in the order of their cells.
* `filter_mergeSort_isLE`: sorting the parts of a report keeps the order of what compares equal.
* `Pipeline.runInOrder_eq`: a run is the settling of its outcomes, followed by the recording of the
  results, whatever the file store.
* `Pipeline.exists_results`: over any file system with a state, the results are what the outcomes
  allow (`Outcome.Settles`).
* `Pipeline.run_dryRun`: a dry run touches nothing, and its results are known.
-/

namespace KindSchema

/-! ### Actions with a state -/

/-- Of the actions `action` and `next` the second runs on what the first gives and leaves. -/
theorem run_bind_eq {σ α β : Type} (action : StateM σ α) (next : α → StateM σ β) (s : σ) :
    (action >>= next).run s = (next (action.run s).1).run (action.run s).2 :=
  rfl

/-- What `R` says of every step of a traversal, it says of all its results. -/
theorem forall₂_mapM_run {σ α β : Type} {f : α → StateM σ β} {R : α → β → Prop}
    (h : ∀ a s, R a ((f a).run s).1) (l : List α) (s : σ) :
    List.Forall₂ R l ((l.mapM f).run s).1 := by
  induction l generalizing s with
  | nil => exact .nil
  | cons a l ih =>
    rw [List.mapM_cons]
    exact .cons (h a s) (ih ((f a).run s).2)

/-! ### Lists -/

/-- Where the test `keep` of the elements that come of one is the test `test` of the one, it may be
made first. -/
theorem filter_flatMap_eq {α β : Type} {f : α → List β} {keep : β → Bool} {test : α → Bool}
    (h : ∀ a, ∀ b ∈ f a, keep b = test a) (l : List α) :
    (l.flatMap f).filter keep = (l.filter test).flatMap f := by
  induction l with
  | nil => rfl
  | cons a l ih =>
    rw [List.flatMap_cons, List.filter_append, ih]
    cases htest : test a with
    | false =>
      have hnone : (f a).filter keep = [] :=
        List.filter_eq_nil_iff.mpr fun b hb => by rw [h a b hb, htest]; exact Bool.false_ne_true
      rw [hnone, List.filter_cons_of_neg (Bool.eq_false_iff.mp htest), List.nil_append]
    | true =>
      have hall : (f a).filter keep = f a :=
        List.filter_eq_self.mpr fun b hb => by rw [h a b hb, htest]
      rw [hall, List.filter_cons_of_pos htest, List.flatMap_cons]

/-! ### Orders -/

section Sorting

variable {α : Type} (comparison : α → α → Ordering) [Std.TransCmp comparison]

/-- Of two elements one comes first, or they are equal. -/
private theorem isLE_total (a b : α) : ((comparison a b).isLE || (comparison b a).isLE) = true := by
  have hswap : comparison b a = (comparison a b).swap := Std.OrientedCmp.eq_swap
  rw [hswap]
  cases comparison a b <;> rfl

/-- Sorting by a comparison puts a list in the order of the comparison. -/
theorem pairwise_mergeSort_isLE (l : List α) :
    (l.mergeSort fun a b => (comparison a b).isLE).Pairwise fun a b => (comparison a b).isLE :=
  List.pairwise_mergeSort (fun _ _ _ => Std.TransCmp.isLE_trans) (isLE_total comparison) l

/-- A list is cut in one way only in elements that fail a test and elements that pass it. -/
private theorem eq_of_append_eq_append {test : α → Bool} {xs ys xs' ys' : List α}
    (h : xs ++ ys = xs' ++ ys') (hxs : ∀ b ∈ xs, test b = false) (hys : ∀ b ∈ ys, test b = true)
    (hxs' : ∀ b ∈ xs', test b = false) (hys' : ∀ b ∈ ys', test b = true) : xs = xs' ∧ ys = ys' := by
  have hpass := congrArg (List.filter test) h
  simp only [List.filter_append] at hpass
  rw [List.filter_eq_nil_iff.mpr (by simpa using hxs), List.filter_eq_self.mpr hys,
    List.filter_eq_nil_iff.mpr (by simpa using hxs'), List.filter_eq_self.mpr hys'] at hpass
  obtain rfl : ys = ys' := hpass
  exact ⟨List.append_cancel_right h, rfl⟩

/-- A first element is sorted in before all that is not less than it. -/
private theorem exists_mergeSort_cons (a : α) (l : List α) : ∃ before after,
    (a :: l).mergeSort (fun a b => (comparison a b).isLE) = before ++ a :: after ∧
      l.mergeSort (fun a b => (comparison a b).isLE) = before ++ after ∧
      (∀ b ∈ before, (comparison a b).isLE = false) ∧
      ∀ b ∈ after, (comparison a b).isLE = true := by
  obtain ⟨before, after, hcons, hl, hbefore⟩ := List.mergeSort_cons
    (fun _ _ _ => Std.TransCmp.isLE_trans) (isLE_total comparison) a l
  have hsorted := pairwise_mergeSort_isLE comparison (a :: l)
  rw [hcons, List.pairwise_append, List.pairwise_cons] at hsorted
  exact ⟨before, after, hcons, hl, by simpa using hbefore, hsorted.2.1.1⟩

/-- Sorting keeps the order of what compares equal, so it does not matter whether elements are left
out before or after it. -/
theorem filter_mergeSort_isLE (keep : α → Bool) (l : List α) :
    (l.mergeSort fun a b => (comparison a b).isLE).filter keep =
      (l.filter keep).mergeSort fun a b => (comparison a b).isLE := by
  induction l with
  | nil => rw [List.mergeSort_nil, List.filter_nil, List.mergeSort_nil]
  | cons a l ih =>
    obtain ⟨before, after, hcons, hl, hbefore, hafter⟩ := exists_mergeSort_cons comparison a l
    rw [hl, List.filter_append] at ih
    rw [hcons, List.filter_append]
    cases hkeep : keep a with
    | false =>
      have hdrop : ¬ keep a = true := Bool.eq_false_iff.mp hkeep
      rw [List.filter_cons_of_neg hdrop, List.filter_cons_of_neg hdrop, ih]
    | true =>
      obtain ⟨before', after', hcons', hl', hbefore', hafter'⟩ :=
        exists_mergeSort_cons comparison a (l.filter keep)
      -- `a` cuts both sorted lists between what is less than it and what is not.
      have hcut := eq_of_append_eq_append (ih.trans hl')
        (fun b hb => hbefore b (List.mem_of_mem_filter hb))
        (fun b hb => hafter b (List.mem_of_mem_filter hb)) hbefore' hafter'
      rw [List.filter_cons_of_pos hkeep, List.filter_cons_of_pos hkeep, hcons', hcut.1, hcut.2]

end Sorting

/-- Cells are ordered by kind, generator and variant. -/
instance : Std.TransOrd CellId :=
  inferInstanceAs (Std.TransCmp (compareLex (compareOn CellId.kind)
    (compareLex (compareOn fun c : CellId => c.generator.rank)
      (compareOn fun c : CellId => c.variant.rank))))

namespace Path

/-- The name of a component; empty unless it is an entry. -/
def Component.name : Component → String
  | .entry name => name
  | _ => ""

/-- Components compare by sort, then by name. -/
theorem Component.compare_eq :
    (Ord.compare : Component → Component → Ordering) =
      compareLex (compareOn Component.rank) (compareOn Component.name) := by
  funext a b
  cases a <;> cases b <;> rfl

instance : Std.TransOrd Component := by
  rw [Std.TransOrd, Component.compare_eq]
  infer_instance

/-- Paths compare by their components, one after the other. -/
theorem compareLex_eq : compare.compareLex = List.compareLex (Ord.compare (α := Component)) := by
  funext xs ys
  induction xs generalizing ys with
  | nil => cases ys <;> rfl
  | cons x xs ih =>
    cases ys with
    | nil => rfl
    | cons y ys => rw [compare.compareLex, ih, List.compareLex_cons_cons]

instance : Std.TransCmp Path.compare := by
  have hcompare : Path.compare =
      Ordering.byKey Path.components (List.compareLex (Ord.compare (α := Component))) := by
    rw [← compareLex_eq]
    rfl
  rw [hcompare]
  infer_instance

end Path

namespace Report

/-- Written files are ordered by their cells, then by their paths. -/
instance : Std.TransCmp compareWritten :=
  inferInstanceAs (Std.TransCmp (compareLex (Ordering.byKey WrittenFile.cell Ord.compare)
    (Ordering.byKey WrittenFile.path Path.compare)))

/-- That the parts of `r` are in the order of their cells. -/
structure IsSorted (r : Report) : Prop where
  written : r.written.Pairwise fun a b => (Ord.compare a.cell b.cell).isLE
  failures : r.failures.Pairwise fun a b => (Ord.compare a.cell b.cell).isLE
  skipped : r.skipped.Pairwise fun a b => (Ord.compare a b).isLE

/-- Sorting puts a report in the order of its cells. -/
theorem sorted_isSorted (r : Report) : r.sorted.IsSorted where
  written := by
    refine List.Pairwise.imp (fun {a b} h => ?_)
      (pairwise_mergeSort_isLE compareWritten r.written)
    exact (Ordering.isLE_then_iff_and.mp h).1
  failures := pairwise_mergeSort_isLE (Ordering.byKey CellFailure.cell Ord.compare) r.failures
  skipped := pairwise_mergeSort_isLE Ord.compare r.skipped

end Report

/-! ### Results -/

/-- A cell with what became of it: where its files are, or why it failed. -/
structure CellResult where
  cell : CellId
  result : Except CellError (List Path)

namespace CellResult

/-- The written files that `r` stands for. -/
def written (r : CellResult) : List WrittenFile :=
  match r.result with
  | .error _ => []
  | .ok paths => paths.map fun path => ⟨r.cell, path⟩

/-- The failures that `r` stands for. -/
def failures (r : CellResult) : List CellFailure :=
  match r.result with
  | .error e => [⟨r.cell, e⟩]
  | .ok _ => []

theorem cell_of_mem_written {r : CellResult} {e : WrittenFile} (he : e ∈ r.written) :
    e.cell = r.cell := by
  unfold written at he
  split at he
  · cases he
  · obtain ⟨path, -, rfl⟩ := List.mem_map.mp he
    rfl

theorem cell_of_mem_failures {r : CellResult} {e : CellFailure} (he : e ∈ r.failures) :
    e.cell = r.cell := by
  unfold failures at he
  split at he
  · cases List.mem_singleton.mp he
    rfl
  · cases he

end CellResult

/-- The report `report` with `r`, the result of a cell, added. -/
def Report.record (report : Report) (r : CellResult) : Report :=
  { report with
    written := report.written ++ r.written
    failures := report.failures ++ r.failures }

/-- The report of `plan`, before it is sorted, for the `results` of its outcomes. -/
def Plan.reportOf (plan : Plan) (results : List CellResult) : Report where
  written := results.flatMap CellResult.written
  failures := plan.excluded ++ results.flatMap CellResult.failures
  skipped := plan.skipped

/-- What `w` does with `file`, apart from giving its path. -/
def Writer.perform {m : Type → Type} [Monad m] [FileStore m] (w : Writer) (file : GeneratedFile) :
    m (Except WriteError Unit) :=
  match w.mode with
  | .write => put (w.target file) file.content
  | .verify => compare (w.target file) file.content
  | .dryRun => return .ok ()

theorem Writer.write_eq {m : Type → Type} [Monad m] [LawfulMonad m] [FileStore m] (w : Writer)
    (file : GeneratedFile) : (w.write file : m (Except WriteError Path)) =
      (·.map fun () => w.target file) <$> w.perform file := by
  rw [map_eq_pure_bind]
  rfl

namespace Outcome

/-- That `r` is a result that `o` may have: a cell without files fails for the reason it has none,
and one with files has all its paths or fails in writing. -/
def Settles (w : Writer) (o : Outcome) (r : CellResult) : Prop :=
  r.cell = o.cell ∧
    match o.result with
    | .error e => r.result = .error e
    | .ok files => r.result = .ok (files.map w.target) ∨ ∃ e, r.result = .error (.write e)

section

variable {m : Type → Type} [Monad m] [FileStore m]

/-- Writes the files of `o`. -/
def settle (w : Writer) (o : Outcome) : m CellResult :=
  match o.result with
  | .error e => return ⟨o.cell, .error e⟩
  | .ok files => return ⟨o.cell, (← Pipeline.writeAll w files).mapError .write⟩

end

end Outcome

/-- The result of `o` when nothing is touched. -/
def Outcome.dry (w : Writer) (o : Outcome) : CellResult where
  cell := o.cell
  result := o.result.map (·.map w.target)

/-- The report of `plan` when nothing is touched. -/
def Plan.dryReport (plan : Plan) (w : Writer) : Report :=
  (plan.reportOf (plan.outcomes.map (Outcome.dry w))).sorted

/-- A dry run of `plan` has an entry for `c` if and only if an outcome of the cell has a file. -/
theorem Plan.mem_written_dryReport {plan : Plan} {w : Writer} {c : CellId} :
    c ∈ (plan.dryReport w).written.map (·.cell) ↔
      ∃ o ∈ plan.outcomes, o.cell = c ∧ ∃ files, o.result = .ok files ∧ files ≠ [] := by
  rw [dryReport, ((Report.written_sorted_perm _).map _).mem_iff, List.mem_map]
  constructor
  · rintro ⟨e, he, rfl⟩
    obtain ⟨r, hr, he⟩ := List.mem_flatMap.mp he
    obtain ⟨⟨cell, error | files⟩, ho, rfl⟩ := List.mem_map.mp hr
    · cases he
    · obtain ⟨path, hpath, rfl⟩ := List.mem_map.mp he
      exact ⟨_, ho, rfl, files, rfl, fun hnil => by subst hnil; cases hpath⟩
  · rintro ⟨⟨cell, result⟩, ho, rfl, files, rfl, hne⟩
    obtain ⟨f, rest, rfl⟩ := List.exists_cons_of_ne_nil hne
    exact ⟨⟨cell, w.target f⟩,
      List.mem_flatMap.mpr ⟨_, List.mem_map_of_mem ho, List.mem_cons_self⟩, rfl⟩

/-- A dry run of `plan` has a failure of `c` if and only if the cell is left out of an index or an
outcome of it has an error. -/
theorem Plan.mem_failures_dryReport {plan : Plan} {w : Writer} {c : CellId} :
    c ∈ (plan.dryReport w).failures.map (·.cell) ↔ c ∈ plan.excluded.map (·.cell) ∨
      ∃ o ∈ plan.outcomes, o.cell = c ∧ ∃ e, o.result = .error e := by
  rw [dryReport, ((Report.failures_sorted_perm _).map _).mem_iff, reportOf, List.map_append,
    List.mem_append]
  refine or_congr_right ?_
  rw [List.mem_map]
  constructor
  · rintro ⟨e, he, rfl⟩
    obtain ⟨r, hr, he⟩ := List.mem_flatMap.mp he
    obtain ⟨⟨cell, error | files⟩, ho, rfl⟩ := List.mem_map.mp hr
    · obtain rfl := List.mem_singleton.mp he
      exact ⟨_, ho, rfl, error, rfl⟩
    · cases he
  · rintro ⟨⟨cell, result⟩, ho, rfl, e, rfl⟩
    exact ⟨⟨cell, e⟩,
      List.mem_flatMap.mpr ⟨_, List.mem_map_of_mem ho, List.mem_singleton_self _⟩, rfl⟩

namespace Pipeline

section

variable {m : Type → Type} [Monad m] [LawfulMonad m] [FileStore m]

/-- To flush an outcome is to settle it and to record the result. -/
private theorem flush_eq (w : Writer) (report : Report) (o : Outcome) :
    (flush w report o : m Report) = report.record <$> o.settle w := by
  obtain ⟨cell, e | files⟩ := o
  · simp [flush, Outcome.settle, Report.record, CellResult.written, CellResult.failures]
  · simp only [flush, Outcome.settle, map_bind, map_pure]
    refine bind_congr fun done => ?_
    cases done <;>
      simp [Report.record, CellResult.written, CellResult.failures]

/-- To flush outcomes one after the other is to settle them and to record the results. -/
private theorem foldlM_flush_eq (w : Writer) (report : Report) (outcomes : List Outcome) :
    (outcomes.foldlM (flush w) report : m Report) =
      (·.foldl Report.record report) <$> outcomes.mapM (Outcome.settle w) := by
  induction outcomes generalizing report with
  | nil => simp
  | cons o outcomes ih => simp [flush_eq, ih, List.mapM_cons]

end

/-- Recording results adds what they stand for. -/
private theorem foldl_record (results : List CellResult) (report : Report) :
    results.foldl Report.record report =
      { written := report.written ++ results.flatMap CellResult.written
        failures := report.failures ++ results.flatMap CellResult.failures
        skipped := report.skipped } := by
  induction results generalizing report with
  | nil => simp
  | cons r results ih =>
    rw [List.foldl_cons, ih]
    simp only [Report.record, List.flatMap_cons, List.append_assoc]

section

variable {m : Type → Type} [Monad m] [FileStore m]

/-- A run of `p` over `kinds` that settles outcomes in the given `order`. -/
def runInOrder (p : Pipeline) (w : Writer) (kinds : List Kind) (order : List Outcome) :
    m Report := do
  let plan := p.plan kinds
  let report ← order.foldlM (flush w) { failures := plan.excluded, skipped := plan.skipped }
  return report.sorted

variable (p : Pipeline) (w : Writer) (kinds : List Kind)

/-- A run of `p` takes the outcomes in the order of the plan. -/
theorem run_eq_runInOrder :
    (p.run w kinds : m Report) = p.runInOrder w kinds (p.plan kinds).outcomes :=
  rfl

variable [LawfulMonad m]

/-- A run in `order` is the settling of its outcomes, followed by the recording of the results. -/
theorem runInOrder_eq (order : List Outcome) : (p.runInOrder w kinds order : m Report) =
    (fun results => ((p.plan kinds).reportOf results).sorted) <$>
      order.mapM (Outcome.settle w) := by
  unfold runInOrder
  simp only [foldlM_flush_eq, bind_pure_comp, Functor.map_map, foldl_record]
  rfl

/-! ### Dry runs -/

/-- A dry run of `p` touches nothing: it reports where the files of the plan would go. -/
theorem run_dryRun (hmode : w.mode = .dryRun) :
    (p.run w kinds : m Report) = pure ((p.plan kinds).dryReport w) := by
  have hall (files : List GeneratedFile) :
      (writeAll w files : m _) = pure (.ok (files.map w.target)) := by
    induction files with
    | nil => rfl
    | cons file files ih => simp [writeAll, Writer.write, hmode, ih, Except.map]
  have hsettle : (Outcome.settle w : Outcome → m CellResult) = fun o => pure (o.dry w) := by
    funext o
    obtain ⟨cell, e | files⟩ := o
    · rfl
    · simp [Outcome.settle, Outcome.dry, hall, Except.map]
  rw [run_eq_runInOrder, runInOrder_eq, hsettle, List.mapM_pure, map_pure]
  rfl

end

/-! ### Runs over a file system with a state -/

section

variable {σ : Type} [FileStore (StateM σ)] {w : Writer}

/-- The file `file` is written if what is done with it succeeds, and it is where it should be. -/
theorem write_eq_ok {file : GeneratedFile} {s : σ} {path : Path}
    (h : ((w.write file : StateM σ _).run s).1 = .ok path) :
    ((w.perform file : StateM σ _).run s).1 = .ok () ∧ path = w.target file := by
  rw [Writer.write_eq, StateT.run_map] at h
  obtain ⟨_, hdone, hpath⟩ := bind_eq_ok.mp (h : ((w.perform file : StateM σ _).run s).1 >>=
    (fun () => .ok (w.target file)) = .ok path)
  exact ⟨hdone, (Except.ok.inj hpath).symm⟩

/-- To write `file` changes what doing with it what the mode says changes. -/
theorem write_run_snd (file : GeneratedFile) (s : σ) :
    ((w.write file : StateM σ _).run s).2 = ((w.perform file : StateM σ _).run s).2 := by
  rw [Writer.write_eq, StateT.run_map]
  rfl

/-- The file `file` and then `files` are all written if the first is, and then the rest. -/
theorem writeAll_cons_eq_ok {file : GeneratedFile} {files : List GeneratedFile} {s s' : σ}
    {paths : List Path}
    (h : (writeAll w (file :: files) : StateM σ _).run s = (.ok paths, s')) :
    ∃ path middle rest, (w.write file : StateM σ _).run s = (.ok path, middle) ∧
      (writeAll w files : StateM σ _).run middle = (.ok rest, s') ∧ paths = path :: rest := by
  rw [writeAll, run_bind_eq] at h
  rcases hwrite : (w.write file : StateM σ _).run s with ⟨e | path, middle⟩
  · rw [hwrite] at h
    cases h
  · simp only [hwrite, run_bind_eq] at h
    rcases hrest : (writeAll w files : StateM σ _).run middle with ⟨e | rest, last⟩
    · rw [hrest] at h
      cases h
    · rw [hrest] at h
      cases h
      exact ⟨path, middle, rest, rfl, hrest, rfl⟩

/-- The files `files` that are all written are where they should be. -/
theorem eq_map_target_of_writeAll {files : List GeneratedFile} {s : σ} {paths : List Path}
    (h : ((writeAll w files : StateM σ _).run s).1 = .ok paths) : paths = files.map w.target := by
  induction files generalizing s paths with
  | nil => exact (Except.ok.inj h).symm
  | cons file files ih =>
    obtain ⟨path, middle, rest, hwrite, hrest, rfl⟩ := writeAll_cons_eq_ok (Prod.ext h rfl)
    rw [List.map_cons, ← ih (congrArg Prod.fst hrest),
      ← (write_eq_ok (congrArg Prod.fst hwrite)).2]

/-- The result of `o` is one that it may have. -/
theorem settles_settle (o : Outcome) (s : σ) :
    o.Settles w ((o.settle w : StateM σ _).run s).1 := by
  obtain ⟨cell, e | files⟩ := o
  · exact ⟨rfl, rfl⟩
  · have hrun : ((Outcome.settle w ⟨cell, .ok files⟩ : StateM σ _).run s).1 =
        ⟨cell, ((writeAll w files : StateM σ _).run s).1.mapError .write⟩ := rfl
    rw [hrun]
    cases hdone : ((writeAll w files : StateM σ _).run s).1 with
    | error e => exact ⟨rfl, .inr ⟨e, rfl⟩⟩
    | ok paths => exact ⟨rfl, .inl (congrArg Except.ok (eq_map_target_of_writeAll hdone))⟩

/-- The written files of a run of `p` over `kinds` are those of the results of its plan. -/
theorem written_run_perm (p : Pipeline) (kinds : List Kind) (s : σ) :
    ((p.run w kinds : StateM σ Report).run s).1.written.Perm
      ((((p.plan kinds).outcomes.mapM (Outcome.settle w) : StateM σ _).run s).1.flatMap
        CellResult.written) := by
  rw [run_eq_runInOrder, runInOrder_eq, StateT.run_map]
  exact Report.written_sorted_perm _

/-- The report of a run in `order` is that of results that its outcomes may have. -/
theorem exists_results (p : Pipeline) (kinds : List Kind) (order : List Outcome) (s : σ) :
    ∃ results, List.Forall₂ (Outcome.Settles w) order results ∧
      ((p.runInOrder w kinds order : StateM σ Report).run s).1 =
        ((p.plan kinds).reportOf results).sorted := by
  refine ⟨_, forall₂_mapM_run (fun o s => settles_settle o s) order s, ?_⟩
  rw [runInOrder_eq, StateT.run_map]
  rfl

end

end Pipeline

end KindSchema
