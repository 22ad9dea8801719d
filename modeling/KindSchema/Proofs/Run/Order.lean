import KindSchema.Proofs.Run.Accounting
import KindSchema.Proofs.Run.Index
import KindSchema.Proofs.Run.Writing

/-!
# The order of a run

What a run finds does not depend on the order in which its kinds, generators and variants are
listed.

* `mergeSort_eq_of_filter_eq`: a list is sorted alike in two orders in which the elements that
  compare equal come in the same order.
* `Pipeline.Reordered.plan_outcomes_perm`: the outcomes of a plan are the same but for their order.
* `Plan.sorted_reportOf_eq_of_perm`: what is reported of results does not depend on their order.
* `run_reordered`: a dry run gives the same report and the same files in any order.
-/

namespace KindSchema

/-! ### Sorting -/

section Sorting

variable {α : Type} (comparison : α → α → Ordering) [Std.TransCmp comparison] {l l' : List α}

/-- Lists have the same elements if those that compare equal to any one are the same. -/
private theorem mem_iff_of_filter_eq
    (h : ∀ a, l.filter (comparison a · == .eq) = l'.filter (comparison a · == .eq)) (a : α) :
    a ∈ l ↔ a ∈ l' := by
  have hself : comparison a a = .eq := Std.ReflCmp.compare_self
  have hiff : a ∈ l.filter (comparison a · == .eq) ↔ a ∈ l'.filter (comparison a · == .eq) := by
    rw [h a]
  simpa only [List.mem_filter, hself, beq_self_eq_true, and_true] using hiff

/-- Sorted lists are the same if the elements that compare equal to any one are the same. -/
private theorem eq_of_filter_eq_of_pairwise
    (h : ∀ a, l.filter (comparison a · == .eq) = l'.filter (comparison a · == .eq))
    (hl : l.Pairwise fun a b => (comparison a b).isLE)
    (hl' : l'.Pairwise fun a b => (comparison a b).isLE) : l = l' := by
  have hself (a : α) : comparison a a = .eq := Std.ReflCmp.compare_self
  have hmem := mem_iff_of_filter_eq comparison h
  induction l generalizing l' with
  | nil => exact (List.eq_nil_iff_forall_not_mem.mpr fun a ha => nomatch (hmem a).mpr ha).symm
  | cons a l ih =>
    cases l' with
    | nil => exact nomatch (hmem a).mp List.mem_cons_self
    | cons b l' =>
      have hfirst {x y : α} {xs : List α} (hx : (x :: xs).Pairwise fun a b => (comparison a b).isLE)
          (hy : y ∈ x :: xs) : (comparison x y).isLE := by
        rcases List.mem_cons.mp hy with rfl | hy
        · rw [hself]; rfl
        · exact (List.pairwise_cons.mp hx).1 y hy
      have hab : comparison a b = .eq := Std.OrientedCmp.isLE_antisymm
        (hfirst hl ((hmem b).mpr List.mem_cons_self))
        (hfirst hl' ((hmem a).mp List.mem_cons_self))
      -- Both lists begin with the first of those that compare equal to `a`.
      have hequal := h a
      simp only [List.filter_cons, hself, hab, beq_self_eq_true, if_true] at hequal
      obtain rfl := (List.cons.inj hequal).1
      have hrest (c : α) :
          l.filter (comparison c · == .eq) = l'.filter (comparison c · == .eq) := by
        have hc := h c
        simp only [List.filter_cons] at hc
        split at hc
        · exact (List.cons.inj hc).2
        · exact hc
      have htail : l = l' :=
        ih hrest hl.of_cons hl'.of_cons (mem_iff_of_filter_eq comparison hrest)
      rw [htail]

/-- The lists `l` and `l'` are sorted alike if the elements that compare equal come in the same
order in them. -/
theorem mergeSort_eq_of_filter_eq
    (h : ∀ a, l.filter (comparison a · == .eq) = l'.filter (comparison a · == .eq)) :
    (l.mergeSort fun a b => (comparison a b).isLE) =
      l'.mergeSort fun a b => (comparison a b).isLE := by
  refine eq_of_filter_eq_of_pairwise comparison (fun a => ?_)
    (pairwise_mergeSort_isLE comparison l) (pairwise_mergeSort_isLE comparison l')
  rw [filter_mergeSort_isLE, filter_mergeSort_isLE, h a]

/-- In two orders of a list in which no two elements compare equal but are different, the elements
that compare equal to any one are the same. -/
private theorem filter_eq_of_perm (hperm : l.Perm l')
    (h : ∀ a ∈ l, ∀ b ∈ l, comparison a b = .eq → a = b) (c : α) :
    l.filter (comparison c · == .eq) = l'.filter (comparison c · == .eq) := by
  have hany (l : List α) : l.Pairwise fun _ _ => True := List.pairwise_of_forall fun _ _ => trivial
  refine (hperm.filter _).eq_of_pairwise (fun a b ha hb _ _ => ?_) (hany _) (hany _)
  obtain ⟨ha, hca⟩ := List.mem_filter.mp ha
  obtain ⟨hb, hcb⟩ := List.mem_filter.mp hb
  exact h a ha b (hperm.mem_iff.mpr hb) (Std.TransCmp.eq_trans
    (Std.OrientedCmp.eq_symm (beq_iff_eq.mp hca)) (beq_iff_eq.mp hcb))

end Sorting

/-! ### What compares equal -/

/-- Cells that compare equal are the same. -/
instance : Std.LawfulEqOrd CellId where
  eq_of_compare {c c'} h := by
    have hgenerator {g g' : Generator} (hrank : g.rank = g'.rank) : g = g' := by
      revert hrank
      cases g <;> cases g' <;> decide
    have hvariant {v v' : VariantId} (hrank : v.rank = v'.rank) : v = v' := by
      revert hrank
      cases v <;> cases v' <;> decide
    obtain ⟨hkind, hrest⟩ := Ordering.then_eq_eq.mp h
    obtain ⟨hfirst, hsecond⟩ := Ordering.then_eq_eq.mp hrest
    obtain ⟨kind, g, v⟩ := c
    obtain ⟨kind', g', v'⟩ := c'
    obtain rfl : kind = kind' := Std.compare_eq_iff_eq.mp hkind
    obtain rfl := hgenerator (Std.compare_eq_iff_eq.mp hfirst)
    obtain rfl := hvariant (Std.compare_eq_iff_eq.mp hsecond)
    rfl

/-- Components that compare equal are the same. -/
instance : Std.LawfulEqOrd Path.Component where
  eq_of_compare {a b} h := by
    rw [Path.Component.compare_eq] at h
    obtain ⟨hrank, hname⟩ := Ordering.then_eq_eq.mp h
    have hrank' : a.rank = b.rank := Std.compare_eq_iff_eq.mp hrank
    have hname' : a.name = b.name := Std.compare_eq_iff_eq.mp hname
    cases a <;> cases b <;> first | rfl | exact congrArg Path.Component.entry hname' | cases hrank'

/-- Paths that compare equal have the same components. -/
private theorem Path.components_eq_of_compare {p q : Path} (h : p.compare q = .eq) :
    p.components = q.components := by
  rw [Path.compare, Path.compareLex_eq] at h
  exact Std.LawfulEqCmp.eq_of_compare h

/-- Entries that compare equal have the same cell and the same file name. -/
private theorem WrittenFile.cell_eq_and_fileName?_eq {e e' : WrittenFile}
    (h : Report.compareWritten e e' = .eq) :
    e.cell = e'.cell ∧ e.path.fileName? = e'.path.fileName? := by
  obtain ⟨hcell, hpath⟩ := Ordering.then_eq_eq.mp h
  refine ⟨Std.compare_eq_iff_eq.mp hcell, ?_⟩
  rw [Path.fileName?, Path.fileName?, Path.components_eq_of_compare hpath]

namespace Report

/-- The order of failures: by cell. -/
def compareFailures : CellFailure → CellFailure → Ordering :=
  Ordering.byKey CellFailure.cell Ord.compare

instance : Std.TransCmp compareFailures :=
  inferInstanceAs (Std.TransCmp (Ordering.byKey CellFailure.cell Ord.compare))

private theorem compareFailures_eq_iff {e e' : CellFailure} :
    compareFailures e e' = .eq ↔ e.cell = e'.cell :=
  Std.compare_eq_iff_eq

/-- A report is sorted alike if its parts come in another order, in which the failures of each cell
are in the same order, unless there are different entries of written files that compare equal. -/
private theorem sorted_eq_of_perm {r r' : Report} (hwritten : r.written.Perm r'.written)
    (hdistinct : ∀ e ∈ r.written, ∀ e' ∈ r.written, compareWritten e e' = .eq → e = e')
    (hfailures : ∀ e, r.failures.filter (compareFailures e · == .eq) =
      r'.failures.filter (compareFailures e · == .eq))
    (hskipped : r.skipped.Perm r'.skipped) : r.sorted = r'.sorted := by
  have hwritten' := mergeSort_eq_of_filter_eq compareWritten
    (filter_eq_of_perm compareWritten hwritten hdistinct)
  have hfailures' := mergeSort_eq_of_filter_eq compareFailures hfailures
  have hskipped' := mergeSort_eq_of_filter_eq (Ord.compare (α := CellId))
    (filter_eq_of_perm _ hskipped fun _ _ _ _ => Std.compare_eq_iff_eq.mp)
  rw [sorted, sorted, hwritten', hskipped']
  exact congrArg (fun failures => Report.mk _ failures _) hfailures'

end Report

/-- The results of a plan are reported alike in any order, as `results` or as `results'`, if no
different entries compare equal. The kinds that are left out of an index come before the cells that
fail, so a cell may be among both of them. -/
theorem Plan.sorted_reportOf_eq_of_perm {plan plan' : Plan} {results results' : List CellResult}
    (hresults : results.Perm results') (hexcluded : plan.excluded.Perm plan'.excluded)
    (hskipped : plan.skipped.Perm plan'.skipped)
    (hwritten : ∀ e ∈ results.flatMap CellResult.written,
      ∀ e' ∈ results.flatMap CellResult.written, Report.compareWritten e e' = .eq → e = e')
    (hleftOut : ∀ e ∈ plan.excluded, ∀ e' ∈ plan.excluded, e.cell = e'.cell → e = e')
    (hfailed : ∀ e ∈ results.flatMap CellResult.failures,
      ∀ e' ∈ results.flatMap CellResult.failures, e.cell = e'.cell → e = e') :
    (plan.reportOf results).sorted = (plan'.reportOf results').sorted := by
  refine Report.sorted_eq_of_perm (hresults.flatMap_right _) hwritten (fun e => ?_) hskipped
  have hfirst := filter_eq_of_perm Report.compareFailures hexcluded
    (fun e he e' he' h => hleftOut e he e' he' (Report.compareFailures_eq_iff.mp h)) e
  have hsecond := filter_eq_of_perm Report.compareFailures
    (hresults.flatMap_right CellResult.failures)
    (fun e he e' he' h => hfailed e he e' he' (Report.compareFailures_eq_iff.mp h)) e
  rw [reportOf, reportOf, List.filter_append, List.filter_append, hfirst, hsecond]

/-- Results of different cells have no two failures of one cell. -/
private theorem eq_of_mem_failures {results : List CellResult}
    (hcells : (results.map (·.cell)).Nodup) {e e' : CellFailure}
    (he : e ∈ results.flatMap CellResult.failures) (he' : e' ∈ results.flatMap CellResult.failures)
    (h : e.cell = e'.cell) : e = e' := by
  obtain ⟨r, hr, hmem⟩ := List.mem_flatMap.mp he
  obtain ⟨r', hr', hmem'⟩ := List.mem_flatMap.mp he'
  have hcell : r.cell = r'.cell := by
    rw [← CellResult.cell_of_mem_failures hmem, h, CellResult.cell_of_mem_failures hmem']
  obtain rfl := List.inj_on_of_nodup_map hcells hr hr' hcell
  cases hresult : r.result with
  | error cause =>
    rw [CellResult.failures, hresult, List.mem_singleton] at hmem hmem'
    rw [hmem, hmem']
  | ok paths =>
    rw [CellResult.failures, hresult] at hmem
    cases hmem

/-- The result of an outcome when nothing is touched is one that it may have. -/
private theorem Outcome.settles_dry (w : Writer) (o : Outcome) : o.Settles w (o.dry w) := by
  obtain ⟨cell, e | files⟩ := o
  · exact ⟨rfl, rfl⟩
  · exact ⟨rfl, .inl rfl⟩

theorem forall₂_settles_dry (w : Writer) (outcomes : List Outcome) :
    List.Forall₂ (Outcome.Settles w) outcomes (outcomes.map (Outcome.dry w)) :=
  List.forall₂_map_right_iff.mpr (List.forall₂_same.mpr fun o _ => o.settles_dry w)

/-! ### Plans in another order -/

/-- That `p` and `p'` differ in the order of their generators and of their variants only. -/
structure Pipeline.Reordered (p p' : Pipeline) : Prop where
  generators : p.generators.Perm p'.generators
  variants : p.variants.Perm p'.variants
  subdirectories : p.subdirectories = p'.subdirectories

namespace Pipeline

section Members

variable {kinds kinds' : List Kind} (hkinds : kinds.Perm kinds')
include hkinds

/-- Whether a kind is part of an aggregate file does not depend on the order of the kinds. -/
private theorem memberOf_perm (g : Generator) (k : Kind) :
    memberOf kinds g k = memberOf kinds' g k := by
  rw [memberOf, memberOf, machineNameClash?_perm hkinds]

/-- The kinds of an aggregate file come in the order of their machine names, which are different. -/
private theorem membersOf_perm (hnames : (kinds.map (·.name)).Nodup) (g : Generator) :
    membersOf kinds g = membersOf kinds' g := by
  have hmember : memberOf kinds g = memberOf kinds' g := funext (memberOf_perm hkinds g)
  have hperm : (membersOf kinds g).Perm (membersOf kinds' g) := by
    rw [membersOf, membersOf, hmember]
    exact (List.mergeSort_perm _ _).trans
      ((hkinds.filterMap _).trans (List.mergeSort_perm _ _).symm)
  refine hperm.eq_of_pairwise (fun a b ha hb hab hba => ?_) pairwise_membersOf pairwise_membersOf
  exact List.inj_on_of_nodup_map (nodup_machineNames_membersOf hnames) ha (hperm.mem_iff.mpr hb)
    (String.le_antisymm hab hba)

private theorem excludedOf_perm (g : Generator) (v : VariantId) :
    (excludedOf kinds g v).Perm (excludedOf kinds' g v) := by
  have hmember : memberOf kinds g = memberOf kinds' g := funext (memberOf_perm hkinds g)
  rw [excludedOf, excludedOf, hmember]
  exact hkinds.filterMap _

end Members

namespace Reordered

variable {p p' : Pipeline} (hp : p.Reordered p')
include hp

private theorem perKind_perm : p.perKind.Perm p'.perKind :=
  hp.generators.filter _

private theorem effectiveVariants_perm : p.effectiveVariants.Perm p'.effectiveVariants := by
  rw [effectiveVariants, effectiveVariants, hp.variants.isEmpty_eq]
  split
  · exact .refl _
  · exact hp.variants

private theorem aggregateCells_perm : p.aggregateCells.Perm p'.aggregateCells :=
  (hp.generators.filter _).flatMap fun _ _ => hp.effectiveVariants_perm.map _

private theorem subdirectory?_eq : p.subdirectory? = p'.subdirectory? := by
  funext g
  rw [subdirectory?, subdirectory?, hp.subdirectories]

/-- The files of a cell do not depend on the order. -/
private theorem generate_eq : p.generate = p'.generate := by
  funext k g v
  rw [generate, generate, hp.subdirectory?_eq]

variable {kinds kinds' : List Kind} (hkinds : kinds.Perm kinds')
include hkinds

private theorem outcomeOf_eq (k : Kind) (g : Generator) (v : Variant) :
    p.outcomeOf kinds k g v = p'.outcomeOf kinds' k g v := by
  rw [outcomeOf, outcomeOf, machineNameClash?_perm hkinds, hp.generate_eq]

private theorem kindOutcomes_perm (k : Kind) :
    (p.kindOutcomes kinds k).Perm (p'.kindOutcomes kinds' k) := by
  refine hp.perKind_perm.flatMap fun g _ => ?_
  rw [show p.outcomeOf kinds k g = p'.outcomeOf kinds' k g from
    funext (hp.outcomeOf_eq hkinds k g)]
  exact (hp.effectiveVariants_perm.filter _).map _

/-- The file of a cell of all kinds does not depend on the order. -/
private theorem aggregateOutcomeOf_eq (hnames : (kinds.map (·.name)).Nodup) (g : Generator)
    (v : Variant) :
    p.aggregateOutcomeOf kinds g v = p'.aggregateOutcomeOf kinds' g v := by
  have hmembers :=
    membersOf_perm (hkinds.filter (·.supports v.id)) (nodup_names_filter hnames v.id) g
  rw [aggregateOutcomeOf, aggregateOutcomeOf, generateAggregate, generateAggregate, hmembers,
    hp.subdirectory?_eq]

private theorem rendered_perm (hnames : (kinds.map (·.name)).Nodup) :
    (p.rendered kinds).Perm (p'.rendered kinds') := by
  have hfile : (fun c : Generator × Variant => p.aggregateOutcomeOf kinds c.1 c.2) =
      fun c => p'.aggregateOutcomeOf kinds' c.1 c.2 :=
    funext fun c => hp.aggregateOutcomeOf_eq hkinds hnames c.1 c.2
  refine .append (hkinds.flatMap fun k _ => hp.kindOutcomes_perm hkinds k) ?_
  rw [aggregateOutcomes, aggregateOutcomes]
  exact hfile ▸ hp.aggregateCells_perm.map _

/-- The outcomes of a plan, with the files and the errors of all cells, are the same for `p` and
`p'` but for their order. -/
theorem plan_outcomes_perm (hnames : (kinds.map (·.name)).Nodup) :
    (p.plan kinds).outcomes.Perm (p'.plan kinds').outcomes := by
  rw [plan_outcomes, plan_outcomes]
  exact rejectSharedPaths_perm (hp.rendered_perm hkinds hnames)

private theorem plan_excluded_perm : (p.plan kinds).excluded.Perm (p'.plan kinds').excluded := by
  rw [plan_excluded, plan_excluded]
  exact hp.aggregateCells_perm.flatMap fun c _ => excludedOf_perm (hkinds.filter _) c.1 c.2.id

private theorem plan_skipped_perm : (p.plan kinds).skipped.Perm (p'.plan kinds').skipped := by
  rw [plan_skipped, plan_skipped]
  refine .append (hkinds.flatMap fun k _ => ?_) (hp.aggregateCells_perm.flatMap fun c _ => ?_)
  · exact hp.perKind_perm.flatMap fun g _ => (hp.effectiveVariants_perm.filter _).map _
  · exact (hkinds.filter _).map _

end Reordered

end Pipeline

/-! ### The entries of a run -/

section Entries

variable {p : Pipeline} {kinds : List Kind} {w : Writer}

/-- The entries of two files of a run are the same if they compare equal. -/
private theorem entry_eq_of_compareWritten (hnames : (kinds.map (·.name)).Nodup) {o o' : Outcome}
    (ho : o ∈ p.rendered kinds) (ho' : o' ∈ p.rendered kinds) {f f' : GeneratedFile}
    (hf : f ∈ o.files) (hf' : f' ∈ o'.files)
    (h : Report.compareWritten (w.entry f) (w.entry f') = .eq) : w.entry f = w.entry f' := by
  obtain ⟨hcell, hfileName⟩ := WrittenFile.cell_eq_and_fileName?_eq h
  obtain ⟨hkind, hgenerator, hvariant⟩ := CellId.mk.inj hcell
  obtain ⟨-, a, hartifact, hbelongs⟩ := Pipeline.exists_artifact_of_mem_rendered ho hf
  obtain ⟨-, a', hartifact', hbelongs'⟩ := Pipeline.exists_artifact_of_mem_rendered ho' hf'
  obtain rfl : a = a' := (artifact_eq_iff (w := w) hnames hartifact hbelongs hartifact'
    hbelongs').mpr ⟨hkind, hgenerator, hfileName⟩
  have hpath : f.path = f'.path := by rw [hartifact.path_eq, hartifact'.path_eq, hvariant]
  rw [Writer.entry, Writer.entry, Writer.target, Writer.target, hkind, hgenerator, hvariant, hpath]

variable {order : List Outcome} (horder : order.Perm (p.plan kinds).outcomes)
include horder

/-- The outcome `o` of a plan, if it has the file `f`, has the cell of `f`. -/
theorem cell_of_mem_files {o : Outcome} (ho : o ∈ order) {f : GeneratedFile} (hf : f ∈ o.files) :
    o.cell = ⟨f.kind, f.generator, f.variant⟩ := by
  obtain ⟨o', ho', hcell, hf'⟩ := Pipeline.exists_rendered_of_mem_plan (horder.mem_iff.mp ho) hf
  rw [← hcell, (Pipeline.exists_artifact_of_mem_rendered ho' hf').1]

/-- The written files `e` and `e'` of a run do not compare equal if they are different. -/
theorem eq_of_mem_written (hnames : (kinds.map (·.name)).Nodup) {results : List CellResult}
    (hsettles : List.Forall₂ (Outcome.Settles w) order results) {e e' : WrittenFile}
    (he : e ∈ results.flatMap CellResult.written) (he' : e' ∈ results.flatMap CellResult.written)
    (h : Report.compareWritten e e' = .eq) : e = e' := by
  have hsublist := written_sublist hsettles fun o ho f hf => cell_of_mem_files horder ho hf
  obtain ⟨f, hf, rfl⟩ := List.mem_map.mp (hsublist.subset he)
  obtain ⟨f', hf', rfl⟩ := List.mem_map.mp (hsublist.subset he')
  obtain ⟨o, ho, hfo⟩ := exists_rendered_of_mem_order horder hf
  obtain ⟨o', ho', hfo'⟩ := exists_rendered_of_mem_order horder hf'
  exact entry_eq_of_compareWritten hnames ho ho' hfo hfo' h

end Entries

namespace Pipeline

variable {p : Pipeline} {kinds : List Kind}

/-- No kind is left out of an index for two reasons. -/
private theorem eq_of_mem_excluded (hnames : (kinds.map (·.name)).Nodup) {e e' : CellFailure}
    (he : e ∈ (p.plan kinds).excluded) (he' : e' ∈ (p.plan kinds).excluded)
    (h : e.cell = e'.cell) : e = e' := by
  obtain ⟨-, v, -, k, hk, -, cause, hmember, rfl⟩ := mem_plan_excluded.mp he
  obtain ⟨-, v', -, k', hk', -, cause', hmember', rfl⟩ := mem_plan_excluded.mp he'
  obtain ⟨hname, -, hvariant⟩ := CellId.mk.inj h
  obtain rfl := List.inj_on_of_nodup_map hnames hk hk' hname
  rw [hvariant] at hmember ⊢
  rw [Except.error.inj (hmember.symm.trans hmember')]

/-- The generator of a cell tells whether it is of a single kind. -/
theorem cell_ne_of_mem_aggregateOutcomes {k : Kind} {o o' : Outcome}
    (ho : o ∈ p.kindOutcomes kinds k) (ho' : o' ∈ p.aggregateOutcomes kinds) :
    o.cell ≠ o'.cell := by
  intro heq
  have hown : o.cell.isOfKind k.name = true := by
    rw [isOfKind_of_mem_kindOutcomes k k.name o ho, beq_self_eq_true]
  rw [heq, isOfKind_of_mem_aggregateOutcomes ho'] at hown
  cases hown

/-- No cell of several kinds occurs twice. -/
theorem nodup_flatMap_kindCells (hnames : (kinds.map (·.name)).Nodup)
    (hgenerators : p.generators.Nodup) (hvariants : (p.variants.map (·.id)).Nodup)
    (test : Kind → VariantId → Bool) : (kinds.flatMap fun k => p.kindCells k (test k)).Nodup := by
  rw [List.nodup_flatMap]
  refine ⟨fun k _ => nodup_kindCells hgenerators hvariants, ?_⟩
  refine (List.pairwise_map.mp hnames).imp fun {k k'} hne c hc hc' => hne ?_
  obtain ⟨_, -, _, -, -, rfl⟩ := mem_kindCells.mp hc
  obtain ⟨_, -, _, -, -, heq⟩ := mem_kindCells.mp hc'
  exact (CellId.mk.inj heq).1

/-- The cells of a run of `p` over `kinds` are different. -/
theorem nodup_cells_rendered (hnames : (kinds.map (·.name)).Nodup)
    (hgenerators : p.generators.Nodup) (hvariants : (p.variants.map (·.id)).Nodup) :
    ((p.rendered kinds).map (·.cell)).Nodup := by
  have hkinds : ((kinds.flatMap (p.kindOutcomes kinds)).map (·.cell)).Nodup := by
    simp only [List.map_flatMap, map_cell_kindOutcomes]
    exact nodup_flatMap_kindCells hnames hgenerators hvariants fun k => k.supports
  have haggregates : ((p.aggregateOutcomes kinds).map (·.cell)).Nodup := by
    rw [aggregateOutcomes, aggregateCells, List.map_flatMap, List.map_flatMap]
    simp only [List.map_map]
    exact nodup_flatMap_cells CellId.allKinds (hgenerators.filter _)
      (nodup_effectiveVariants hvariants)
  rw [rendered, List.map_append, List.nodup_append]
  refine ⟨hkinds, haggregates, fun c hc c' hc' => ?_⟩
  obtain ⟨o, ho, rfl⟩ := List.mem_map.mp hc
  obtain ⟨o', ho', rfl⟩ := List.mem_map.mp hc'
  obtain ⟨k, -, ho⟩ := List.mem_flatMap.mp ho
  exact cell_ne_of_mem_aggregateOutcomes ho ho'

end Pipeline

/-- A run of `p` over `kinds` does not depend on the order of its kinds, its generators and its
variants. The outcomes of its cells are the same, with the paths and the contents of all files and
with all errors, and a dry run gives the same report, in the same order. -/
theorem run_reordered {p p' : Pipeline} {kinds kinds' : List Kind} {w : Writer}
    (hp : p.Reordered p') (hkinds : kinds.Perm kinds') (hnames : (kinds.map (·.name)).Nodup)
    (hgenerators : p.generators.Nodup) (hvariants : (p.variants.map (·.id)).Nodup)
    (hmode : w.mode = .dryRun) :
    (p.plan kinds).outcomes.Perm (p'.plan kinds').outcomes ∧
      (allFiles (p.plan kinds).outcomes).Perm (allFiles (p'.plan kinds').outcomes) ∧
      ∀ (m : Type → Type) [Monad m] [LawfulMonad m] [FileStore m],
        (p.run w kinds : m Report) = p'.run w kinds' := by
  have houtcomes := hp.plan_outcomes_perm hkinds hnames
  refine ⟨houtcomes, houtcomes.flatMap_right _, fun m _ _ _ => ?_⟩
  have hsettles := forall₂_settles_dry w (p.plan kinds).outcomes
  have hcells : (((p.plan kinds).outcomes.map (Outcome.dry w)).map (·.cell)).Nodup := by
    rw [map_cell_of_settles hsettles, Pipeline.plan_outcomes, map_cell_rejectSharedPaths]
    exact Pipeline.nodup_cells_rendered hnames hgenerators hvariants
  -- Entries that compare equal are equal, so the sorted parts agree and not only their elements.
  have hreport : (p.plan kinds).dryReport w = (p'.plan kinds').dryReport w :=
    Plan.sorted_reportOf_eq_of_perm (houtcomes.map _) (hp.plan_excluded_perm hkinds)
      (hp.plan_skipped_perm hkinds)
      (fun e he e' he' => eq_of_mem_written (.refl _) hnames hsettles he he')
      (fun e he e' he' => Pipeline.eq_of_mem_excluded hnames he he')
      (fun e he e' he' => eq_of_mem_failures hcells he he')
  rw [Pipeline.run_dryRun p w kinds hmode, Pipeline.run_dryRun p' w kinds' hmode, hreport]

namespace Sample

/-- The small pipeline with its generators and its variants listed backwards. -/
def typeScriptBackwards : Pipeline :=
  { typeScript with
    generators := typeScript.generators.reverse
    variants := typeScript.variants.reverse }

/-- Backwards, the small run has the same files and the same report. -/
theorem reordered_folder :
    typeScript.Reordered typeScriptBackwards ∧ [ring, folder].Perm [folder, ring] ∧
      ([ring, folder].map (·.name)).Nodup ∧ typeScript.generators.Nodup ∧
      (typeScript.variants.map (·.id)).Nodup ∧
      (allFiles (typeScript.plan [ring, folder]).outcomes).Perm
        (allFiles (typeScriptBackwards.plan [folder, ring]).outcomes) ∧
      (typeScript.run { root := ⟨"out"⟩, mode := .dryRun } [ring, folder] :
          StateM FileTree Report) =
        typeScriptBackwards.run { root := ⟨"out"⟩, mode := .dryRun } [folder, ring] := by
  have hp : typeScript.Reordered typeScriptBackwards := {
    generators := (List.reverse_perm _).symm
    variants := (List.reverse_perm _).symm
    subdirectories := rfl }
  have hkinds : [ring, folder].Perm [folder, ring] := .swap _ _ _
  have hnames : ([ring, folder].map (·.name)).Nodup := by decide
  have hgenerators : typeScript.generators.Nodup := by decide
  have hvariants : (typeScript.variants.map (·.id)).Nodup := by decide
  have hrun := run_reordered (w := { root := ⟨"out"⟩, mode := .dryRun }) hp hkinds hnames
    hgenerators hvariants rfl
  exact ⟨hp, hkinds, hnames, hgenerators, hvariants, hrun.2.1, hrun.2.2 (StateM FileTree)⟩

end Sample

end KindSchema
