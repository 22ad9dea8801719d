import KindSchema.Proofs.Run.Order

/-!
# Checking what was written

A run that checks files where another run has put them finds all of them as they should be, and
after one of them was removed or replaced it fails in the cell of that file alone.

* `Outcome.settle_verifying`, `Outcome.settle_verifying_of_lacks`: what checking a cell gives, in a
  tree in which its files are as they should be, and in one in which a file is not.
* `nodup_locations`: no two files of a run have the same location, unless a subdirectory climbs.
* `Pipeline.upToDate_of_isSuccess`: what a run that writes and succeeds leaves.
* `verify_written`: what a run that checks then reports.
-/

namespace KindSchema

/-! ### Checking a cell -/

/-- The writer that checks the files that `w` writes. -/
def Writer.verifying (w : Writer) : Writer :=
  { w with mode := .verify }

section Cells

variable {w : Writer} {t : FileTree} {f : GeneratedFile}

/-- To check a file is to compare what is read with its content. -/
private theorem Writer.run_write_verifying_eq (w : Writer) (f : GeneratedFile) (t : FileTree) :
    (w.verifying.write f : StateM FileTree _).run t =
      let compared := (Writer.compare (w.target f) f.content : StateM FileTree _).run t
      (compared.1.map fun () => w.target f, compared.2) := by
  rw [Writer.write_eq, StateT.run_map]
  rfl

/-- A file that is as it should be passes the check. -/
private theorem Writer.run_write_verifying (h : t.readText (w.target f) = .ok f.content) :
    (w.verifying.write f : StateM FileTree _).run t = (.ok (w.target f), t) := by
  have hread : (FileStore.readText (w.target f) : StateM FileTree _).run t =
      (.ok f.content, t) := congrArg (·, t) h
  have hcompare : (Writer.compare (w.target f) f.content : StateM FileTree _).run t =
      (.ok (), t) := by
    rw [Writer.compare, run_bind_eq, hread]
    dsimp only
    rw [if_pos rfl]
    rfl
  rw [Writer.run_write_verifying_eq, hcompare]
  rfl

/-- A file that is missing or has another content is stale. -/
private theorem Writer.run_write_verifying_of_lacks (h : t.Lacks (w.target f) f.content) :
    (w.verifying.write f : StateM FileTree _).run t = (.error (.stale (w.target f)), t) := by
  have hread : (FileStore.readText (w.target f) : StateM FileTree _).run t =
      (t.readText (w.target f), t) := rfl
  have hcompare : (Writer.compare (w.target f) f.content : StateM FileTree _).run t =
      (.error (.stale (w.target f)), t) := by
    rw [Writer.compare, run_bind_eq, hread]
    obtain hnone | ⟨other, hother, hne⟩ := h
    · rw [hnone]
      rfl
    · rw [hother]
      dsimp only
      rw [if_neg hne]
      rfl
  rw [Writer.run_write_verifying_eq, hcompare]
  rfl

/-- Files that are as they should be pass the check. -/
private theorem run_writeAll_verifying {files : List GeneratedFile}
    (h : ∀ f ∈ files, t.readText (w.target f) = .ok f.content) :
    (Pipeline.writeAll w.verifying files : StateM FileTree _).run t =
      (.ok (files.map w.target), t) := by
  induction files with
  | nil => rfl
  | cons f files ih =>
    obtain ⟨hf, hfiles⟩ := List.forall_mem_cons.mp h
    rw [Pipeline.writeAll, run_bind_eq, Writer.run_write_verifying hf]
    simp only [run_bind_eq, ih hfiles]
    rfl

/-- A file that is not as it should be is found, whatever files come before it. -/
private theorem run_writeAll_verifying_of_lacks {files : List GeneratedFile} (hf : f ∈ files)
    (hlacks : t.Lacks (w.target f) f.content)
    (hothers : ∀ f' ∈ files, f' ≠ f → t.readText (w.target f') = .ok f'.content) :
    (Pipeline.writeAll w.verifying files : StateM FileTree _).run t =
      (.error (.stale (w.target f)), t) := by
  induction files with
  | nil => cases hf
  | cons first files ih =>
    obtain ⟨hfirst, hfiles⟩ := List.forall_mem_cons.mp hothers
    rw [Pipeline.writeAll, run_bind_eq]
    -- The files before the one that differs pass, and those after it are not looked at.
    by_cases heq : first = f
    · subst heq
      rw [Writer.run_write_verifying_of_lacks hlacks]
      rfl
    · have hrest : f ∈ files := List.mem_of_ne_of_mem (Ne.symm heq) hf
      rw [Writer.run_write_verifying (hfirst heq)]
      simp only [run_bind_eq, ih hrest hfiles]
      rfl

variable {o : Outcome}

/-- Checking the cell `o`, of which all files are as they should be, changes nothing and finds
nothing. -/
theorem Outcome.settle_verifying (h : ∀ f ∈ o.files, t.readText (w.target f) = .ok f.content) :
    (o.settle w.verifying : StateM FileTree _).run t = (o.dry w, t) := by
  obtain ⟨cell, e | files⟩ := o
  · rfl
  · have hfiles : (Pipeline.writeAll w.verifying files : StateM FileTree _).run t =
        (.ok (files.map w.target), t) := run_writeAll_verifying h
    simp only [settle, run_bind_eq, hfiles]
    rfl

/-- The result of the cell `o` when the file `f` is stale, and nothing is touched. -/
def Outcome.spoilt (w : Writer) (f : GeneratedFile) (o : Outcome) : CellResult :=
  if f ∈ o.files then ⟨o.cell, .error (.write (.stale (w.target f)))⟩ else o.dry w

/-- Checking the cell `o` in a tree in which the file `f` is not as it should be changes nothing and
finds `f`, if it is one of the cell. -/
theorem Outcome.settle_verifying_of_lacks (hlacks : t.Lacks (w.target f) f.content)
    (hothers : ∀ f' ∈ o.files, f' ≠ f → t.readText (w.target f') = .ok f'.content) :
    (o.settle w.verifying : StateM FileTree _).run t = (o.spoilt w f, t) := by
  by_cases hf : f ∈ o.files
  · rw [spoilt, if_pos hf]
    obtain ⟨files, hresult, hmem⟩ := exists_eq_ok_of_mem_files hf
    rw [files_of_eq_ok hresult] at hothers
    simp only [settle, hresult, run_bind_eq, run_writeAll_verifying_of_lacks hmem hlacks hothers]
    rfl
  · rw [spoilt, if_neg hf]
    exact settle_verifying fun f' hf' => hothers f' hf' fun heq => hf (heq ▸ hf')

/-- Actions that change nothing are traversed without a change. -/
private theorem mapM_run_eq {α β σ : Type} {l : List α} {action : α → StateM σ β} {result : α → β}
    {s : σ} (h : ∀ a ∈ l, (action a).run s = (result a, s)) :
    (l.mapM action).run s = (l.map result, s) := by
  induction l with
  | nil => rfl
  | cons a l ih =>
    obtain ⟨ha, hl⟩ := List.forall_mem_cons.mp h
    rw [List.mapM_cons, run_bind_eq, ha, run_bind_eq, ih hl]
    rfl

end Cells

/-! ### The files of a run -/

section Files

variable {p : Pipeline} {kinds : List Kind} {w : Writer}

/-- The files of a run are of its generators. -/
private theorem generator_mem_of_mem_rendered {o : Outcome} (ho : o ∈ p.rendered kinds)
    {f : GeneratedFile} (hf : f ∈ o.files) : f.generator ∈ p.generators := by
  have hcell := (Pipeline.exists_artifact_of_mem_rendered ho hf).1
  rcases List.mem_append.mp ho with ho | ho
  · obtain ⟨k, -, ho⟩ := List.mem_flatMap.mp ho
    obtain ⟨g, hg, v, -, -, rfl⟩ := Pipeline.mem_kindOutcomes.mp ho
    rw [← (CellId.mk.inj hcell).2.1]
    exact (Pipeline.mem_perKind.mp hg).1
  · obtain ⟨v, -, hg, rfl⟩ := Pipeline.mem_aggregateOutcomes.mp ho
    rw [← (CellId.mk.inj hcell).2.1]
    exact hg

/-- Cells that are the same have files of the same paths. -/
private theorem map_path_eq_of_cell_eq (hnames : (kinds.map (·.name)).Nodup) {o o' : Outcome}
    (ho : o ∈ p.rendered kinds) (ho' : o' ∈ p.rendered kinds) (hcell : o.cell = o'.cell)
    {files files' : List GeneratedFile} (h : o.result = .ok files) (h' : o'.result = .ok files') :
    files.map (·.path) = files'.map (·.path) := by
  rcases List.mem_append.mp ho with ho | ho <;> rcases List.mem_append.mp ho' with ho' | ho'
  · obtain ⟨k, hk, ho⟩ := List.mem_flatMap.mp ho
    obtain ⟨k', hk', ho'⟩ := List.mem_flatMap.mp ho'
    obtain ⟨g, hg, v, -, -, rfl⟩ := Pipeline.mem_kindOutcomes.mp ho
    obtain ⟨g', hg', v', -, -, rfl⟩ := Pipeline.mem_kindOutcomes.mp ho'
    obtain ⟨hname, rfl, hvariant⟩ := CellId.mk.inj hcell
    obtain rfl := List.inj_on_of_nodup_map hnames hk hk' hname
    have hperKind := (Pipeline.mem_perKind.mp hg).2
    obtain ⟨-, -, hpaths⟩ :=
      Pipeline.generate_files hperKind (Pipeline.outcomeOf_eq_ok_iff.mp h).2
    obtain ⟨-, -, hpaths'⟩ :=
      Pipeline.generate_files hperKind (Pipeline.outcomeOf_eq_ok_iff.mp h').2
    rw [hpaths, hpaths', hvariant]
  · obtain ⟨k, -, ho⟩ := List.mem_flatMap.mp ho
    exact absurd hcell (Pipeline.cell_ne_of_mem_aggregateOutcomes ho ho')
  · obtain ⟨k, -, ho'⟩ := List.mem_flatMap.mp ho'
    exact absurd hcell.symm (Pipeline.cell_ne_of_mem_aggregateOutcomes ho' ho)
  · obtain ⟨v, -, -, rfl⟩ := Pipeline.mem_aggregateOutcomes.mp ho
    obtain ⟨v', -, -, rfl⟩ := Pipeline.mem_aggregateOutcomes.mp ho'
    have hvariant : v.id = v'.id := (CellId.mk.inj hcell).2.2
    obtain ⟨content, -, rfl⟩ := Pipeline.aggregateOutcomeOf_eq_ok_iff.mp h
    obtain ⟨content', -, rfl⟩ := Pipeline.aggregateOutcomeOf_eq_ok_iff.mp h'
    simp only [List.map_singleton, Pipeline.finish, hvariant]

/-- That no subdirectory of `p` has a component that leads to the directory above. -/
def Pipeline.Descends (p : Pipeline) : Prop :=
  ∀ g ∈ p.generators, .parent ∉ (p.subdirectoryPath g).components

variable {order : List Outcome} (hdescends : p.Descends) (hnames : (kinds.map (·.name)).Nodup)
  (horder : order.Perm (p.plan kinds).outcomes)
include hdescends hnames horder

omit hnames in
/-- Every file of a run has a place of its own. -/
private theorem places_of_mem_order {f : GeneratedFile} (hf : f ∈ allFiles order) :
    p.Places (w.entry f).cell := by
  obtain ⟨o, ho, hfo⟩ := exists_rendered_of_mem_order horder hf
  exact .inl (Path.not_climbs_of_not_mem
    (hdescends f.generator (generator_mem_of_mem_rendered ho hfo)))

/-- No two files of a run have the same location. -/
theorem nodup_locations (base : Location) :
    ((allFiles order).map fun f => (w.target f).location base).Nodup := by
  have hapart : (allFiles order).Pairwise (Apart w base fun f => p.Places (w.entry f).cell) :=
    pairwise_apart horder hnames
  refine List.pairwise_map.mpr (hapart.imp_of_mem fun {f f'} hf _ h => h (.inl ?_))
  exact places_of_mem_order hdescends horder hf

/-- A file of a run is told by its location. -/
private theorem eq_of_location_eq {base : Location} {f f' : GeneratedFile} (hf : f ∈ allFiles order)
    (hf' : f' ∈ allFiles order)
    (h : (w.target f).location base = (w.target f').location base) : f = f' :=
  List.inj_on_of_nodup_map (nodup_locations hdescends hnames horder base) hf hf' h

/-- Cells that are the same and have files have the same files. -/
private theorem mem_files_of_cell_eq {o o' : Outcome} (ho : o ∈ order) (ho' : o' ∈ order)
    (hcell : o.cell = o'.cell) {f : GeneratedFile} (hf : f ∈ o.files)
    {files : List GeneratedFile} (hfiles : o'.result = .ok files) : f ∈ files := by
  have hrendered {o : Outcome} (ho : o ∈ order) {files : List GeneratedFile}
      (hfiles : o.result = .ok files) :
      ∃ o₀ ∈ p.rendered kinds, o₀.cell = o.cell ∧ o₀.result = .ok files := by
    have hplan := horder.mem_iff.mp ho
    rw [Pipeline.plan_outcomes] at hplan
    obtain ⟨o₀, ho₀, rfl⟩ := List.mem_map.mp hplan
    exact ⟨o₀, ho₀, (Outcome.cell_rejectShared _ _).symm,
      (Outcome.rejectShared_eq_ok_iff.mp hfiles).1⟩
  obtain ⟨own, hown, hmem⟩ := Outcome.exists_eq_ok_of_mem_files hf
  obtain ⟨o₀, ho₀, hcell₀, hresult⟩ := hrendered ho hown
  obtain ⟨o₁, ho₁, hcell₁, hresult'⟩ := hrendered ho' hfiles
  have hpaths : own.map (·.path) = files.map (·.path) :=
    map_path_eq_of_cell_eq hnames ho₀ ho₁ (by rw [hcell₀, hcell₁, hcell]) hresult hresult'
  have hpath : f.path ∈ files.map (·.path) := hpaths ▸ List.mem_map_of_mem hmem
  obtain ⟨f', hf', heq⟩ := List.mem_map.mp hpath
  -- No two files of a run have one location; any output directory will do to see this.
  have hlocation : ((⟨⟨""⟩, .write⟩ : Writer).target f').location [] =
      ((⟨⟨""⟩, .write⟩ : Writer).target f).location [] := by
    rw [Writer.target, Writer.target, heq]
  have hsame : f' = f := eq_of_location_eq hdescends hnames horder
    (mem_allFiles.mpr ⟨o', ho', Outcome.files_of_eq_ok hfiles ▸ hf'⟩)
    (mem_allFiles.mpr ⟨o, ho, hf⟩) hlocation
  exact hsame ▸ hf'

end Files

/-! ### Trees that are up to date -/

/-- That `t` has all the files of a run of `p` over `kinds`, which has no failures. -/
structure Pipeline.UpToDate (p : Pipeline) (w : Writer) (kinds : List Kind) (t : FileTree) :
    Prop where
  /-- No kind is left out of an index. -/
  included : (p.plan kinds).excluded = []
  /-- Every cell has files. -/
  complete : ∀ o ∈ (p.plan kinds).outcomes, ∃ files, o.result = .ok files
  /-- Every file is where it should be. -/
  written : ∀ f ∈ allFiles (p.plan kinds).outcomes, t.readText (w.target f) = .ok f.content

/-- Results of which none is a failure are those of cells that have all their files. -/
private theorem results_eq_of_failures_eq_nil {w : Writer} {outcomes : List Outcome}
    {results : List CellResult} (h : List.Forall₂ (Outcome.Settles w) outcomes results)
    (hsuccess : results.flatMap CellResult.failures = []) :
    results = outcomes.map (Outcome.dry w) ∧ ∀ o ∈ outcomes, ∃ files, o.result = .ok files := by
  induction h with
  | nil => exact ⟨rfl, List.forall_mem_nil _⟩
  | @cons o r outcomes results hsettles _ ih =>
    obtain ⟨hr, hresults⟩ := List.append_eq_nil_iff.mp hsuccess
    obtain ⟨heq, hall⟩ := ih hresults
    obtain ⟨cell, e | files⟩ := o
    · rw [CellResult.failures, show r.result = .error e from hsettles.2] at hr
      cases hr
    · obtain hok | ⟨e, herror⟩ := hsettles.2
      · have hdry : r = Outcome.dry w ⟨cell, .ok files⟩ := by
          obtain ⟨cell', result⟩ := r
          obtain rfl : cell' = cell := hsettles.1
          obtain rfl : result = _ := hok
          rfl
        exact ⟨by rw [hdry, heq, List.map_cons], List.forall_mem_cons.mpr ⟨⟨files, rfl⟩, hall⟩⟩
      · rw [CellResult.failures, herror] at hr
        cases hr

namespace Pipeline

variable {p : Pipeline} {kinds : List Kind} {w : Writer} {t : FileTree}

/-- A cell that has files has an entry for each, if nothing is touched. -/
private theorem written_dry {o : Outcome} {files : List GeneratedFile} (h : o.result = .ok files) :
    (o.dry w).written = files.map fun f => ⟨o.cell, w.target f⟩ := by
  obtain ⟨cell, result⟩ := o
  obtain rfl : result = .ok files := h
  exact List.map_map

/-- A cell that has files has no failure, if nothing is touched. -/
private theorem failures_dry {o : Outcome} {files : List GeneratedFile} (h : o.result = .ok files) :
    (o.dry w).failures = [] := by
  obtain ⟨cell, result⟩ := o
  obtain rfl : result = .ok files := h
  rfl

/-- The cells of a run that is up to date have no failures. -/
private theorem UpToDate.failures_dry (h : p.UpToDate w kinds t) {order : List Outcome}
    (horder : order.Perm (p.plan kinds).outcomes) :
    (order.map (Outcome.dry w)).flatMap CellResult.failures = [] := by
  rw [List.flatMap_map, List.flatMap_eq_nil_iff]
  intro o ho
  obtain ⟨files, hfiles⟩ := h.complete o (horder.mem_iff.mp ho)
  exact Pipeline.failures_dry hfiles

/-- In whatever order the cells of a run that is up to date are settled, what is reported is what a
dry run reports. -/
private theorem UpToDate.sorted_reportOf_dry (h : p.UpToDate w kinds t)
    (hnames : (kinds.map (·.name)).Nodup) {order : List Outcome}
    (horder : order.Perm (p.plan kinds).outcomes) :
    ((p.plan kinds).reportOf (order.map (Outcome.dry w))).sorted =
      (p.plan kinds).dryReport w := by
  refine Plan.sorted_reportOf_eq_of_perm (horder.map _) (.refl _) (.refl _)
    (fun e he e' he' => eq_of_mem_written horder hnames (forall₂_settles_dry w order) he he') ?_ ?_
  · rw [h.included]
    exact List.forall_mem_nil _
  · rw [h.failures_dry horder]
    exact List.forall_mem_nil _

/-- A run that writes and succeeds leaves a tree that is up to date, and reports what a dry run
reports, whatever `order` it takes. -/
theorem upToDate_of_isSuccess (hmode : w.mode = .write) (hdescends : p.Descends)
    (hnames : (kinds.map (·.name)).Nodup) {order : List Outcome}
    (horder : order.Perm (p.plan kinds).outcomes) {report : Report} {after : FileTree}
    (hrun : (p.runInOrder w kinds order : StateM FileTree Report).run t = (report, after))
    (hsuccess : report.isSuccess = true) :
    p.UpToDate w kinds after ∧ report = (p.plan kinds).dryReport w := by
  rw [runInOrder_eq, StateT.run_map] at hrun
  obtain ⟨rfl, rfl⟩ := Prod.mk.inj hrun
  have hsettles := forall₂_mapM_run (fun o s => settles_settle (w := w) o s) order t
  set results := ((order.mapM (Outcome.settle w) : StateM FileTree _).run t).1
  set after := ((order.mapM (Outcome.settle w) : StateM FileTree _).run t).2
  have hfailures : (p.plan kinds).excluded ++ results.flatMap CellResult.failures = [] := by
    rw [Report.isSuccess_sorted, Report.isSuccess, List.isEmpty_iff] at hsuccess
    exact hsuccess
  obtain ⟨hexcluded, hfailed⟩ := List.append_eq_nil_iff.mp hfailures
  obtain ⟨hdry, hcomplete⟩ : results = order.map (Outcome.dry w) ∧
      ∀ o ∈ order, ∃ files, o.result = .ok files :=
    results_eq_of_failures_eq_nil hsettles hfailed
  have hupToDate : p.UpToDate w kinds after := {
    included := hexcluded
    complete := fun o ho => hcomplete o (horder.mem_iff.mpr ho)
    written := by
      intro f hf
      have hmem : f ∈ allFiles order := (horder.flatMap_right _).mem_iff.mpr hf
      obtain ⟨o, ho, hfo⟩ := mem_allFiles.mp hmem
      obtain ⟨files, hfiles⟩ := hcomplete o ho
      have hentry : ⟨o.cell, w.target f⟩ ∈ results.flatMap CellResult.written := by
        rw [hdry]
        refine List.mem_flatMap.mpr ⟨o.dry w, List.mem_map_of_mem ho, ?_⟩
        rw [written_dry hfiles]
        exact List.mem_map_of_mem (Outcome.files_of_eq_ok hfiles ▸ hfo)
      -- What is there is the content of the file that the run put there, which is no other one.
      obtain ⟨o', ho', -, f', hf', htarget, hholds⟩ :=
        holds_of_mem_written hmode (pairwise_apart horder hnames) rfl hentry
      have hmem' : f' ∈ allFiles order := mem_allFiles.mpr ⟨o', ho', hf'⟩
      obtain rfl : f' = f := eq_of_location_eq hdescends hnames horder hmem' hmem
        (congrArg (Path.location t.base) htarget)
      exact (hholds (places_of_mem_order hdescends horder hmem')).2 }
  exact ⟨hupToDate, by rw [← hupToDate.sorted_reportOf_dry hnames horder, ← hdry]⟩

/-- A run that checks a tree that is up to date changes nothing and reports what a dry run
reports. -/
private theorem UpToDate.run_verifying (h : p.UpToDate w kinds t)
    (hnames : (kinds.map (·.name)).Nodup) {order : List Outcome}
    (horder : order.Perm (p.plan kinds).outcomes) :
    (p.runInOrder w.verifying kinds order : StateM FileTree Report).run t =
      ((p.plan kinds).dryReport w, t) := by
  have hsettle : ∀ o ∈ order,
      (o.settle w.verifying : StateM FileTree _).run t = (o.dry w, t) := fun o ho =>
    Outcome.settle_verifying fun f hf =>
      h.written f (mem_allFiles.mpr ⟨o, horder.mem_iff.mp ho, hf⟩)
  rw [runInOrder_eq, StateT.run_map, mapM_run_eq hsettle]
  exact congrArg (·, t) (h.sorted_reportOf_dry hnames horder)

section Tampered

variable (h : p.UpToDate w kinds t) (hdescends : p.Descends)
  (hnames : (kinds.map (·.name)).Nodup) {order : List Outcome}
  (horder : order.Perm (p.plan kinds).outcomes) {f : GeneratedFile} (hf : f ∈ allFiles order)
include h hdescends hnames horder hf

/-- When a file is stale, the files of all other cells are reported. -/
private theorem UpToDate.written_spoilt :
    (order.map (Outcome.spoilt w f)).flatMap CellResult.written =
      ((order.map (Outcome.dry w)).flatMap CellResult.written).filter
        (·.cell != (w.entry f).cell) := by
  obtain ⟨owner, howner, hfowner⟩ := mem_allFiles.mp hf
  rw [List.filter_flatMap, List.flatMap_map, List.flatMap_map]
  refine List.flatMap_congr fun o ho => ?_
  have hcell : ∀ e ∈ (o.dry w).written, e.cell = o.cell :=
    fun e he => CellResult.cell_of_mem_written he
  have howner' : owner.cell = (w.entry f).cell := cell_of_mem_files horder howner hfowner
  by_cases hmem : f ∈ o.files
  · have hnone : (o.dry w).written.filter (·.cell != (w.entry f).cell) = [] := by
      refine List.filter_eq_nil_iff.mpr fun e he => ?_
      rw [hcell e he, cell_of_mem_files horder ho hmem]
      simp [Writer.entry]
    rw [Outcome.spoilt, if_pos hmem, hnone]
    rfl
  · -- A cell without the file is another one than that of the file, as that has all its files.
    obtain ⟨files, hfiles⟩ := h.complete o (horder.mem_iff.mp ho)
    have hother : o.cell ≠ (w.entry f).cell := by
      intro heq
      refine hmem ?_
      rw [Outcome.files_of_eq_ok hfiles]
      exact mem_files_of_cell_eq hdescends hnames horder howner ho (howner'.trans heq.symm)
        hfowner hfiles
    have hall : (o.dry w).written.filter (·.cell != (w.entry f).cell) = (o.dry w).written := by
      refine List.filter_eq_self.mpr fun e he => ?_
      rw [hcell e he]
      exact bne_iff_ne.mpr hother
    rw [Outcome.spoilt, if_neg hmem, hall]

/-- When a file is stale, its cell fails, and no other. -/
private theorem UpToDate.failures_spoilt :
    (order.map (Outcome.spoilt w f)).flatMap CellResult.failures =
      [⟨(w.entry f).cell, .write (.stale (w.target f))⟩] := by
  obtain ⟨owner, howner, hfowner⟩ := mem_allFiles.mp hf
  have hcell : owner.cell = (w.entry f).cell := cell_of_mem_files horder howner hfowner
  obtain ⟨before, after, hsplit⟩ := List.append_of_mem howner
  have hnodup : (allFiles (owner :: (before ++ after))).Nodup := by
    have hperm : (owner :: (before ++ after)).Perm order := hsplit ▸ List.perm_middle.symm
    exact (hperm.flatMap_right _).nodup_iff.mpr
      (nodup_locations (w := w) hdescends hnames horder t.base).of_map
  have hnone {part : List Outcome} (hpart : part.Sublist (before ++ after)) :
      (part.map (Outcome.spoilt w f)).flatMap CellResult.failures = [] := by
    rw [List.flatMap_map, List.flatMap_eq_nil_iff]
    intro o ho
    have hrest : o ∈ before ++ after := hpart.subset ho
    have hnotMem : f ∉ o.files := fun hfo =>
      (List.nodup_append.mp hnodup).2.2 f hfowner f (mem_allFiles.mpr ⟨o, hrest, hfo⟩) rfl
    have hmem : o ∈ order := by
      rw [hsplit, List.mem_append, List.mem_cons]
      rcases List.mem_append.mp hrest with ho | ho
      · exact .inl ho
      · exact .inr (.inr ho)
    obtain ⟨files, hfiles⟩ := h.complete o (horder.mem_iff.mp hmem)
    rw [Outcome.spoilt, if_neg hnotMem, Pipeline.failures_dry hfiles]
  rw [hsplit, List.map_append, List.map_cons, List.flatMap_append, List.flatMap_cons,
    hnone (List.sublist_append_left _ _), hnone (List.sublist_append_right _ _),
    Outcome.spoilt, if_pos hfowner, ← hcell]
  rfl

/-- A run that checks a tree in which one file was removed or replaced changes nothing and reports
that the file is stale, and all files of other cells. -/
private theorem UpToDate.run_verifying_of_tampered {t' : FileTree}
    (htampered : t.Tampered (w.target f) t') :
    (p.runInOrder w.verifying kinds order : StateM FileTree Report).run t' =
      ({ written := ((p.plan kinds).dryReport w).written.filter (·.cell != (w.entry f).cell)
         failures := [⟨(w.entry f).cell, .write (.stale (w.target f))⟩]
         skipped := ((p.plan kinds).dryReport w).skipped }, t') := by
  have hread : t.readText (w.target f) = .ok f.content :=
    h.written f ((horder.flatMap_right _).mem_iff.mp hf)
  -- Checking leaves the tree alone, so every cell is checked against the same one.
  have hsettle : ∀ o ∈ order,
      (o.settle w.verifying : StateM FileTree _).run t' = (o.spoilt w f, t') := by
    intro o ho
    refine Outcome.settle_verifying_of_lacks (htampered.lacks hread) fun f' hf' hne => ?_
    have hmem : f' ∈ allFiles order := mem_allFiles.mpr ⟨o, ho, hf'⟩
    refine htampered.readText_of_ne hread (fun heq => hne ?_)
      (h.written f' ((horder.flatMap_right _).mem_iff.mp hmem))
    exact eq_of_location_eq hdescends hnames horder hmem hf heq
  rw [runInOrder_eq, StateT.run_map, mapM_run_eq hsettle,
    ← h.sorted_reportOf_dry hnames horder]
  have hwritten : ((p.plan kinds).reportOf (order.map (Outcome.spoilt w f))).sorted.written =
      ((p.plan kinds).reportOf (order.map (Outcome.dry w))).sorted.written.filter
        (·.cell != (w.entry f).cell) := by
    simp only [Report.sorted, Plan.reportOf]
    rw [h.written_spoilt hdescends hnames horder hf, filter_mergeSort_isLE]
  have hfailures : ((p.plan kinds).reportOf (order.map (Outcome.spoilt w f))).sorted.failures =
      [⟨(w.entry f).cell, .write (.stale (w.target f))⟩] := by
    simp only [Report.sorted, Plan.reportOf]
    rw [h.included, h.failures_spoilt hdescends hnames horder hf, List.nil_append,
      List.mergeSort_singleton]
  exact congrArg (·, t') (congr (congrArg₂ Report.mk hwritten hfailures) rfl)

end Tampered

end Pipeline

/-- What a run of `p` over `kinds` has written is up to date. If a run that writes succeeds, a run
that checks gives the same report, in whatever order the two take the cells, and leaves the tree as
it is. After one of the files was removed or got another text, the check fails in the cell of the
file, because the file is stale, and in no other cell. -/
theorem verify_written {p : Pipeline} {kinds : List Kind} {w : Writer} (hmode : w.mode = .write)
    (hdescends : p.Descends) (hnames : (kinds.map (·.name)).Nodup) {order order' : List Outcome}
    (horder : order.Perm (p.plan kinds).outcomes) (horder' : order'.Perm (p.plan kinds).outcomes)
    {t after : FileTree} {report : Report}
    (hrun : (p.runInOrder w kinds order : StateM FileTree Report).run t = (report, after))
    (hsuccess : report.isSuccess = true) :
    (p.runInOrder w.verifying kinds order' : StateM FileTree Report).run after = (report, after) ∧
      ∀ e ∈ report.written, ∀ tampered, after.Tampered e.path tampered →
        (p.runInOrder w.verifying kinds order' : StateM FileTree Report).run tampered =
          ({ written := report.written.filter (·.cell != e.cell)
             failures := [⟨e.cell, .write (.stale e.path)⟩]
             skipped := report.skipped }, tampered) := by
  obtain ⟨hupToDate, rfl⟩ :=
    Pipeline.upToDate_of_isSuccess hmode hdescends hnames horder hrun hsuccess
  refine ⟨hupToDate.run_verifying hnames horder', fun e he tampered htampered => ?_⟩
  have hsublist := written_sublist (forall₂_settles_dry w order')
    fun o ho f hf => cell_of_mem_files horder' ho hf
  rw [← hupToDate.sorted_reportOf_dry hnames horder',
    (Report.written_sorted_perm _).mem_iff] at he
  obtain ⟨f, hf, rfl⟩ := List.mem_map.mp (hsublist.subset he)
  exact hupToDate.run_verifying_of_tampered hdescends hnames horder' hf htampered

namespace Sample

/-- The small run over an empty directory is up to date, until the module of a kind is emptied. -/
theorem verify_folder :
    below.mode = .write ∧ typeScript.Descends ∧ ([folder].map (·.name)).Nodup ∧
      ∃ report after,
        (typeScript.run below [folder] : StateM FileTree Report).run (.empty []) =
          (report, after) ∧ report.isSuccess = true ∧
        (typeScript.run below.verifying [folder] : StateM FileTree Report).run after =
          (report, after) ∧
        ∃ e ∈ report.written, ∃ tampered, after.Tampered e.path tampered ∧
          (typeScript.run below.verifying [folder] : StateM FileTree Report).run tampered =
            ({ written := report.written.filter (·.cell != e.cell)
               failures := [⟨e.cell, .write (.stale e.path)⟩]
               skipped := report.skipped }, tampered) := by
  have hmode : below.mode = .write := rfl
  have hdescends : typeScript.Descends := by
    intro g _
    cases g <;> decide
  have hnames : ([folder].map (·.name)).Nodup := List.nodup_singleton _
  -- The module of the kind is one of the written files, and it is not empty.
  let e : WrittenFile := ⟨⟨"Folder", .tsTypes, .noParams⟩,
    ⟨"out/folder_TSTypesJenny_NoParams/folder/folder_types.gen.ts"⟩⟩
  obtain ⟨results, after, hsettled⟩ : ∃ results after,
      ((typeScript.plan [folder]).outcomes.mapM (Outcome.settle below) :
        StateM FileTree _).run (.empty []) = (results, after) := ⟨_, _, Prod.mk.eta.symm⟩
  have hevaluated :
      let settled := ((typeScript.plan [folder]).outcomes.mapM (Outcome.settle below) :
        StateM FileTree _).run (.empty [])
      (typeScript.plan [folder]).excluded = [] ∧
        settled.1.flatMap CellResult.failures = [] ∧ e ∈ settled.1.flatMap CellResult.written ∧
        e.path.location settled.2.base ≠ [] ∧
        (settled.2.readText e.path).toOption ≠ some "" := by
    decide +kernel
  simp only [hsettled] at hevaluated
  obtain ⟨hexcluded, hfailed, hentry, hbelow, hfull⟩ := hevaluated
  have hrun : (typeScript.runInOrder below [folder] (typeScript.plan [folder]).outcomes :
      StateM FileTree Report).run (.empty []) =
        (((typeScript.plan [folder]).reportOf results).sorted, after) := by
    rw [Pipeline.runInOrder_eq, StateT.run_map, hsettled]
    rfl
  have hsuccess : ((typeScript.plan [folder]).reportOf results).sorted.isSuccess = true := by
    rw [Report.isSuccess_sorted, Report.isSuccess, Plan.reportOf, hexcluded, hfailed]
    rfl
  have he : e ∈ ((typeScript.plan [folder]).reportOf results).sorted.written :=
    (Report.written_sorted_perm _).mem_iff.mpr hentry
  have htampered := FileTree.tampered_put "" hbelow fun h => hfull (by rw [h]; rfl)
  obtain ⟨hverified, hstale⟩ :=
    verify_written hmode hdescends hnames (.refl _) (.refl _) hrun hsuccess
  simp only [Pipeline.run_eq_runInOrder]
  exact ⟨hmode, hdescends, hnames, _, after, hrun, hsuccess, hverified, e, he, _, htampered,
    hstale e he _ htampered⟩

end Sample

end KindSchema
