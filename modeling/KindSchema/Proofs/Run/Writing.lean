import KindSchema.Proofs.Files.FileTree
import KindSchema.Proofs.Run.Outcomes
import KindSchema.Proofs.Run.Reports

/-!
# Written files

What a run leaves in a tree of files, in whatever order it takes the cells.

* `KeepsState`: the actions that keep what holds of the state; a file stays what it is while files
  are written at other locations (`Writer.keepsState_write`).
* `location_target_eq_iff`: when two files of a run have the same location.
* `runInOrder_written`: the paths that a run reports, and what can be read there in the end.
-/

namespace KindSchema

/-! ### Actions that keep what holds of the state -/

/-- That `action` keeps what `holds` says of the state. -/
def KeepsState {σ α : Type} (holds : σ → Prop) (action : StateM σ α) : Prop :=
  ∀ s, holds s → holds (action.run s).2

namespace KeepsState

variable {σ α β : Type} {holds : σ → Prop}

theorem pure (a : α) : KeepsState holds (Pure.pure a : StateM σ α) :=
  fun _ h => h

theorem bind {action : StateM σ α} {next : α → StateM σ β} (haction : KeepsState holds action)
    (hnext : ∀ a, KeepsState holds (next a)) : KeepsState holds (action >>= next) :=
  fun s h => hnext _ _ (haction s h)

theorem map {action : StateM σ α} (f : α → β) (haction : KeepsState holds action) :
    KeepsState holds (f <$> action) :=
  fun s h => haction s h

theorem mapM {l : List α} {f : α → StateM σ β} (h : ∀ a ∈ l, KeepsState holds (f a)) :
    KeepsState holds (l.mapM f) := by
  induction l with
  | nil => exact pure []
  | cons a l ih =>
    obtain ⟨ha, hl⟩ := List.forall_mem_cons.mp h
    rw [List.mapM_cons]
    exact bind ha fun _ => bind (ih hl) fun _ => pure _

end KeepsState

section Reading

variable {holds : FileTree → Prop} (path : Path)

/-- To read a file changes nothing. -/
theorem keepsState_readText : KeepsState holds (FileStore.readText path : StateM FileTree _) :=
  fun _ h => h

/-- To ask for a directory changes nothing. -/
theorem keepsState_isDirectory :
    KeepsState holds (FileStore.isDirectory path : StateM FileTree _) :=
  fun _ h => h

/-- To list a directory changes nothing. -/
theorem keepsState_entryNames :
    KeepsState holds (FileStore.entryNames path : StateM FileTree _) :=
  fun _ h => h

end Reading

/-! ### Single files -/

variable {w : Writer} {base : Location}

/-- That `path` has the content `content` in `t`, seen from the working directory `base`. -/
def FileTree.Holds (base : Location) (path : Path) (content : String) (t : FileTree) : Prop :=
  t.base = base ∧ t.readText path = .ok content

namespace Writer

variable {path : Path} {content text : String} {file : GeneratedFile}

/-- To put a file at `path` is to make directories and to write it, unless the directories fail. -/
theorem exists_put_run (path : Path) (content : String) (t : FileTree) :
    ∃ made : FileTree, t.ChangedOnly (fun _ => False) made ∧
      ((∃ e, (put path content : StateM FileTree _).run t = (.error e, made)) ∨
        (put path content : StateM FileTree _).run t =
          ((made.writeText path content).1.mapError (.io path),
            (made.writeText path content).2)) := by
  have hmake (directory : Path) : (FileStore.makeDirectories directory : StateM FileTree _).run t =
      t.makeDirectories directory := rfl
  have hwrite (made : FileTree) : (FileStore.writeText path content : StateM FileTree _).run made =
      made.writeText path content := rfl
  unfold put
  cases path.parent? with
  | none =>
    refine ⟨t, .refl _ _, .inr ?_⟩
    simp only [pure_bind, run_bind_eq, hwrite]
    rcases t.writeText path content with ⟨e | _, after⟩ <;> rfl
  | some directory =>
    refine ⟨(t.makeDirectories directory).2, FileTree.changedOnly_makeDirectories, ?_⟩
    simp only [run_bind_eq, hmake]
    rcases t.makeDirectories directory with ⟨e | _, made⟩
    · exact .inl ⟨_, rfl⟩
    · refine .inr ?_
      simp only [run_bind_eq, hwrite]
      rcases made.writeText path content with ⟨e | _, after⟩ <;> rfl

/-- To put a file does not change the working directory. -/
private theorem keepsState_base_put :
    KeepsState (·.base = base) (put path content : StateM FileTree _) := by
  rintro t rfl
  obtain ⟨made, hmade, ⟨e, hrun⟩ | hrun⟩ := exists_put_run path content t
  · rw [hrun]
    exact hmade.base_eq
  · rw [hrun]
    exact FileTree.base_writeText.trans hmade.base_eq

/-- A file that is put at one location leaves what is at others. -/
private theorem keepsState_put {q : Path} (hne : q.location base ≠ path.location base) :
    KeepsState (FileTree.Holds base q text) (put path content : StateM FileTree _) := by
  rintro t ⟨rfl, hread⟩
  obtain ⟨made, hmade, ⟨e, hrun⟩ | hrun⟩ := exists_put_run path content t
  · rw [hrun]
    exact ⟨hmade.base_eq, hmade.readText hread⟩
  · rw [hrun]
    refine ⟨FileTree.base_writeText.trans hmade.base_eq, ?_⟩
    exact FileTree.readText_writeText_of_ne (hmade.readText hread) (hmade.base_eq ▸ hne)

/-- A file that is put is there. -/
private theorem holds_put {t : FileTree} (hbase : t.base = base)
    (h : ((put path content : StateM FileTree _).run t).1 = .ok ()) :
    ((put path content : StateM FileTree _).run t).2.Holds base path content := by
  obtain ⟨made, hmade, ⟨e, hrun⟩ | hrun⟩ := exists_put_run path content t
  · rw [hrun] at h
    cases h
  · rw [hrun] at h ⊢
    exact ⟨FileTree.base_writeText.trans (hmade.base_eq.trans hbase),
      FileTree.readText_writeText_self (mapError_eq_ok.mp h)⟩

/-- To write a file does not change the working directory. -/
private theorem keepsState_base_write (hmode : w.mode = .write) :
    KeepsState (·.base = base) (w.write file : StateM FileTree _) := by
  rw [write_eq, perform, hmode]
  exact keepsState_base_put.map _

/-- The file `file` that is written at one location leaves what is at others. -/
theorem keepsState_write {q : Path} (hmode : w.mode = .write)
    (hne : q.location base ≠ (w.target file).location base) :
    KeepsState (FileTree.Holds base q text) (w.write file : StateM FileTree _) := by
  rw [write_eq, perform, hmode]
  exact (keepsState_put hne).map _

/-- A file that is written is there. -/
private theorem holds_write {t : FileTree} (hmode : w.mode = .write) (hbase : t.base = base)
    {path : Path} (h : ((w.write file : StateM FileTree _).run t).1 = .ok path) :
    ((w.write file : StateM FileTree _).run t).2.Holds base (w.target file) file.content := by
  have hput := (Pipeline.write_eq_ok h).1
  rw [Pipeline.write_run_snd]
  rw [perform, hmode] at hput ⊢
  exact holds_put hbase hput

end Writer

/-! ### The files of cells -/

section Keeping

variable {holds : FileTree → Prop}

/-- Writing files keeps what writing each of them keeps. -/
private theorem keepsState_writeAll {files : List GeneratedFile}
    (h : ∀ f ∈ files, KeepsState holds (w.write f : StateM FileTree _)) :
    KeepsState holds (Pipeline.writeAll w files : StateM FileTree _) := by
  induction files with
  | nil => exact .pure _
  | cons file files ih =>
    obtain ⟨hfile, hfiles⟩ := List.forall_mem_cons.mp h
    refine .bind hfile fun done => ?_
    cases done with
    | error e => exact .pure _
    | ok path =>
      refine .bind (ih hfiles) fun rest => ?_
      cases rest <;> exact .pure _

/-- Settling `o` keeps what writing each of its files keeps. -/
theorem keepsState_settle {o : Outcome}
    (h : ∀ f ∈ o.files, KeepsState holds (w.write f : StateM FileTree _)) :
    KeepsState holds (o.settle w : StateM FileTree _) := by
  unfold Outcome.settle
  split
  · exact .pure _
  · next files hfiles =>
    rw [Outcome.files_of_eq_ok hfiles] at h
    exact .bind (keepsState_writeAll h) fun _ => .pure _

end Keeping

section Cells

/-- That `f` and `f'`, one of which is well placed, have different locations. -/
def Apart (w : Writer) (base : Location) (placed : GeneratedFile → Prop) (f f' : GeneratedFile) :
    Prop :=
  placed f ∨ placed f' → (w.target f).location base ≠ (w.target f').location base

variable {placed : GeneratedFile → Prop} (hmode : w.mode = .write)
include hmode

/-- When the files of a cell have all been written, those that are well placed are there. -/
private theorem holds_writeAll {files : List GeneratedFile}
    (hapart : files.Pairwise (Apart w base placed)) {t after : FileTree} {paths : List Path}
    (hbase : t.base = base)
    (h : (Pipeline.writeAll w files : StateM FileTree _).run t = (.ok paths, after))
    {f : GeneratedFile} (hf : f ∈ files) (hplaced : placed f) :
    after.Holds base (w.target f) f.content := by
  induction files generalizing t paths with
  | nil => cases hf
  | cons file files ih =>
    obtain ⟨path, middle, rest, hwrite, hrest, -⟩ := Pipeline.writeAll_cons_eq_ok h
    obtain ⟨hfile, hfiles⟩ := List.pairwise_cons.mp hapart
    have hmiddle : middle = ((w.write file : StateM FileTree _).run t).2 := by rw [hwrite]
    have hafter : after = ((Pipeline.writeAll w files : StateM FileTree _).run middle).2 := by
      rw [hrest]
    rcases List.mem_cons.mp hf with rfl | hf
    · -- What is written first is kept by the files after it.
      rw [hafter]
      refine keepsState_writeAll (fun f' hf' => Writer.keepsState_write hmode ?_) middle ?_
      · exact hfile f' hf' (.inl hplaced)
      · rw [hmiddle]
        exact Writer.holds_write hmode hbase (congrArg Prod.fst hwrite)
    · exact ih hfiles (hmiddle ▸ Writer.keepsState_base_write hmode t hbase) hrest hf

omit hmode in
/-- An entry for a cell means that all its files have been written. -/
private theorem exists_writeAll_of_mem_written {o : Outcome} {t : FileTree} {e : WrittenFile}
    (he : e ∈ ((o.settle w : StateM FileTree _).run t).1.written) :
    o.cell = e.cell ∧ ∃ files, o.result = .ok files ∧ ∃ f ∈ files, w.target f = e.path ∧
      (Pipeline.writeAll w files : StateM FileTree _).run t =
        (.ok (files.map w.target), ((o.settle w : StateM FileTree _).run t).2) := by
  obtain ⟨cell, error | files⟩ := o
  · cases he
  · have hrun : (Outcome.settle w ⟨cell, .ok files⟩ : StateM FileTree _).run t =
        (⟨cell, ((Pipeline.writeAll w files : StateM FileTree _).run t).1.mapError .write⟩,
          ((Pipeline.writeAll w files : StateM FileTree _).run t).2) := rfl
    rw [hrun] at he ⊢
    -- Only a cell of which all files are written has entries, and these are its files.
    rcases hdone : (Pipeline.writeAll w files : StateM FileTree _).run t with ⟨error | paths, after⟩
    · rw [hdone] at he
      cases he
    · obtain rfl := Pipeline.eq_map_target_of_writeAll (congrArg Prod.fst hdone)
      rw [hdone] at he
      obtain ⟨path, hpath, rfl⟩ := List.mem_map.mp he
      obtain ⟨f, hf, htarget⟩ := List.mem_map.mp hpath
      exact ⟨rfl, files, rfl, f, hf, htarget, hdone⟩

/-- In whatever `order` outcomes are settled, the files that are reported as written and are well
placed are there in the end. -/
theorem holds_of_mem_written {order : List Outcome}
    (hapart : (allFiles order).Pairwise (Apart w base placed)) {t : FileTree}
    (hbase : t.base = base) {e : WrittenFile}
    (he : e ∈ ((order.mapM (Outcome.settle w) : StateM FileTree _).run t).1.flatMap
      CellResult.written) :
    ∃ o ∈ order, o.cell = e.cell ∧ ∃ f ∈ o.files, w.target f = e.path ∧
      (placed f → ((order.mapM (Outcome.settle w) : StateM FileTree _).run t).2.Holds base e.path
        f.content) := by
  induction order generalizing t with
  | nil => cases he
  | cons o order ih =>
    rw [allFiles, List.flatMap_cons, List.pairwise_append] at hapart
    obtain ⟨hown, hothers, hbetween⟩ := hapart
    have hrun : ((o :: order).mapM (Outcome.settle w) : StateM FileTree _).run t =
        let middle := ((o.settle w : StateM FileTree _).run t).2
        (((o.settle w : StateM FileTree _).run t).1 ::
            ((order.mapM (Outcome.settle w) : StateM FileTree _).run middle).1,
          ((order.mapM (Outcome.settle w) : StateM FileTree _).run middle).2) := by
      rw [List.mapM_cons]
      rfl
    rw [hrun] at he ⊢
    rcases List.mem_append.mp he with he | he
    · obtain ⟨hcell, files, hfiles, f, hf, htarget, hwritten⟩ := exists_writeAll_of_mem_written he
      have hfo : f ∈ o.files := Outcome.files_of_eq_ok hfiles ▸ hf
      refine ⟨o, List.mem_cons_self, hcell, f, hfo, htarget, fun hplaced => ?_⟩
      -- What the cell has left is kept by all later cells.
      refine KeepsState.mapM (fun o' ho' => keepsState_settle fun f' hf' =>
        Writer.keepsState_write hmode ?_) _ ?_
      · rw [← htarget]
        exact hbetween f hfo f' (mem_allFiles.mpr ⟨o', ho', hf'⟩) (.inl hplaced)
      · rw [← htarget]
        refine holds_writeAll hmode ?_ hbase hwritten hf hplaced
        exact Outcome.files_of_eq_ok hfiles ▸ hown
    · have hmiddle : ((o.settle w : StateM FileTree _).run t).2.base = base :=
        keepsState_settle (fun _ _ => Writer.keepsState_base_write hmode) t hbase
      obtain ⟨o', ho', hexists⟩ := ih hothers hmiddle he
      exact ⟨o', List.mem_cons_of_mem _ ho', hexists⟩

end Cells

/-! ### The locations of the files of a plan -/

section Locations

variable {p : Pipeline} {kinds : List Kind} {o o' : Outcome} {f f' : GeneratedFile}
  {a a' : Artifact}

private theorem GeneratedFile.IsArtifact.fileName?_target (h : f.IsArtifact p a) :
    (w.target f).fileName? = some a.fileName := by
  refine Path.fileName?_join ?_
  rw [h.path_eq, h.proper.fileName?_path]

theorem GeneratedFile.IsArtifact.location_target_eq_iff (h : f.IsArtifact p a)
    (h' : f'.IsArtifact p a') : (w.target f).location base = (w.target f').location base ↔
      a = a' ∧ (f.variant = f'.variant ∨ (p.subdirectoryPath a.generator).isAbsolute = true ∨
        (p.subdirectoryPath a.generator).Climbs) := by
  rw [Writer.target, Writer.target, Path.location_join, Path.location_join, h.path_eq, h'.path_eq,
    Artifact.location_eq_iff h.proper h'.proper]

/-- The files `f` and `f'` of a run belong to the same artifact if and only if they have the same
kind, generator and file name. -/
theorem artifact_eq_iff (hnames : (kinds.map (·.name)).Nodup) (h : f.IsArtifact p a)
    (hbelongs : a.BelongsTo kinds f.kind) (h' : f'.IsArtifact p a')
    (hbelongs' : a'.BelongsTo kinds f'.kind) : a = a' ↔
      f.kind = f'.kind ∧ f.generator = f'.generator ∧
        (w.target f).fileName? = (w.target f').fileName? := by
  rw [h.generator_eq, h'.generator_eq, h.fileName?_target, h'.fileName?_target, Option.some.injEq]
  constructor
  · rintro rfl
    exact ⟨(hbelongs.machineName_eq_iff hnames hbelongs' rfl).mp rfl, rfl, rfl⟩
  · rintro ⟨hkind, hgenerator, hfileName⟩
    -- A kind may have a file of its own and the index; the generator tells which one this is.
    have haggregate : a.machineName.isNone = a'.machineName.isNone := by
      rw [← h.proper.isAggregate_eq, ← h'.proper.isAggregate_eq, hgenerator]
    have hmachine := (hbelongs.machineName_eq_iff hnames hbelongs' haggregate).mpr hkind
    obtain ⟨g, m, n⟩ := a
    obtain ⟨g', m', n'⟩ := a'
    cases hgenerator
    cases hfileName
    cases hmachine
    rfl

/-- The files `f` and `f'` of a run with different paths have the same location if and only if they
are the same file in two variants, in a subdirectory that climbs. -/
theorem location_target_eq_iff (hnames : (kinds.map (·.name)).Nodup) (ho : o ∈ p.rendered kinds)
    (ho' : o' ∈ p.rendered kinds) (hf : f ∈ o.files) (hf' : f' ∈ o'.files)
    (hdistinct : f.path.same f'.path = false) :
    (w.target f).location base = (w.target f').location base ↔
      f.kind = f'.kind ∧ f.generator = f'.generator ∧ f.variant ≠ f'.variant ∧
        (w.target f).fileName? = (w.target f').fileName? ∧
        (p.subdirectoryPath f.generator).Climbs := by
  obtain ⟨-, a, h, hbelongs⟩ := Pipeline.exists_artifact_of_mem_rendered ho hf
  obtain ⟨-, a', h', hbelongs'⟩ := Pipeline.exists_artifact_of_mem_rendered ho' hf'
  have hartifact := artifact_eq_iff (w := w) hnames h hbelongs h' hbelongs'
  rw [h.path_eq, h'.path_eq, ← Bool.not_eq_true,
    Artifact.same_path_iff h.proper h'.proper] at hdistinct
  rw [h.location_target_eq_iff h', h.generator_eq]
  rw [h.generator_eq] at hartifact
  constructor
  -- The variants differ and the subdirectory is not absolute, so it climbs.
  · rintro ⟨heq, hvariant | habsolute | hclimbs⟩
    · exact absurd ⟨heq, .inl hvariant⟩ hdistinct
    · exact absurd ⟨heq, .inr habsolute⟩ hdistinct
    · obtain ⟨hkind, hgenerator, hfileName⟩ := hartifact.mp heq
      exact ⟨hkind, hgenerator, fun hvariant => hdistinct ⟨heq, .inl hvariant⟩, hfileName, hclimbs⟩
  · rintro ⟨hkind, hgenerator, -, hfileName, hclimbs⟩
    exact ⟨hartifact.mpr ⟨hkind, hgenerator, hfileName⟩, .inr (.inr hclimbs)⟩

end Locations

/-! ### The report of a run -/

/-- The entry of `f`. -/
def Writer.entry (w : Writer) (f : GeneratedFile) : WrittenFile :=
  ⟨⟨f.kind, f.generator, f.variant⟩, w.target f⟩

/-- The entries of `results` are those of the files of their outcomes, except of cells that fail. -/
theorem written_sublist {outcomes : List Outcome} {results : List CellResult}
    (h : List.Forall₂ (Outcome.Settles w) outcomes results)
    (hcell : ∀ o ∈ outcomes, ∀ f ∈ o.files, o.cell = ⟨f.kind, f.generator, f.variant⟩) :
    (results.flatMap CellResult.written).Sublist ((allFiles outcomes).map w.entry) := by
  induction h with
  | nil => exact .slnil
  | @cons o r outcomes results hsettles _ ih =>
    obtain ⟨ho, houtcomes⟩ := List.forall_mem_cons.mp hcell
    rw [allFiles, List.flatMap_cons, List.flatMap_cons, List.map_append]
    refine .append ?_ (ih houtcomes)
    obtain ⟨cell, error | files⟩ := o
    · rw [CellResult.written, show r.result = .error error from hsettles.2]
      exact List.nil_sublist _
    · obtain hok | ⟨error, herror⟩ := hsettles.2
      · have hentries : (files.map w.target).map (fun path => WrittenFile.mk r.cell path) =
            files.map w.entry := by
          rw [List.map_map]
          refine List.map_congr_left fun f hf => ?_
          rw [Writer.entry, ← ho f hf, hsettles.1]
          rfl
        rw [CellResult.written, hok]
        exact hentries ▸ List.Sublist.refl _
      · rw [CellResult.written, herror]
        exact List.nil_sublist _

section Run

variable {p : Pipeline} {kinds : List Kind}

/-- That `e` and `e'` are for the same file of a kind in two variants, in a subdirectory that leads
above the directories that are named for the variants. -/
def Pipeline.Meet (p : Pipeline) (e e' : WrittenFile) : Prop :=
  e.cell.kind = e'.cell.kind ∧ e.cell.generator = e'.cell.generator ∧
    e.cell.variant ≠ e'.cell.variant ∧ e.path.fileName? = e'.path.fileName? ∧
    (p.subdirectoryPath e.cell.generator).Climbs

/-- That the files of `c` have a place of their own: the subdirectory does not climb, or there is no
other variant. -/
def Pipeline.Places (p : Pipeline) (c : CellId) : Prop :=
  ¬ (p.subdirectoryPath c.generator).Climbs ∨ ∀ v ∈ p.effectiveVariants, v.id = c.variant

private theorem Pipeline.Meet.symm {e e' : WrittenFile} (h : p.Meet e e') : p.Meet e' e := by
  obtain ⟨hkind, hgenerator, hvariant, hfileName, hclimbs⟩ := h
  exact ⟨hkind.symm, hgenerator.symm, hvariant.symm, hfileName.symm, hgenerator ▸ hclimbs⟩

variable {order : List Outcome} (horder : order.Perm (p.plan kinds).outcomes)
include horder

/-- The files of the plan in any `order` are files of the run. -/
theorem exists_rendered_of_mem_order {f : GeneratedFile} (hf : f ∈ allFiles order) :
    ∃ o ∈ p.rendered kinds, f ∈ o.files := by
  obtain ⟨o, ho, hfo⟩ := mem_allFiles.mp hf
  obtain ⟨o', ho', -, hfo'⟩ := Pipeline.exists_rendered_of_mem_plan (horder.mem_iff.mp ho) hfo
  exact ⟨o', ho', hfo'⟩

/-- The entries of two files of the plan, in any order, have the same location if and only if they
meet. -/
private theorem pairwise_location_iff (hnames : (kinds.map (·.name)).Nodup) :
    ((allFiles order).map w.entry).Pairwise fun e e' =>
      e.path.location base = e'.path.location base ↔ p.Meet e e' := by
  have hplan := pairwise_not_same (p.rendered kinds)
  rw [← Pipeline.plan_outcomes] at hplan
  -- The second check compares paths as they are written, in the order of the plan; what it finds is
  -- symmetric, so that it holds in any order.
  have hdistinct : (allFiles order).Pairwise fun f f' => f.path.same f'.path = false :=
    (horder.flatMap_right _).symm.pairwise hplan fun {f f'} h => (Path.same_comm _ _).trans h
  refine List.pairwise_map.mpr (hdistinct.imp_of_mem fun {f f'} hf hf' hne => ?_)
  obtain ⟨o, ho, hfo⟩ := exists_rendered_of_mem_order horder hf
  obtain ⟨o', ho', hfo'⟩ := exists_rendered_of_mem_order horder hf'
  exact location_target_eq_iff hnames ho ho' hfo hfo' hne

/-- A file that has a place of its own has another location than every other file. -/
theorem pairwise_apart (hnames : (kinds.map (·.name)).Nodup) :
    (allFiles order).Pairwise (Apart w base fun f => p.Places (w.entry f).cell) := by
  have hvariant {f : GeneratedFile} (hf : f ∈ allFiles order) :
      ∃ v ∈ p.effectiveVariants, v.id = f.variant := by
    obtain ⟨o, ho, hfo⟩ := exists_rendered_of_mem_order horder hf
    have hvariant := Pipeline.exists_variant_of_mem_rendered ho
    rwa [(Pipeline.exists_artifact_of_mem_rendered ho hfo).1] at hvariant
  -- Entries that meet are of different variants, and their subdirectory climbs.
  have hplaces {f f' : GeneratedFile} (hf' : f' ∈ allFiles order)
      (hmeet : p.Meet (w.entry f) (w.entry f')) : ¬ p.Places (w.entry f).cell := by
    obtain ⟨-, -, hne, -, hclimbs⟩ := hmeet
    rintro (hstays | hall)
    · exact hstays hclimbs
    · obtain ⟨v, hv, hv'⟩ := hvariant hf'
      exact hne ((hall v hv).symm.trans hv')
  have hentries : ((allFiles order).map w.entry).Pairwise fun e e' =>
      e.path.location base = e'.path.location base ↔ p.Meet e e' :=
    pairwise_location_iff horder hnames
  refine (List.pairwise_map.mp hentries).imp_of_mem fun {f f'} hf hf' hiff hplaced heq => ?_
  have hmeet := hiff.mp heq
  rcases hplaced with hplaced | hplaced
  · exact hplaces hf' hmeet hplaced
  · exact hplaces hf hmeet.symm hplaced

/-- What a run of `p` over `kinds` leaves, in whatever `order` it takes the outcomes of its plan.
Two reported paths have the same location if and only if their entries meet, and a file that has a
place of its own is there with its own content. -/
theorem runInOrder_written (hmode : w.mode = .write) (hnames : (kinds.map (·.name)).Nodup)
    (t : FileTree) :
    ∃ report after, (p.runInOrder w kinds order : StateM FileTree Report).run t = (report, after) ∧
      report.written.Pairwise (fun e e' =>
        e.path.location t.base = e'.path.location t.base ↔ p.Meet e e') ∧
      ∀ e ∈ report.written, p.Places e.cell →
        ∃ o ∈ (p.plan kinds).outcomes, o.cell = e.cell ∧
          ∃ f ∈ o.files, w.target f = e.path ∧ after.readText e.path = .ok f.content := by
  have hrun : (p.runInOrder w kinds order : StateM FileTree Report).run t =
      (((p.plan kinds).reportOf
          ((order.mapM (Outcome.settle w) : StateM FileTree _).run t).1).sorted,
        ((order.mapM (Outcome.settle w) : StateM FileTree _).run t).2) := by
    rw [Pipeline.runInOrder_eq, StateT.run_map]
    rfl
  have hwritten := Report.written_sorted_perm ((p.plan kinds).reportOf
    ((order.mapM (Outcome.settle w) : StateM FileTree _).run t).1)
  refine ⟨_, _, hrun, ?_, fun e he hplaces => ?_⟩
  · have hcell : ∀ o ∈ order, ∀ f ∈ o.files, o.cell = ⟨f.kind, f.generator, f.variant⟩ := by
      intro o ho f hf
      obtain ⟨o', ho', hcell, hf'⟩ := Pipeline.exists_rendered_of_mem_plan (horder.mem_iff.mp ho) hf
      rw [← hcell, (Pipeline.exists_artifact_of_mem_rendered ho' hf').1]
    have hsublist := written_sublist
      (forall₂_mapM_run (fun o s => Pipeline.settles_settle (w := w) o s) order t) hcell
    refine hwritten.symm.pairwise ((pairwise_location_iff horder hnames).sublist hsublist) ?_
    intro e e' h
    rw [eq_comm, h]
    exact ⟨Pipeline.Meet.symm, Pipeline.Meet.symm⟩
  · obtain ⟨o, ho, hcell, f, hf, htarget, hholds⟩ := holds_of_mem_written hmode
      (pairwise_apart horder hnames) rfl (hwritten.mem_iff.mp he)
    obtain ⟨o', ho', hcell', hf'⟩ := Pipeline.exists_rendered_of_mem_plan (horder.mem_iff.mp ho) hf
    have hentry : (w.entry f).cell = e.cell := by
      rw [← hcell, ← hcell', (Pipeline.exists_artifact_of_mem_rendered ho' hf').1]
      rfl
    exact ⟨o, horder.mem_iff.mp ho, hcell, f, hf, htarget, (hholds (hentry ▸ hplaces)).2⟩

end Run

namespace Sample

/-- The writer below a directory `out`. -/
def below : Writer where
  root := ⟨"out"⟩

/-- The small run, with its cells taken backwards: every file is in its place. -/
theorem written_folder :
    (typeScript.plan [folder]).outcomes.reverse.Perm (typeScript.plan [folder]).outcomes ∧
      below.mode = .write ∧ ([folder].map (·.name)).Nodup ∧
      ∃ report after,
        (typeScript.runInOrder below [folder] (typeScript.plan [folder]).outcomes.reverse :
          StateM FileTree Report).run (.empty []) = (report, after) ∧
        ∀ e ∈ report.written, ∃ o ∈ (typeScript.plan [folder]).outcomes, o.cell = e.cell ∧
          ∃ f ∈ o.files, below.target f = e.path ∧ after.readText e.path = .ok f.content := by
  have horder :
      (typeScript.plan [folder]).outcomes.reverse.Perm (typeScript.plan [folder]).outcomes :=
    List.reverse_perm _
  have hnames : ([folder].map (·.name)).Nodup := List.nodup_singleton _
  have hplaces (c : CellId) : typeScript.Places c :=
    .inl (by cases c.generator <;> decide)
  have hmode : below.mode = .write := rfl
  obtain ⟨report, after, hrun, -, hcontent⟩ := runInOrder_written horder hmode hnames (.empty [])
  exact ⟨horder, hmode, hnames, report, after, hrun, fun e he => hcontent e he (hplaces e.cell)⟩

/-- TypeScript modules in both variants, each above the directory that is named for the variant. -/
def climbing : Pipeline :=
  { typeScript with generators := [.tsTypes], subdirectories := [(.tsTypes, "..")] }

/-- The paths of the two variants are not the same as they are written, so both files are reported
as written, but they have the same location. -/
theorem meet_folder : ([folder].map (·.name)).Nodup ∧
    ∃ e ∈ ((climbing.run below [folder] : StateM FileTree Report).run (.empty [])).1.written,
      ∃ e' ∈ ((climbing.run below [folder] : StateM FileTree Report).run (.empty [])).1.written,
        e ≠ e' ∧ e.path.location [] = e'.path.location [] := by
  have hentries : (((climbing.plan [folder]).outcomes.mapM (Outcome.settle below) :
      StateM FileTree _).run (.empty [])).1.flatMap CellResult.written =
        [⟨⟨"Folder", .tsTypes, .noParams⟩,
            ⟨"out/folder_TSTypesJenny_NoParams/../folder/folder_types.gen.ts"⟩⟩,
          ⟨⟨"Folder", .tsTypes, .withParams⟩,
            ⟨"out/folder_TSTypesJenny_WithParams/../folder/folder_types.gen.ts"⟩⟩] := by
    decide +kernel
  have hwritten :
      ((climbing.run below [folder] : StateM FileTree Report).run (.empty [])).1.written.Perm
        [⟨⟨"Folder", .tsTypes, .noParams⟩,
            ⟨"out/folder_TSTypesJenny_NoParams/../folder/folder_types.gen.ts"⟩⟩,
          ⟨⟨"Folder", .tsTypes, .withParams⟩,
            ⟨"out/folder_TSTypesJenny_WithParams/../folder/folder_types.gen.ts"⟩⟩] := by
    rw [Pipeline.run_eq_runInOrder, Pipeline.runInOrder_eq, StateT.run_map, ← hentries]
    exact Report.written_sorted_perm _
  have hnoParams : (⟨"out/folder_TSTypesJenny_NoParams/../folder/folder_types.gen.ts"⟩ :
      Path).location [] = ["out", "folder", "folder_types.gen.ts"] := by
    decide +kernel
  have hwithParams : (⟨"out/folder_TSTypesJenny_WithParams/../folder/folder_types.gen.ts"⟩ :
      Path).location [] = ["out", "folder", "folder_types.gen.ts"] := by
    decide +kernel
  exact ⟨List.nodup_singleton _, _, hwritten.mem_iff.mpr List.mem_cons_self, _,
    hwritten.mem_iff.mpr (List.mem_cons_of_mem _ List.mem_cons_self), by decide,
    hnoParams.trans hwithParams.symm⟩

end Sample

end KindSchema
