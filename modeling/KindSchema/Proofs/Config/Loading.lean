import KindSchema.Config.Loading
import KindSchema.Proofs.Run.Writing

/-!
# What becomes of kind files

A kind file is loaded or rejected, by what it gives itself and by the files before it.

* `Config.load_run`: a configuration is what the text of its file stands for.
* `Config.keepsState_kindFiles`: the kind files are found without a change to any file.
* `FileTree.verdict`: what becomes of a kind file after others.
* `Config.loadKinds_run`: what is loaded are the kinds of the files that are accepted, and what is
  rejected are the others, each in the order of the files.
* `LoadedKinds.Decides.nodup_names`: no two kinds that are loaded have the same name.
-/

namespace KindSchema

/-! ### Reading -/

/-- The configuration `c` is read from `text`, and has the directory of the file at `path` as its
base. -/
theorem Config.load_run {σ : Type} [FileStore (StateM σ)] {path : Path} {text : String} {c : Config}
    {s s' : σ} (hread : (FileStore.readText path : StateM σ _).run s = (.ok text, s'))
    (h : Config.ofText? text = some c) : (Config.load path : StateM σ _).run s =
      (.ok { c with base := path.parent?.getD ⟨""⟩ }, s') := by
  rw [Config.load, run_bind_eq, hread]
  dsimp only
  rw [h]
  rfl

namespace Config

variable {holds : FileTree → Prop}

/-- Reading a configuration from `path` changes nothing. -/
theorem keepsState_load (holds : FileTree → Prop) (path : Path) :
    KeepsState holds (Config.load path : StateM FileTree _) := by
  refine .bind (keepsState_readText path) fun text => ?_
  cases text with
  | error cause => exact .pure _
  | ok text =>
    dsimp only
    split <;> exact .pure _

private theorem keepsState_kindFilesAt (path : Path) :
    KeepsState holds (kindFilesAt path : StateM FileTree _) := by
  refine .bind (keepsState_isDirectory path) fun isDirectory => ?_
  cases isDirectory with
  | false => exact .pure _
  | true =>
    refine .bind (keepsState_entryNames path) fun names => ?_
    cases names with
    | error cause => exact .pure _
    | ok names =>
      dsimp only
      split <;> exact .pure _

private theorem keepsState_kindFilesAtAll (paths : List Path) :
    KeepsState holds (kindFilesAtAll paths : StateM FileTree _) := by
  induction paths with
  | nil => exact .pure _
  | cons path paths ih =>
    refine .bind (keepsState_kindFilesAt path) fun files => ?_
    cases files with
    | error e => exact .pure _
    | ok files =>
      refine .bind ih fun more => ?_
      cases more <;> exact .pure _

/-- The kind files of `c` are found without a change to any file. -/
theorem keepsState_kindFiles (holds : FileTree → Prop) (c : Config) :
    KeepsState holds (c.kindFiles : StateM FileTree _) :=
  keepsState_kindFilesAtAll _

end Config

/-- What the kind file at `path` gives. -/
def FileTree.kindAt (t : FileTree) (path : Path) : Except LoadError Kind :=
  ((Kind.load path : StateM FileTree _).run t).1

/-- Reading a kind changes nothing. -/
private theorem Kind.load_run (t : FileTree) (path : Path) :
    (Kind.load path : StateM FileTree _).run t = (t.kindAt path, t) := by
  have hkeeps : KeepsState (· = t) (Kind.load path : StateM FileTree _) := by
    refine .bind (keepsState_readText path) fun text => ?_
    cases text with
    | error cause => exact .pure _
    | ok text =>
      dsimp only
      split <;> exact .pure _
  exact Prod.ext rfl (hkeeps t rfl)

/-- The kind file at `path` that can be read gives the kind of its text. -/
theorem FileTree.kindAt_of_readText {t : FileTree} {path : Path} {text : String}
    (h : t.readText path = .ok text) :
    t.kindAt path = (Kind.ofText text).mapError (.unparsableKind path) := by
  have hread : (FileStore.readText path : StateM FileTree _).run t = (.ok text, t) :=
    congrArg (·, t) h
  rw [kindAt, Kind.load, run_bind_eq, hread]
  dsimp only
  cases Kind.ofText text <;> rfl

/-- Reading the kinds of some files changes nothing. -/
private theorem loadFiles_run (t : FileTree) (files : List Path) :
    (loadFiles files : StateM FileTree _).run t =
      (files.foldl (fun loaded path => loaded.add path (t.kindAt path)) {}, t) := by
  have hfoldl (loaded : LoadedKinds) :
      (files.foldlM (fun loaded path => do return loaded.add path (← Kind.load path)) loaded :
        StateM FileTree _).run t =
        (files.foldl (fun loaded path => loaded.add path (t.kindAt path)) loaded, t) := by
    induction files generalizing loaded with
    | nil => rfl
    | cons path files ih =>
      rw [List.foldlM_cons, run_bind_eq, run_bind_eq, Kind.load_run]
      exact ih _
  exact hfoldl {}

/-! ### Verdicts -/

namespace FileTree

/-- Whether the kind file at `path` gives a kind called `name`. -/
def defines (t : FileTree) (name : String) (path : Path) : Bool :=
  match t.kindAt path with
  | .ok k => k.name == name
  | .error _ => false

/-- What becomes of the kind file at `path` that comes after those of `before`: its kind is
accepted, unless one of the others gives a kind of its name, or it is said why the file is
rejected. -/
def verdict (t : FileTree) (before : List Path) (path : Path) : Except String Kind :=
  match t.kindAt path with
  | .error e => .error e.message
  | .ok k =>
    if before.any (t.defines k.name) then
      .error ("kind '" ++ k.name ++ "' is defined more than once")
    else .ok k

/-- The verdicts on kind files that come after those of `before`. -/
def verdictsAfter (t : FileTree) (before : List Path) :
    List Path → List (Path × Except String Kind)
  | [] => []
  | path :: files => (path, t.verdict before path) :: t.verdictsAfter (before ++ [path]) files

/-- The verdicts on `files`, each with the path of its file. -/
def verdicts (t : FileTree) (files : List Path) : List (Path × Except String Kind) :=
  t.verdictsAfter [] files

variable {t : FileTree}

/-- There is one verdict on each file, in the order of the files. -/
private theorem map_fst_verdicts (files : List Path) : (t.verdicts files).map Prod.fst = files := by
  have hafter (before : List Path) : (t.verdictsAfter before files).map Prod.fst = files := by
    induction files generalizing before with
    | nil => rfl
    | cons path files ih => rw [verdictsAfter, List.map_cons, ih]
  exact hafter []

private theorem defines_iff {name : String} {path : Path} :
    t.defines name path = true ↔ ∃ k, t.kindAt path = .ok k ∧ k.name = name := by
  unfold defines
  cases t.kindAt path <;> simp

/-- A file is rejected without a name that is new, or its kind is accepted, whose name is. -/
private theorem verdict_cases (t : FileTree) (before : List Path) (path : Path) :
    (∃ message, t.verdict before path = .error message ∧
      ∀ name, t.defines name path = true → before.any (t.defines name) = true) ∨
    ∃ k, t.verdict before path = .ok k ∧ t.kindAt path = .ok k ∧
      before.any (t.defines k.name) = false := by
  unfold verdict
  cases hkind : t.kindAt path with
  | error e =>
    refine .inl ⟨e.message, rfl, fun name hname => ?_⟩
    obtain ⟨k, hk, -⟩ := defines_iff.mp hname
    cases hkind.symm.trans hk
  | ok k =>
    dsimp only
    split
    · next hknown =>
      refine .inl ⟨_, rfl, fun name hname => ?_⟩
      obtain ⟨k', hk', rfl⟩ := defines_iff.mp hname
      obtain rfl := Except.ok.inj (hkind.symm.trans hk')
      exact hknown
    · next hnew => exact .inr ⟨k, rfl, rfl, Bool.eq_false_iff.mpr hnew⟩

/-- The kind `k` that is accepted is the one of the file at `path`. -/
theorem kindAt_of_verdict {before : List Path} {path : Path} {k : Kind}
    (h : t.verdict before path = .ok k) : t.kindAt path = .ok k := by
  obtain ⟨message, herror, -⟩ | ⟨k', hok, hkind, -⟩ := t.verdict_cases before path
  · cases herror.symm.trans h
  · rw [← Except.ok.inj (hok.symm.trans h), hkind]

/-- A verdict `result` is on what the file at `path` gives after the files before it. -/
theorem exists_of_mem_verdicts {files : List Path} {path : Path} {result : Except String Kind}
    (h : (path, result) ∈ t.verdicts files) :
    ∃ before after, files = before ++ path :: after ∧ t.verdict before path = result := by
  -- The files before are an accumulator, and the induction is over all values of it.
  have hafter {files earlier : List Path}
      (h : (path, result) ∈ t.verdictsAfter earlier files) :
      ∃ before after, files = before ++ path :: after ∧
        t.verdict (earlier ++ before) path = result := by
    induction files generalizing earlier with
    | nil => cases h
    | cons first files ih =>
      rcases List.mem_cons.mp h with h | h
      · obtain ⟨rfl, rfl⟩ := Prod.mk.inj h
        exact ⟨[], files, rfl, by rw [List.append_nil]⟩
      · obtain ⟨before, after, rfl, hverdict⟩ := ih h
        refine ⟨first :: before, after, rfl, ?_⟩
        rwa [List.append_assoc] at hverdict
  exact hafter h

end FileTree

/-- The kind of `entry`, if it is that of a file that is accepted. -/
def acceptedKind (entry : Path × Except String Kind) : Option Kind :=
  entry.2.toOption

/-- The error of `entry`, if it is that of a file that is rejected. -/
def rejectedSource (entry : Path × Except String Kind) : Option (String × SchemaError) :=
  match entry.2 with
  | .ok _ => none
  | .error message => some (malformedSource entry.1 message)

/-- That `found` is what `files` give, sorted by their verdicts into kinds and rejected files. -/
structure LoadedKinds.Decides (found : LoadedKinds) (t : FileTree) (files : List Path) : Prop where
  files_eq : (t.verdicts files).map Prod.fst = files
  kinds_eq : found.kinds = (t.verdicts files).filterMap acceptedKind
  rejected_eq : found.rejected = (t.verdicts files).filterMap rejectedSource
  names : (found.kinds.map (·.name)).Nodup

/-- That the kinds of `loaded` have the names that `files` give. -/
def LoadedKinds.HasNames (loaded : LoadedKinds) (t : FileTree) (files : List Path) : Prop :=
  ∀ name, name ∈ loaded.kinds.map (·.name) ↔ files.any (t.defines name) = true

namespace LoadedKinds

variable {t : FileTree} {before : List Path} {path : Path} {loaded : LoadedKinds}

/-- A file adds what its verdict says. -/
private theorem add_eq (h : loaded.HasNames t before) : loaded.add path (t.kindAt path) =
    { kinds := loaded.kinds ++ (acceptedKind (path, t.verdict before path)).toList
      rejected := loaded.rejected ++ (rejectedSource (path, t.verdict before path)).toList } := by
  unfold add FileTree.verdict
  cases t.kindAt path with
  | error e => simp [acceptedKind, rejectedSource, Except.toOption]
  | ok k =>
    have hknown : loaded.kinds.any (·.name == k.name) = before.any (t.defines k.name) := by
      rw [Bool.eq_iff_iff, ← h k.name]
      simp
    dsimp only
    rw [hknown]
    split <;> simp [acceptedKind, rejectedSource, Except.toOption]

/-- A file adds the name of its kind, if it is accepted. -/
private theorem HasNames.add (h : loaded.HasNames t before) (path : Path) :
    (loaded.add path (t.kindAt path)).HasNames t (before ++ [path]) := by
  intro name
  rw [add_eq h, List.map_append, List.mem_append, h name, List.any_append, Bool.or_eq_true,
    List.any_cons, List.any_nil, Bool.or_false]
  -- A file that is refused adds no new name; any other adds just that of its kind.
  obtain ⟨message, hverdict, hknown⟩ | ⟨k, hverdict, hkind, -⟩ := t.verdict_cases before path
  · rw [hverdict]
    exact ⟨fun h => .inl (h.resolve_right List.not_mem_nil),
      fun h => .inl (h.elim id (hknown name))⟩
  · rw [hverdict, FileTree.defines_iff]
    refine or_congr_right (List.mem_singleton.trans ?_)
    constructor
    · rintro rfl
      exact ⟨k, hkind, rfl⟩
    · rintro ⟨k', hkind', rfl⟩
      rw [Except.ok.inj (hkind.symm.trans hkind')]

/-- The names of the kinds stay different. -/
private theorem nodup_add (h : loaded.HasNames t before)
    (hnodup : (loaded.kinds.map (·.name)).Nodup) :
    ((loaded.add path (t.kindAt path)).kinds.map (·.name)).Nodup := by
  rw [add_eq h, List.map_append, List.nodup_append]
  obtain ⟨message, hverdict, -⟩ | ⟨k, hverdict, -, hnew⟩ := t.verdict_cases before path
  · rw [hverdict]
    exact ⟨hnodup, List.nodup_nil, fun _ _ _ h => absurd h List.not_mem_nil⟩
  · rw [hverdict]
    refine ⟨hnodup, List.nodup_singleton _, fun name hname name' hname' heq => ?_⟩
    obtain rfl : name' = k.name := List.mem_singleton.mp hname'
    have hknown := (h k.name).mp (heq ▸ hname)
    rw [hnew] at hknown
    cases hknown

/-- Files add what their verdicts say. -/
private theorem foldl_add_decides (files : List Path) (h : loaded.HasNames t before)
    (hnodup : (loaded.kinds.map (·.name)).Nodup) :
    let found := files.foldl (fun loaded path => loaded.add path (t.kindAt path)) loaded
    found.kinds = loaded.kinds ++ (t.verdictsAfter before files).filterMap acceptedKind ∧
      found.rejected = loaded.rejected ++ (t.verdictsAfter before files).filterMap rejectedSource ∧
      (found.kinds.map (·.name)).Nodup := by
  -- After each file the names that are loaded are those that the files so far give.
  induction files generalizing loaded before with
  | nil => exact ⟨(List.append_nil _).symm, (List.append_nil _).symm, hnodup⟩
  | cons path files ih =>
    obtain ⟨hkinds, hrejected, hnames⟩ := ih (h.add path) (nodup_add h hnodup)
    refine ⟨?_, ?_, hnames⟩
    · rw [List.foldl_cons, hkinds, add_eq h, FileTree.verdictsAfter, List.filterMap_cons,
        List.append_assoc]
      cases acceptedKind (path, t.verdict before path) <;> rfl
    · rw [List.foldl_cons, hrejected, add_eq h, FileTree.verdictsAfter, List.filterMap_cons,
        List.append_assoc]
      cases rejectedSource (path, t.verdict before path) <;> rfl

end LoadedKinds

/-- What is loaded from files is decided by their verdicts. -/
private theorem decides_loadFiles (t : FileTree) (files : List Path) :
    ((loadFiles files : StateM FileTree _).run t).1.Decides t files := by
  rw [loadFiles_run]
  have hnames : LoadedKinds.HasNames {} t [] := fun _ => iff_of_false List.not_mem_nil nofun
  obtain ⟨hkinds, hrejected, hnodup⟩ := LoadedKinds.foldl_add_decides files hnames
    List.nodup_nil
  exact ⟨FileTree.map_fst_verdicts files, hkinds, hrejected, hnodup⟩

/-- The configuration `c`, of which the kind files are found, loads what their verdicts say, and
changes nothing. -/
theorem Config.loadKinds_run {c : Config} {t : FileTree} {files : List Path}
    (h : ((c.kindFiles : StateM FileTree _).run t).1 = .ok files) :
    ∃ found : LoadedKinds, (c.loadKinds : StateM FileTree _).run t = (.ok found, t) ∧
      found.Decides t files := by
  have hfiles : (c.kindFiles : StateM FileTree _).run t = (.ok files, t) :=
    Prod.ext h (keepsState_kindFiles (· = t) c t rfl)
  refine ⟨_, ?_, decides_loadFiles t files⟩
  have hload : (loadFiles files : StateM FileTree _).run t =
      (((loadFiles files : StateM FileTree _).run t).1, t) := by
    rw [loadFiles_run]
  rw [loadKinds, run_bind_eq, hfiles, run_bind_eq, hload]
  rfl

end KindSchema
