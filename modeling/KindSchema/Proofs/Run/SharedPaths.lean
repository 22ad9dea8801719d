import Mathlib.Data.Finset.Card
import Mathlib.Data.List.Sigma
import KindSchema.Proofs.Run.Outcomes

/-!
# Paths with two claimants

The check of paths fails every cell with a file whose path is claimed elsewhere: by a file at
another place among the files of all cells, its own cell included. The cells are judged by the files
that were there before the check, not by those that are left after it.

* `ClaimedElsewhere`: that a file at another place has a path.
* `two_le_length_pathClaimants_iff`: a path with two claimants is one that is claimed elsewhere.
* `PathVerdict`: what the check makes of a cell.
* `rejectSharedPaths_verdicts`: every cell gets its verdict, no two files that are left have the
  same path, and so a second check finds nothing.
-/

namespace KindSchema

/-! ### Lists -/

/-- A list without repetitions has two elements if it has another one than a given one. -/
private theorem two_le_length_iff_exists_ne {α : Type} {l : List α} {a : α} (hl : l.Nodup)
    (ha : a ∈ l) :
    2 ≤ l.length ↔ ∃ b ∈ l, b ≠ a := by
  classical
  rw [← List.toFinset_card_of_nodup hl]
  constructor
  · intro htwo
    obtain ⟨b, hb, hne⟩ := Finset.exists_mem_ne htwo a
    exact ⟨b, List.mem_toFinset.mp hb, hne⟩
  · rintro ⟨b, hb, hne⟩
    exact Finset.one_lt_card.mpr ⟨b, List.mem_toFinset.mpr hb, a, List.mem_toFinset.mpr ha, hne⟩

/-! ### Places of files -/

/-- The place of a file: the number of its cell, and its own number among the files of the cell. -/
structure FilePlace where
  cell : Nat
  file : Nat
deriving DecidableEq, Repr

/-- The file at `place`. -/
def fileAt? (outcomes : List Outcome) (place : FilePlace) : Option GeneratedFile :=
  outcomes[place.cell]?.bind fun o => o.files[place.file]?

/-- That a file at another place than `place` has the path `path`. -/
def ClaimedElsewhere (outcomes : List Outcome) (place : FilePlace) (path : Path) : Prop :=
  ∃ other f, other ≠ place ∧ fileAt? outcomes other = some f ∧ f.path.same path = true

/-- All files of `outcomes` with their places. -/
def placedFiles (outcomes : List Outcome) : List (FilePlace × GeneratedFile) :=
  outcomes.zipIdx.flatMap fun (o, i) => o.files.zipIdx.map fun (f, j) => (⟨i, j⟩, f)

variable {outcomes : List Outcome} {place : FilePlace} {f : GeneratedFile}

private theorem mem_placedFiles :
    (place, f) ∈ placedFiles outcomes ↔ fileAt? outcomes place = some f := by
  simp only [placedFiles, List.mem_flatMap, List.mem_map, Prod.exists,
    List.mk_mem_zipIdx_iff_getElem?, fileAt?, Option.bind_eq_some_iff, Prod.mk.injEq]
  constructor
  · rintro ⟨o, i, ho, g, j, hg, rfl, rfl⟩
    exact ⟨o, ho, hg⟩
  · rintro ⟨o, ho, hf⟩
    exact ⟨o, place.cell, ho, f, place.file, hf, rfl, rfl⟩

/-- Without their places, the files are those of all cells. -/
private theorem map_snd_placedFiles (outcomes : List Outcome) :
    (placedFiles outcomes).map Prod.snd = allFiles outcomes := by
  have hfiles (o : Outcome) (i : Nat) :
      (o.files.zipIdx.map fun (f, j) => (FilePlace.mk i j, f)).map Prod.snd = o.files := by
    rw [List.map_map]
    exact List.zipIdx_map_fst 0 o.files
  rw [placedFiles, List.map_flatMap]
  simp only [hfiles]
  rw [← List.flatMap_map, List.zipIdx_map_fst]
  rfl

/-- No two files have the same place. -/
private theorem nodup_placedFiles (outcomes : List Outcome) : (placedFiles outcomes).Nodup := by
  rw [placedFiles, List.nodup_flatMap]
  constructor
  · rintro ⟨o, i⟩ -
    refine (List.nodup_zipIdx_map_snd o.files).of_map.map fun {a b} heq => ?_
    obtain ⟨hplace, hfile⟩ := Prod.mk.inj heq
    exact Prod.ext hfile (FilePlace.mk.inj hplace).2
  · -- The files of two cells differ in the first number of their places.
    refine (List.pairwise_map.mp (List.nodup_zipIdx_map_snd outcomes)).imp fun {a b} hne => ?_
    intro c hc hc'
    obtain ⟨_, -, rfl⟩ := List.mem_map.mp hc
    obtain ⟨_, -, heq⟩ := List.mem_map.mp hc'
    exact hne (FilePlace.mk.inj (Prod.mk.inj heq).1).1.symm

/-- The path of `f`, the file at `place`, has two claimants if and only if it is claimed
elsewhere. -/
theorem two_le_length_pathClaimants_iff (hf : fileAt? outcomes place = some f) :
    2 ≤ (pathClaimants (allFiles outcomes) f.path).length ↔
      ClaimedElsewhere outcomes place f.path := by
  -- Files are counted with their places, since two files may be equal.
  have hlength : (pathClaimants (allFiles outcomes) f.path).length =
      ((placedFiles outcomes).filter (·.2.path.same f.path)).length := by
    rw [pathClaimants, ← map_snd_placedFiles, List.filter_map, List.length_map]
    rfl
  have hown : (place, f) ∈ (placedFiles outcomes).filter (·.2.path.same f.path) :=
    List.mem_filter.mpr ⟨mem_placedFiles.mpr hf, Path.same_iff.mpr rfl⟩
  rw [hlength, two_le_length_iff_exists_ne ((nodup_placedFiles outcomes).filter _) hown]
  constructor
  · rintro ⟨⟨other, g⟩, hg, hne⟩
    obtain ⟨hg, hsame⟩ := List.mem_filter.mp hg
    rw [mem_placedFiles] at hg
    refine ⟨other, g, ?_, hg, hsame⟩
    rintro rfl
    exact hne (congrArg _ (Option.some.inj (hg.symm.trans hf)))
  · rintro ⟨other, g, hne, hg, hsame⟩
    refine ⟨(other, g), List.mem_filter.mpr ⟨mem_placedFiles.mpr hg, hsame⟩, fun heq => ?_⟩
    exact hne (Prod.mk.inj heq).1

/-! ### Verdicts -/

/-- The kinds of some files are listed in order, each once. -/
private theorem pairwise_kindsOf (files : List GeneratedFile) : (kindsOf files).Pairwise (· < ·) :=
  pairwise_mergeSort_texts (nodup_eraseDups _)

private theorem mem_kindsOf_pathClaimants {path : Path} {name : String} :
    name ∈ kindsOf (pathClaimants (allFiles outcomes) path) ↔
      ∃ place f, fileAt? outcomes place = some f ∧ f.path.same path = true ∧ f.kind = name := by
  simp only [kindsOf, pathClaimants, List.mem_mergeSort, List.mem_eraseDups, List.mem_map,
    List.mem_filter, and_assoc, ← map_snd_placedFiles]
  constructor
  · rintro ⟨f, ⟨placed, hmem, rfl⟩, hsame, hname⟩
    exact ⟨placed.1, placed.2, mem_placedFiles.mp hmem, hsame, hname⟩
  · rintro ⟨place, f, hf, hsame, hname⟩
    exact ⟨f, ⟨(place, f), mem_placedFiles.mpr hf, rfl⟩, hsame, hname⟩

/-- What the check of paths makes of the cell with the number `i`, whose outcome is `o` before and
`o'` after it. -/
structure PathVerdict (outcomes : List Outcome) (i : Nat) (o o' : Outcome) : Prop where
  cell_eq : o'.cell = o.cell
  /-- An error stays as it is. -/
  failed : ∀ e, o.result = .error e → o'.result = .error e
  /-- The files stay if and only if the path of none of them is claimed elsewhere. -/
  kept_iff : ∀ files, o.result = .ok files → (o'.result = .ok files ↔
    ∀ j f, files[j]? = some f → ¬ ClaimedElsewhere outcomes ⟨i, j⟩ f.path)
  /-- Otherwise the first such path is named, with the kinds of all files that have it. -/
  rejected : ∀ files, o.result = .ok files → o'.result ≠ .ok files → ∃ j f kinds,
    files[j]? = some f ∧ ClaimedElsewhere outcomes ⟨i, j⟩ f.path ∧
    (∀ j' < j, ∀ f', files[j']? = some f' → ¬ ClaimedElsewhere outcomes ⟨i, j'⟩ f'.path) ∧
    o'.result = .error (.schema (.duplicateOutputPath f.path.text kinds)) ∧
    kinds.Pairwise (· < ·) ∧
    ∀ name, name ∈ kinds ↔ ∃ place g, fileAt? outcomes place = some g ∧
      g.path.same f.path = true ∧ g.kind = name

/-- A file of a cell that has files stands at its place. -/
private theorem fileAt?_of_getElem? {o : Outcome} {i j : Nat} {files : List GeneratedFile}
    (ho : outcomes[i]? = some o) (hfiles : o.result = .ok files) (hf : files[j]? = some f) :
    fileAt? outcomes ⟨i, j⟩ = some f := by
  rw [fileAt?, ho, Option.bind_some, Outcome.files_of_eq_ok hfiles]
  exact hf

/-- A cell that is not left as it is has a first file whose path is claimed twice. -/
private theorem Outcome.exists_rejected {o : Outcome} {files own : List GeneratedFile}
    (hown : o.result = .ok own) (hne : (o.rejectShared files).result ≠ .ok own) :
    ∃ (j : Nat) (f : GeneratedFile), own[j]? = some f ∧
      2 ≤ (pathClaimants files f.path).length ∧
      (∀ j' < j, ∀ f', own[j']? = some f' → (pathClaimants files f'.path).length < 2) ∧
      (o.rejectShared files).result = .error (.schema
        (.duplicateOutputPath f.path.text (kindsOf (pathClaimants files f.path)))) := by
  obtain ⟨cell, result⟩ := o
  obtain rfl : result = .ok own := hown
  cases hfind : own.find? fun f => 2 ≤ (pathClaimants files f.path).length with
  | none =>
    refine absurd ?_ hne
    simp only [rejectShared, hfind]
  | some f =>
    obtain ⟨hshared, j, hj, rfl, hfirst⟩ := List.find?_eq_some_iff_getElem.mp hfind
    refine ⟨j, own[j], List.getElem?_eq_getElem hj, of_decide_eq_true hshared, ?_, ?_⟩
    · intro j' hlt f' hf'
      obtain ⟨hj', rfl⟩ := List.getElem?_eq_some_iff.mp hf'
      simpa using hfirst j' hlt
    · simp only [rejectShared, hfind]

/-- The check of paths gives every cell its verdict. -/
private theorem pathVerdict_rejectShared {o : Outcome} {i : Nat} (ho : outcomes[i]? = some o) :
    PathVerdict outcomes i o (o.rejectShared (allFiles outcomes)) where
  cell_eq := o.cell_rejectShared _
  failed e he := by
    obtain ⟨cell, result⟩ := o
    obtain rfl : result = .error e := he
    rfl
  kept_iff files hfiles := by
    rw [Outcome.rejectShared_eq_ok_iff, and_iff_right hfiles]
    -- A file at a place has two claimants exactly if it is claimed elsewhere.
    constructor
    · intro hall j f hf hclaimed
      have htwo := (two_le_length_pathClaimants_iff (fileAt?_of_getElem? ho hfiles hf)).mpr hclaimed
      exact absurd (hall f (List.mem_of_getElem? hf)) (Nat.not_lt.mpr htwo)
    · intro hnone f hf
      obtain ⟨j, hj⟩ := List.getElem?_of_mem hf
      rw [← Nat.not_le, two_le_length_pathClaimants_iff (fileAt?_of_getElem? ho hfiles hj)]
      exact hnone j f hj
  rejected files hfiles hne := by
    obtain ⟨j, f, hf, htwo, hfirst, hresult⟩ := Outcome.exists_rejected hfiles hne
    refine ⟨j, f, _, hf, ?_, fun j' hlt f' hf' => ?_, hresult, pairwise_kindsOf _,
      fun name => mem_kindsOf_pathClaimants⟩
    · exact (two_le_length_pathClaimants_iff (fileAt?_of_getElem? ho hfiles hf)).mp htwo
    · rw [← two_le_length_pathClaimants_iff (fileAt?_of_getElem? ho hfiles hf'), Nat.not_le]
      exact hfirst j' hlt f' hf'

/-- A cell with no path that is claimed twice is left as it is. -/
private theorem Outcome.rejectShared_eq_self {o : Outcome} {files : List GeneratedFile}
    (h : ∀ f ∈ o.files, (pathClaimants files f.path).length < 2) : o.rejectShared files = o := by
  obtain ⟨cell, e | own⟩ := o
  · rfl
  · have hfind : (own.find? fun f => 2 ≤ (pathClaimants files f.path).length) = none := by
      rw [List.find?_eq_none]
      intro f hf
      simpa using h f hf
    simp only [rejectShared, hfind]

/-- After the check, no path is claimed twice. -/
private theorem length_pathClaimants_rejectSharedPaths {o : Outcome}
    (ho : o ∈ rejectSharedPaths outcomes) (hf : f ∈ o.files) :
    (pathClaimants (allFiles (rejectSharedPaths outcomes)) f.path).length < 2 := by
  obtain ⟨before, -, rfl⟩ := List.mem_map.mp ho
  obtain ⟨own, hown, hmem⟩ := Outcome.exists_eq_ok_of_mem_files hf
  have hsublist := (allFiles_rejectSharedPaths_sublist outcomes).filter (·.path.same f.path)
  exact Nat.lt_of_le_of_lt hsublist.length_le ((Outcome.rejectShared_eq_ok_iff.mp hown).2 f hmem)

/-- The check of paths gives every cell of `outcomes` its verdict. No two files that are left have
the same path, and a second check changes nothing. -/
theorem rejectSharedPaths_verdicts (outcomes : List Outcome) :
    (rejectSharedPaths outcomes).length = outcomes.length ∧
      (∀ i o o', outcomes[i]? = some o → (rejectSharedPaths outcomes)[i]? = some o' →
        PathVerdict outcomes i o o') ∧
      ((allFiles (rejectSharedPaths outcomes)).Pairwise fun f g => f.path.same g.path = false) ∧
      rejectSharedPaths (rejectSharedPaths outcomes) = rejectSharedPaths outcomes := by
  refine ⟨List.length_map _, fun i o o' ho ho' => ?_, pairwise_not_same outcomes, ?_⟩
  · rw [rejectSharedPaths, List.getElem?_map, ho, Option.map_some, Option.some.injEq] at ho'
    rw [← ho']
    exact pathVerdict_rejectShared ho
  · refine (List.map_congr_left fun o ho => ?_).trans (List.map_id _)
    exact Outcome.rejectShared_eq_self fun f hf => length_pathClaimants_rejectSharedPaths ho hf

end KindSchema
