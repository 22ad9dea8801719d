import Mathlib.Data.List.Flatten
import Mathlib.Data.List.Perm.Subperm
import Mathlib.Data.List.Sort
import Mathlib.Data.String.Basic
import KindSchema.Proofs.Run.Artifacts

/-!
# Conflicts between cells

What the two checks of a plan let pass, and what that says of the files that are left.

* `machineNameClash?_eq_none_iff`: a kind passes the first check if and only if no other kind has
  its machine name.
* `Outcome.rejectShared_eq_ok_iff`: a cell keeps its files if and only if each of their paths is
  claimed once.
* `Pipeline.plan_outcomes`: the outcomes of a plan, kind by kind, before the second check.
* `Pipeline.exists_artifact_of_mem_kindOutcomes`,
  `Pipeline.exists_artifact_of_mem_aggregateOutcomes`: every file of a plan is an artifact, and
  those of different kinds are different ones.
* `pairwise_not_same`: no two files that are left have the same path.
* `machineNameClash?_perm`, `rejectSharedPaths_perm`: the order of the kinds and that of the cells
  are nothing to either check.
-/

namespace KindSchema

/-! ### Lists -/

section Lists

variable {α : Type} {l : List α}

/-- If `a` is the only element of `l` to pass `test`, and `l` has no repetitions, the test finds
just `a`. -/
theorem filter_eq_singleton {test : α → Bool} {a : α} (hl : l.Nodup) (ha : a ∈ l)
    (htest : test a = true) (honly : ∀ b ∈ l, test b = true → b = a) : l.filter test = [a] := by
  rw [← List.perm_singleton, List.perm_ext_iff_of_nodup (hl.filter test) (List.nodup_singleton a)]
  intro b
  rw [List.mem_filter, List.mem_singleton]
  constructor
  · rintro ⟨hb, hpass⟩
    exact honly b hb hpass
  · rintro rfl
    exact ⟨ha, htest⟩

/-- If `a` is the only element of `l` of which `g` gives anything, and `l` has no repetitions, it
gives all there is. -/
theorem flatMap_eq_of_forall_ne {β : Type} {g : α → List β} {a : α} (hl : l.Nodup) (ha : a ∈ l)
    (hother : ∀ b ∈ l, b ≠ a → g b = []) : l.flatMap g = g a := by
  obtain ⟨before, after, rfl⟩ := List.append_of_mem ha
  have hnotMem : a ∉ before ++ after := (List.nodup_cons.mp (List.nodup_middle.mp hl)).1
  have hnil {part : List α} (hpart : ∀ b ∈ part, b ∈ before ++ a :: after ∧ b ≠ a) :
      part.flatMap g = [] :=
    List.flatMap_eq_nil_iff.mpr fun b hb => hother b (hpart b hb).1 (hpart b hb).2
  have hbefore : before.flatMap g = [] := hnil fun b hb =>
    ⟨List.mem_append_left _ hb, fun heq => hnotMem (heq ▸ List.mem_append_left _ hb)⟩
  have hafter : after.flatMap g = [] := hnil fun b hb =>
    ⟨List.mem_append_right _ (List.mem_cons_of_mem _ hb),
      fun heq => hnotMem (heq ▸ List.mem_append_right _ hb)⟩
  rw [List.flatMap_append, List.flatMap_cons, hbefore, hafter, List.nil_append, List.append_nil]

/-- If every element is related to fewer than two, then none is related to another. -/
private theorem pairwise_of_length_filter_lt {related : α → α → Bool}
    (hrefl : ∀ a, related a a = true) (h : ∀ a ∈ l, (l.filter (related · a)).length < 2) :
    l.Pairwise fun a b => related a b = false := by
  induction l with
  | nil => exact .nil
  | cons a l ih =>
    refine List.pairwise_cons.mpr ⟨fun b hb => ?_, ih fun b hb => ?_⟩
    · by_contra hab
      have hlength := h b (List.mem_cons_of_mem a hb)
      have hpos : 0 < (l.filter (related · b)).length :=
        List.length_pos_of_mem (List.mem_filter.mpr ⟨hb, hrefl b⟩)
      rw [List.filter_cons_of_pos (by simpa using hab), List.length_cons] at hlength
      omega
    · have hsublist := (List.sublist_cons_self a l).filter (related · b)
      exact Nat.lt_of_le_of_lt hsublist.length_le (h b (List.mem_cons_of_mem a hb))

/-- Texts have one sorted list, in whatever order they come. -/
private theorem mergeSort_texts_perm {texts texts' : List String} (h : texts.Perm texts') :
    (texts.mergeSort fun a b => decide (a ≤ b)) = texts'.mergeSort fun a b => decide (a ≤ b) := by
  have hsorted (l : List String) : (l.mergeSort fun a b => decide (a ≤ b)).Pairwise (· ≤ ·) :=
    List.pairwise_mergeSort' (· ≤ ·) l
  have hperm : (texts.mergeSort fun a b => decide (a ≤ b)).Perm
      (texts'.mergeSort fun a b => decide (a ≤ b)) :=
    (List.mergeSort_perm _ _).trans (h.trans (List.mergeSort_perm _ _).symm)
  exact hperm.eq_of_pairwise (fun _ _ _ _ => String.le_antisymm) (hsorted texts) (hsorted texts')

/-- The texts of `texts`, if they are different, are sorted strictly. -/
theorem pairwise_mergeSort_texts {texts : List String} (h : texts.Nodup) :
    (texts.mergeSort fun a b => decide (a ≤ b)).Pairwise (· < ·) := by
  have hsorted : (texts.mergeSort fun a b => decide (a ≤ b)).Pairwise (· ≤ ·) :=
    List.pairwise_mergeSort' (· ≤ ·) texts
  have hnodup : (texts.mergeSort fun a b => decide (a ≤ b)).Nodup :=
    (List.mergeSort_perm _ _).nodup_iff.mpr h
  exact (hsorted.and hnodup).imp fun h => lt_of_le_of_ne h.1 h.2

section Duplicates

variable [BEq α] [LawfulBEq α]

/-- What is left of `l` without duplicates has none. -/
theorem nodup_eraseDups (l : List α) : l.eraseDups.Nodup := by
  induction hlength : l.length using Nat.strong_induction_on generalizing l with
  | _ n ih =>
    cases l with
    | nil => exact List.nodup_nil
    | cons a l =>
      rw [List.eraseDups_cons, List.nodup_cons, List.mem_eraseDups]
      -- The rest is shorter, as some duplicates of `a` may be left out.
      have hshorter : (l.filter fun b => !b == a).length < n := by
        have hle := List.length_filter_le (fun b => !b == a) l
        rw [List.length_cons] at hlength
        omega
      exact ⟨by simp, ih _ hshorter _ rfl⟩

/-- Lists of the same elements are the same but for their order, without their duplicates. -/
private theorem eraseDups_perm {l l' : List α} (h : l.Perm l') : l.eraseDups.Perm l'.eraseDups := by
  rw [List.perm_ext_iff_of_nodup (nodup_eraseDups l) (nodup_eraseDups l')]
  intro a
  rw [List.mem_eraseDups, List.mem_eraseDups, h.mem_iff]

end Duplicates

end Lists

/-! ### Machine names -/

private theorem greatest?_eq_none_iff {texts : List String} :
    greatest? texts = none ↔ texts = [] := by
  rw [greatest?, List.getLast?_eq_none_iff, ← List.length_eq_zero_iff, List.length_mergeSort,
    List.length_eq_zero_iff]

/-- The kinds that have a machine name are as many as their names. -/
private theorem length_machineNameClaimants (kinds : List Kind) (machineName : String) :
    (machineNameClaimants kinds machineName).length =
      (kinds.filter (·.machineName == machineName)).length := by
  rw [machineNameClaimants, List.length_mergeSort, List.length_map]

/-- Whether and how the kind `name` has a clash does not depend on the order of the kinds. -/
theorem machineNameClash?_perm {kinds kinds' : List Kind} (h : kinds.Perm kinds') (name : String) :
    machineNameClash? kinds name = machineNameClash? kinds' name := by
  have hclaimants : machineNameClaimants kinds = machineNameClaimants kinds' := by
    funext machineName
    exact mergeSort_texts_perm ((h.filter _).map _)
  have hshared : (sharedMachineNames kinds name).Perm (sharedMachineNames kinds' name) := by
    rw [sharedMachineNames, sharedMachineNames, hclaimants]
    exact ((h.filter _).map _).filter _
  have hgreatest :
      greatest? (sharedMachineNames kinds name) = greatest? (sharedMachineNames kinds' name) :=
    congrArg List.getLast? (mergeSort_texts_perm hshared)
  rw [machineNameClash?, machineNameClash?, hgreatest, hclaimants]

section Kinds

variable {kinds : List Kind} {k : Kind}

/-- Among `kinds` of different names, a name tells the kind. -/
theorem filter_name_eq (hnames : (kinds.map (·.name)).Nodup) (hk : k ∈ kinds) :
    kinds.filter (·.name == k.name) = [k] :=
  filter_eq_singleton hnames.of_map hk (beq_self_eq_true _) fun _ hother heq =>
    List.inj_on_of_nodup_map hnames hother hk (beq_iff_eq.mp heq)

/-- The kind `k` has no clash if and only if no other of `kinds` has its machine name. -/
theorem machineNameClash?_eq_none_iff (hnames : (kinds.map (·.name)).Nodup) (hk : k ∈ kinds) :
    machineNameClash? kinds k.name = none ↔
      ∀ other ∈ kinds, other.machineName = k.machineName → other = k := by
  rw [machineNameClash?, Option.map_eq_none_iff, greatest?_eq_none_iff, sharedMachineNames,
    filter_name_eq hnames hk, List.map_singleton, List.filter_eq_nil_iff]
  simp only [List.mem_singleton, forall_eq, decide_eq_true_eq, length_machineNameClaimants,
    Nat.not_le]
  constructor
  · intro hlength other hother hmachine
    by_contra hne
    have hsubset : [other, k] ⊆ kinds.filter (·.machineName == k.machineName) := by
      simp [hother, hk, hmachine]
    have hpair : [other, k].Nodup := by simpa using hne
    have htwo := (List.subperm_of_subset hpair hsubset).length_le
    simp only [List.length_cons, List.length_nil] at htwo
    omega
  · intro honly
    have hclaimants : kinds.filter (·.machineName == k.machineName) = [k] :=
      filter_eq_singleton hnames.of_map hk (beq_self_eq_true _) fun other hother heq =>
        honly other hother (beq_iff_eq.mp heq)
    rw [hclaimants]
    exact Nat.lt_succ_self 1

end Kinds

/-! ### Shared paths -/

/-- The kinds of some files do not depend on the order of the files. -/
private theorem kindsOf_perm {files files' : List GeneratedFile} (h : files.Perm files') :
    kindsOf files = kindsOf files' :=
  mergeSort_texts_perm (eraseDups_perm (h.map _))

namespace Outcome

variable {files files' own : List GeneratedFile} {o : Outcome}

/-- The cell `o` keeps its files if and only if each of their paths is claimed once. -/
theorem rejectShared_eq_ok_iff : (o.rejectShared files).result = .ok own ↔
    o.result = .ok own ∧ ∀ f ∈ own, (pathClaimants files f.path).length < 2 := by
  obtain ⟨cell, e | held⟩ := o
  · exact ⟨nofun, fun h => nomatch h.1⟩
  · unfold rejectShared
    dsimp only
    split
    · next hfind =>
      rw [List.find?_eq_none] at hfind
      constructor
      · rintro ⟨⟩
        exact ⟨rfl, fun f hf => by simpa using hfind f hf⟩
      · exact fun h => h.1
    -- The first file with a path that is claimed twice is the reason to reject the cell.
    · next f hfind =>
      refine ⟨nofun, fun ⟨heq, hall⟩ => ?_⟩
      cases heq
      have hshared := List.find?_some hfind
      have hclaims := hall f (List.mem_of_find?_eq_some hfind)
      simp only [decide_eq_true_eq] at hshared
      omega

/-- Only those of `files` count that have a path of the cell `o`, and not their order. -/
theorem rejectShared_congr
    (h : ∀ own, o.result = .ok own → ∀ f ∈ own,
      (pathClaimants files f.path).Perm (pathClaimants files' f.path)) :
    o.rejectShared files = o.rejectShared files' := by
  obtain ⟨cell, e | held⟩ := o
  · rfl
  · have hfind : held.find? (fun f => decide (2 ≤ (pathClaimants files f.path).length)) =
        held.find? fun f => decide (2 ≤ (pathClaimants files' f.path).length) := by
      rw [← List.head?_filter, ← List.head?_filter]
      exact congrArg _ (List.filter_congr fun f hf => by rw [(h held rfl f hf).length_eq])
    unfold rejectShared
    dsimp only
    rw [hfind]
    split
    · rfl
    · next f hf => rw [kindsOf_perm (h held rfl f (List.mem_of_find?_eq_some hf))]

end Outcome

/-- The check of paths does not depend on the order of `outcomes`. -/
theorem rejectSharedPaths_perm {outcomes outcomes' : List Outcome} (h : outcomes.Perm outcomes') :
    (rejectSharedPaths outcomes).Perm (rejectSharedPaths outcomes') := by
  have hfiles : (allFiles outcomes).Perm (allFiles outcomes') := h.flatMap_right _
  have hreject : Outcome.rejectShared (allFiles outcomes) =
      Outcome.rejectShared (allFiles outcomes') := by
    funext o
    exact Outcome.rejectShared_congr fun _ _ _ _ => hfiles.filter _
  rw [rejectSharedPaths, rejectSharedPaths, hreject]
  exact h.map _

/-- The files of `o`. -/
def Outcome.files (o : Outcome) : List GeneratedFile :=
  match o.result with
  | .ok files => files
  | .error _ => []

theorem Outcome.files_of_eq_ok {o : Outcome} {own : List GeneratedFile} (h : o.result = .ok own) :
    o.files = own := by
  rw [files, h]

theorem Outcome.exists_eq_ok_of_mem_files {o : Outcome} {f : GeneratedFile} (hf : f ∈ o.files) :
    ∃ own, o.result = .ok own ∧ f ∈ own := by
  unfold files at hf
  split at hf
  · next own heq => exact ⟨own, heq, hf⟩
  · cases hf

theorem mem_allFiles {outcomes : List Outcome} {f : GeneratedFile} :
    f ∈ allFiles outcomes ↔ ∃ o ∈ outcomes, f ∈ o.files :=
  List.mem_flatMap

/-- The files that are left are among those of all `outcomes`. -/
theorem allFiles_rejectSharedPaths_sublist (outcomes : List Outcome) :
    (allFiles (rejectSharedPaths outcomes)).Sublist (allFiles outcomes) := by
  rw [rejectSharedPaths, allFiles, List.flatMap_map]
  refine List.Sublist.flatMap_right outcomes fun o _ => ?_
  cases hresult : (o.rejectShared (allFiles outcomes)).result with
  | error e => exact List.nil_sublist _
  | ok own => rw [(Outcome.rejectShared_eq_ok_iff.mp hresult).1]

/-- No two files that are left of `outcomes` have the same path. -/
theorem pairwise_not_same (outcomes : List Outcome) :
    (allFiles (rejectSharedPaths outcomes)).Pairwise fun f g => f.path.same g.path = false := by
  refine pairwise_of_length_filter_lt (fun f => Path.same_iff.mpr rfl) fun f hf => ?_
  obtain ⟨left, hleft, hmem⟩ := mem_allFiles.mp hf
  obtain ⟨o, -, rfl⟩ := List.mem_map.mp hleft
  obtain ⟨own, hown, hfown⟩ := Outcome.exists_eq_ok_of_mem_files hmem
  have hsublist := (allFiles_rejectSharedPaths_sublist outcomes).filter (·.path.same f.path)
  exact Nat.lt_of_le_of_lt hsublist.length_le
    ((Outcome.rejectShared_eq_ok_iff.mp hown).2 f hfown)

/-- That `a` belongs, in a run over `kinds`, to the kind `name`, which has no clash, or to all
kinds. -/
def Artifact.BelongsTo (kinds : List Kind) (name : String) (a : Artifact) : Prop :=
  match a.machineName with
  | some machineName => ∃ k ∈ kinds, k.name = name ∧ k.machineName = machineName ∧
      machineNameClash? kinds k.name = none
  | none => name = CellId.allKinds

/-- The name and the machine name that an artifact has tell each other. -/
theorem Artifact.BelongsTo.machineName_eq_iff {kinds : List Kind} {name name' : String}
    {a a' : Artifact} (hnames : (kinds.map (·.name)).Nodup) (h : a.BelongsTo kinds name)
    (h' : a'.BelongsTo kinds name') (haggregate : a.machineName.isNone = a'.machineName.isNone) :
    a.machineName = a'.machineName ↔ name = name' := by
  obtain ⟨_, _ | machineName, _⟩ := a <;> obtain ⟨_, _ | machineName', _⟩ := a'
  · rw [show name = _ from h, show name' = _ from h']
    exact iff_of_true rfl rfl
  · cases haggregate
  · cases haggregate
  · obtain ⟨k, hk, rfl, rfl, hclash⟩ := h
    obtain ⟨k', hk', rfl, rfl, -⟩ := h'
    rw [Option.some.injEq]
    constructor
    · intro heq
      rw [(machineNameClash?_eq_none_iff hnames hk).mp hclash k' hk' heq.symm]
    · exact fun heq => congrArg _ (List.inj_on_of_nodup_map hnames hk hk' heq)

namespace Pipeline

/-! ### The plan -/

/-- The outcomes of the cells of `k`, before paths are compared. -/
def kindOutcomes (p : Pipeline) (kinds : List Kind) (k : Kind) : List Outcome :=
  p.perKind.flatMap fun g =>
    (p.effectiveVariants.filter (k.supports ·.id)).map fun v => p.outcomeOf kinds k g v

/-- The outcome of the cell of all `kinds` together for `g` and `v`. -/
def aggregateOutcomeOf (p : Pipeline) (kinds : List Kind) (g : Generator) (v : Variant) :
    Outcome where
  cell := ⟨CellId.allKinds, g, v.id⟩
  result := (p.generateAggregate (kinds.filter (·.supports v.id)) g v).file.map ([·])

/-- The outcomes of the cells of all `kinds` together, before paths are compared. -/
def aggregateOutcomes (p : Pipeline) (kinds : List Kind) : List Outcome :=
  p.aggregateCells.map fun (g, v) => p.aggregateOutcomeOf kinds g v

/-- The outcomes of all cells of a run of `p` over `kinds`, before paths are compared. -/
def rendered (p : Pipeline) (kinds : List Kind) : List Outcome :=
  kinds.flatMap (p.kindOutcomes kinds) ++ p.aggregateOutcomes kinds

/-- Those of `kinds` that are left out of the files of all kinds together. -/
def aggregateExcluded (p : Pipeline) (kinds : List Kind) : List CellFailure :=
  p.aggregateCells.flatMap fun (g, v) => excludedOf (kinds.filter (·.supports v.id)) g v.id

/-- The cells of files of all `kinds` together that are skipped, as their kinds do not declare the
variant. -/
def aggregateSkipped (p : Pipeline) (kinds : List Kind) : List CellId :=
  p.aggregateCells.flatMap fun (g, v) =>
    (kinds.filter (!·.supports v.id)).map fun k => ⟨k.name, g, v.id⟩

/-- The cells of `k` that are skipped. -/
def kindSkipped (p : Pipeline) (k : Kind) : List CellId :=
  p.perKind.flatMap fun g =>
    (p.effectiveVariants.filter (!k.supports ·.id)).map fun v => ⟨k.name, g, v.id⟩

variable (p : Pipeline) (kinds : List Kind)

theorem plan_outcomes : (p.plan kinds).outcomes = rejectSharedPaths (p.rendered kinds) := by
  have hrendered : ((p.cells kinds).filter fun c => c.1.supports c.2.2.id).map
      (fun c => p.outcomeOf kinds c.1 c.2.1 c.2.2) = kinds.flatMap (p.kindOutcomes kinds) := by
    simp only [cells, List.filter_flatMap, List.map_flatMap, List.filter_map, List.map_map,
      Function.comp_def]
    rfl
  simp only [plan, List.partition_eq_filter_filter, hrendered, List.map_map]
  rfl

theorem plan_skipped : (p.plan kinds).skipped =
    kinds.flatMap p.kindSkipped ++ p.aggregateSkipped kinds := by
  simp only [plan, List.partition_eq_filter_filter, cells, List.filter_flatMap, List.map_flatMap,
    List.filter_map, List.map_map, Function.comp_def]
  rfl

theorem plan_excluded : (p.plan kinds).excluded = p.aggregateExcluded kinds := by
  simp only [plan, List.flatMap_map]
  rfl

/-! ### The files of a plan -/

variable {p : Pipeline} {kinds : List Kind} {k : Kind} {o : Outcome} {f : GeneratedFile}

/-- The files of an outcome of a plan were rendered for its cell. -/
theorem exists_rendered_of_mem_plan (ho : o ∈ (p.plan kinds).outcomes) (hf : f ∈ o.files) :
    ∃ o' ∈ p.rendered kinds, o'.cell = o.cell ∧ f ∈ o'.files := by
  rw [plan_outcomes] at ho
  obtain ⟨o', ho', rfl⟩ := List.mem_map.mp ho
  obtain ⟨own, hown, hmem⟩ := Outcome.exists_eq_ok_of_mem_files hf
  have hrendered := (Outcome.rejectShared_eq_ok_iff.mp hown).1
  exact ⟨o', ho', (Outcome.cell_rejectShared _ o').symm, Outcome.files_of_eq_ok hrendered ▸ hmem⟩

theorem mem_perKind {g : Generator} : g ∈ p.perKind ↔ g ∈ p.generators ∧ g.isAggregate = false := by
  rw [perKind, List.mem_filter, Bool.not_eq_true']

/-- The cells of a kind are those of the generators and of the variants it declares. -/
theorem mem_kindOutcomes : o ∈ p.kindOutcomes kinds k ↔
    ∃ g ∈ p.perKind, ∃ v ∈ p.effectiveVariants, k.supports v.id = true ∧
      o = p.outcomeOf kinds k g v := by
  simp only [kindOutcomes, List.mem_flatMap, List.mem_map, List.mem_filter, and_assoc, eq_comm]

/-- A cell of a kind has files if and only if the kind has no clash and can be generated. -/
theorem outcomeOf_eq_ok_iff {g : Generator} {v : Variant} {files : List GeneratedFile} :
    (p.outcomeOf kinds k g v).result = .ok files ↔
      machineNameClash? kinds k.name = none ∧ p.generate k g v = .ok files := by
  unfold outcomeOf
  cases machineNameClash? kinds k.name <;> simp

/-- The file of a cell of a kind is an artifact of the kind. -/
theorem exists_artifact_of_mem_kindOutcomes (ho : o ∈ p.kindOutcomes kinds k) (hf : f ∈ o.files) :
    o.cell = ⟨k.name, f.generator, f.variant⟩ ∧ f.kind = k.name ∧
      machineNameClash? kinds k.name = none ∧
      ∃ a, f.IsArtifact p a ∧ a.machineName = some k.machineName := by
  obtain ⟨g, hg, v, -, -, rfl⟩ := mem_kindOutcomes.mp ho
  obtain ⟨own, hown, hmem⟩ := Outcome.exists_eq_ok_of_mem_files hf
  obtain ⟨hclash, hgenerate⟩ := outcomeOf_eq_ok_iff.mp hown
  have hperKind := (mem_perKind.mp hg).2
  obtain ⟨hkind, rfl, hvariant⟩ := (generate_files hperKind hgenerate).2.1 f hmem
  obtain ⟨name, -, hartifact⟩ := exists_artifact_of_mem_generate hperKind hgenerate hmem
  exact ⟨by rw [hvariant]; rfl, hkind, hclash, _, hartifact, rfl⟩

/-- The cells of all kinds together are those of the index. -/
theorem mem_aggregateCells {g : Generator} {v : Variant} : (g, v) ∈ p.aggregateCells ↔
    g ∈ p.generators ∧ g = .tsIndex ∧ v ∈ p.effectiveVariants := by
  simp only [aggregateCells, aggregates, List.mem_flatMap, List.mem_filter, List.mem_map,
    Prod.mk.injEq, Generator.isAggregate_iff]
  constructor
  · rintro ⟨_, ⟨hg, haggregate⟩, _, hv, rfl, rfl⟩
    exact ⟨hg, haggregate, hv⟩
  · rintro ⟨hg, haggregate, hv⟩
    exact ⟨g, ⟨hg, haggregate⟩, v, hv, rfl, rfl⟩

theorem mem_aggregateOutcomes : o ∈ p.aggregateOutcomes kinds ↔
    ∃ v ∈ p.effectiveVariants, .tsIndex ∈ p.generators ∧
      o = p.aggregateOutcomeOf kinds .tsIndex v := by
  simp only [aggregateOutcomes, List.mem_map, Prod.exists, mem_aggregateCells]
  constructor
  · rintro ⟨g, v, ⟨hg, rfl, hv⟩, rfl⟩
    exact ⟨v, hv, hg, rfl⟩
  · rintro ⟨v, hv, hg, rfl⟩
    exact ⟨_, v, ⟨hg, rfl, hv⟩, rfl⟩

/-- The cells of the outcomes are those of kinds in the variants they declare, and those of the
index. -/
theorem mem_cells_outcomes {c : CellId} : c ∈ (p.plan kinds).outcomes.map (·.cell) ↔
    (∃ k ∈ kinds, ∃ g ∈ p.perKind, ∃ v ∈ p.effectiveVariants, k.supports v.id = true ∧
      c = ⟨k.name, g, v.id⟩) ∨
    .tsIndex ∈ p.generators ∧ ∃ v ∈ p.effectiveVariants, c = ⟨CellId.allKinds, .tsIndex, v.id⟩ := by
  rw [plan_outcomes, map_cell_rejectSharedPaths, rendered, List.map_append, List.mem_append]
  refine or_congr ?_ ?_
  · constructor
    · intro hc
      obtain ⟨o, ho, rfl⟩ := List.mem_map.mp hc
      obtain ⟨k, hk, ho⟩ := List.mem_flatMap.mp ho
      obtain ⟨g, hg, v, hv, hsupports, rfl⟩ := mem_kindOutcomes.mp ho
      exact ⟨k, hk, g, hg, v, hv, hsupports, rfl⟩
    · rintro ⟨k, hk, g, hg, v, hv, hsupports, rfl⟩
      refine List.mem_map.mpr ⟨p.outcomeOf kinds k g v, List.mem_flatMap.mpr ⟨k, hk, ?_⟩, rfl⟩
      exact mem_kindOutcomes.mpr ⟨g, hg, v, hv, hsupports, rfl⟩
  · constructor
    · intro hc
      obtain ⟨o, ho, rfl⟩ := List.mem_map.mp hc
      obtain ⟨v, hv, hindex, rfl⟩ := mem_aggregateOutcomes.mp ho
      exact ⟨hindex, v, hv, rfl⟩
    · rintro ⟨hindex, v, hv, rfl⟩
      exact List.mem_map.mpr ⟨_, mem_aggregateOutcomes.mpr ⟨v, hv, hindex, rfl⟩, rfl⟩

/-- The kinds that are left out of an index are those that declare its variant and are no members
of it. -/
theorem mem_plan_excluded {e : CellFailure} : e ∈ (p.plan kinds).excluded ↔
    .tsIndex ∈ p.generators ∧ ∃ v ∈ p.effectiveVariants, ∃ k ∈ kinds, k.supports v.id = true ∧
      ∃ cause, memberOf (kinds.filter (·.supports v.id)) .tsIndex k = .error cause ∧
        e = ⟨⟨k.name, .tsIndex, v.id⟩, .schema cause⟩ := by
  rw [plan_excluded, aggregateExcluded, List.mem_flatMap]
  constructor
  · rintro ⟨⟨g, v⟩, hcell, he⟩
    obtain ⟨hindex, rfl, hv⟩ := mem_aggregateCells.mp hcell
    obtain ⟨k, hk, he⟩ := List.mem_filterMap.mp he
    obtain ⟨hk, hsupports⟩ := List.mem_filter.mp hk
    cases hmember : memberOf (kinds.filter (·.supports v.id)) .tsIndex k with
    | error cause =>
      simp only [hmember, Option.some.injEq] at he
      exact ⟨hindex, v, hv, k, hk, hsupports, cause, hmember, he.symm⟩
    | ok r => simp [hmember] at he
  · rintro ⟨hindex, v, hv, k, hk, hsupports, cause, hmember, rfl⟩
    refine ⟨(.tsIndex, v), mem_aggregateCells.mpr ⟨hindex, rfl, hv⟩, ?_⟩
    exact List.mem_filterMap.mpr ⟨k, List.mem_filter.mpr ⟨hk, hsupports⟩, by rw [hmember]⟩

/-- The cells that are skipped are those of kinds in the variants they do not declare. -/
theorem mem_plan_skipped {c : CellId} : c ∈ (p.plan kinds).skipped ↔
    ∃ k ∈ kinds, ∃ g ∈ p.generators, ∃ v ∈ p.effectiveVariants, k.supports v.id = false ∧
      c = ⟨k.name, g, v.id⟩ := by
  rw [plan_skipped, List.mem_append]
  constructor
  · rintro (hc | hc)
    · obtain ⟨k, hk, hc⟩ := List.mem_flatMap.mp hc
      obtain ⟨g, hg, hc⟩ := List.mem_flatMap.mp hc
      obtain ⟨v, hv, rfl⟩ := List.mem_map.mp hc
      obtain ⟨hv, hsupports⟩ := List.mem_filter.mp hv
      exact ⟨k, hk, g, (mem_perKind.mp hg).1, v, hv, by simpa using hsupports, rfl⟩
    · obtain ⟨⟨g, v⟩, hcell, hc⟩ := List.mem_flatMap.mp hc
      obtain ⟨hg, -, hv⟩ := mem_aggregateCells.mp hcell
      obtain ⟨k, hk, rfl⟩ := List.mem_map.mp hc
      obtain ⟨hk, hsupports⟩ := List.mem_filter.mp hk
      exact ⟨k, hk, g, hg, v, hv, by simpa using hsupports, rfl⟩
  · rintro ⟨k, hk, g, hg, v, hv, hsupports, rfl⟩
    have hundeclared : (!k.supports v.id) = true := by rw [hsupports]; rfl
    cases haggregate : g.isAggregate with
    | false =>
      refine .inl (List.mem_flatMap.mpr ⟨k, hk, List.mem_flatMap.mpr ⟨g, ?_, ?_⟩⟩)
      · exact mem_perKind.mpr ⟨hg, haggregate⟩
      · exact List.mem_map.mpr ⟨v, List.mem_filter.mpr ⟨hv, hundeclared⟩, rfl⟩
    | true =>
      refine .inr (List.mem_flatMap.mpr ⟨(g, v), ?_, ?_⟩)
      · exact mem_aggregateCells.mpr ⟨hg, Generator.isAggregate_iff.mp haggregate, hv⟩
      · exact List.mem_map.mpr ⟨k, List.mem_filter.mpr ⟨hk, hundeclared⟩, rfl⟩

/-- A cell of all `kinds` has one file, at the place of the index. -/
theorem aggregateOutcomeOf_eq_ok_iff {g : Generator} {v : Variant} {files : List GeneratedFile} :
    (p.aggregateOutcomeOf kinds g v).result = .ok files ↔
      ∃ content, g.renderAll (membersOf (kinds.filter (·.supports v.id)) g) = .ok content ∧
        files = [finish CellId.allKinds g v (aggregatePath g.suffix g v.id (p.subdirectory? g))
          content] := by
  simp only [aggregateOutcomeOf, generateAggregate]
  cases g.renderAll (membersOf (kinds.filter (·.supports v.id)) g) with
  | error e => exact ⟨nofun, fun ⟨_, h, _⟩ => nomatch h⟩
  | ok content =>
    constructor
    · rintro ⟨⟩
      exact ⟨content, rfl, rfl⟩
    · rintro ⟨_, ⟨⟩, rfl⟩
      rfl

/-- The file `f` of a cell of all kinds is the index of its variant. -/
theorem exists_artifact_of_mem_aggregateOutcomes (ho : o ∈ p.aggregateOutcomes kinds)
    (hf : f ∈ o.files) : o.cell = ⟨CellId.allKinds, f.generator, f.variant⟩ ∧
      f.kind = CellId.allKinds ∧ f.IsArtifact p ⟨.tsIndex, none, Generator.tsIndex.suffix⟩ := by
  obtain ⟨v, -, -, rfl⟩ := mem_aggregateOutcomes.mp ho
  obtain ⟨own, hown, hmem⟩ := Outcome.exists_eq_ok_of_mem_files hf
  obtain ⟨content, -, rfl⟩ := aggregateOutcomeOf_eq_ok_iff.mp hown
  cases List.mem_singleton.mp hmem
  exact ⟨rfl, rfl, .index, rfl, rfl⟩

/-- The file `f` of any cell is an artifact of a kind without a clash, or the index. -/
theorem exists_artifact_of_mem_rendered (ho : o ∈ p.rendered kinds) (hf : f ∈ o.files) :
    o.cell = ⟨f.kind, f.generator, f.variant⟩ ∧
      ∃ a, f.IsArtifact p a ∧ a.BelongsTo kinds f.kind := by
  rcases List.mem_append.mp ho with ho | ho
  · obtain ⟨k, hk, ho⟩ := List.mem_flatMap.mp ho
    obtain ⟨hcell, hkind, hclash, a, hartifact, hmachine⟩ :=
      exists_artifact_of_mem_kindOutcomes ho hf
    refine ⟨by rw [hcell, hkind], a, hartifact, ?_⟩
    rw [Artifact.BelongsTo, hmachine]
    exact ⟨k, hk, hkind.symm, rfl, hclash⟩
  · obtain ⟨hcell, hkind, hartifact⟩ := exists_artifact_of_mem_aggregateOutcomes ho hf
    exact ⟨by rw [hcell, hkind], _, hartifact, hkind⟩

/-- The cells of a run of `p` are in its variants. -/
theorem exists_variant_of_mem_rendered (ho : o ∈ p.rendered kinds) :
    ∃ v ∈ p.effectiveVariants, v.id = o.cell.variant := by
  rcases List.mem_append.mp ho with ho | ho
  · obtain ⟨k, -, ho⟩ := List.mem_flatMap.mp ho
    obtain ⟨g, -, v, hv, -, rfl⟩ := mem_kindOutcomes.mp ho
    exact ⟨v, hv, rfl⟩
  · obtain ⟨v, hv, -, rfl⟩ := mem_aggregateOutcomes.mp ho
    exact ⟨v, hv, rfl⟩

/-- Only files of its own cells can have the path of `f`, a file of `k`. -/
theorem pathClaimants_rendered (hnames : (kinds.map (·.name)).Nodup) (hk : k ∈ kinds)
    (ho : o ∈ p.kindOutcomes kinds k) (hf : f ∈ o.files) :
    pathClaimants (allFiles (p.rendered kinds)) f.path =
      pathClaimants (allFiles (p.kindOutcomes kinds k)) f.path := by
  obtain ⟨-, -, hclash, a, hartifact, hmachine⟩ := exists_artifact_of_mem_kindOutcomes ho hf
  have halone := (machineNameClash?_eq_none_iff hnames hk).mp hclash
  -- A file of another kind, or of all kinds, belongs to another artifact.
  have hother {outcomes : List Outcome}
      (h : ∀ o' ∈ outcomes, ∀ f' ∈ o'.files, ∃ a', f'.IsArtifact p a' ∧ a' ≠ a) :
      pathClaimants (allFiles outcomes) f.path = [] := by
    rw [pathClaimants, List.filter_eq_nil_iff]
    intro f' hf' hsame
    obtain ⟨o', ho', hmem⟩ := mem_allFiles.mp hf'
    obtain ⟨a', hartifact', hne⟩ := h o' ho' f' hmem
    rw [hartifact.path_eq, hartifact'.path_eq,
      Artifact.same_path_iff hartifact'.proper hartifact.proper] at hsame
    exact hne hsame.1
  have hkinds : pathClaimants (allFiles (kinds.flatMap (p.kindOutcomes kinds))) f.path =
      pathClaimants (allFiles (p.kindOutcomes kinds k)) f.path := by
    rw [pathClaimants, allFiles, List.flatMap_assoc, List.filter_flatMap]
    refine flatMap_eq_of_forall_ne hnames.of_map hk fun k' hk' hne => ?_
    refine hother fun o' ho' f' hf' => ?_
    obtain ⟨-, -, -, a', hartifact', hmachine'⟩ := exists_artifact_of_mem_kindOutcomes ho' hf'
    refine ⟨a', hartifact', fun heq => hne (halone k' hk' ?_)⟩
    rw [heq, hmachine] at hmachine'
    exact (Option.some.inj hmachine').symm
  have haggregates : pathClaimants (allFiles (p.aggregateOutcomes kinds)) f.path = [] := by
    refine hother fun o' ho' f' hf' => ?_
    obtain ⟨-, -, hartifact'⟩ := exists_artifact_of_mem_aggregateOutcomes ho' hf'
    refine ⟨_, hartifact', fun heq => ?_⟩
    rw [← heq] at hmachine
    cases hmachine
  rw [pathClaimants] at haggregates hkinds ⊢
  rw [rendered, allFiles, List.flatMap_append, List.filter_append]
  exact (congrArg₂ (· ++ ·) hkinds haggregates).trans (List.append_nil _)

end Pipeline

/-! ### A small run -/

namespace Sample

/-- A kind with one field. -/
def folder : Kind where
  name := "Folder"
  metadata := { type := .struct { fields := [] } }
  spec := { fields := [{ name := "title", type := .string }] }
  status := { fields := [] }

/-- TypeScript modules and their index, in both variants. -/
def typeScript : Pipeline where
  generators := [.tsTypes, .tsIndex]
  variants := [{ id := .noParams }, { id := .withParams, params := { header := some "main" } }]

end Sample

end KindSchema
