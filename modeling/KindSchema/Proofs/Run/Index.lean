import KindSchema.Proofs.Run.Isolation

/-!
# The index and the modules it exports

A kind takes part in the index of a variant if it has no clash with the kinds that declare the
variant. Its module in that variant survives if it has no clash with any kind of the run and no
other file has its path. The two differ.

* `Pipeline.index_content`, `Pipeline.mem_exported_iff`: what the file of an index holds, and which
  kinds it exports.
* `Pipeline.moduleAlone_iff`: when the module of a kind survives.
* `index_agrees`: which of the exported modules a dry run lists.
-/

namespace KindSchema

/-! ### The text of an index -/

namespace TypeScript

/-- The lines that export `kinds`; a module that exports nothing if there are none. -/
def exports (kinds : List ResolvedKind) : String :=
  if kinds.isEmpty then "export \x7b\x7d;\n" else String.join (kinds.map exportLine)

/-- Kinds whose names and machine names are new and different are exported line by line. -/
private theorem exportLines_eq_ok {names machineNames : List String} {kinds : List ResolvedKind}
    (hnames : (kinds.map (·.name)).Nodup) (hmachines : (kinds.map (·.machineName)).Nodup)
    (hnew : ∀ k ∈ kinds, k.name ∉ names ∧ k.machineName ∉ machineNames) :
    exportLines names machineNames kinds = .ok (String.join (kinds.map exportLine)) := by
  -- By induction on the kinds, for all names exported before: each kind adds its own.
  induction kinds generalizing names machineNames with
  | nil => rfl
  | cons k kinds ih =>
    obtain ⟨⟨hname, hmachine⟩, hrest⟩ := List.forall_mem_cons.mp hnew
    rw [List.map_cons, List.nodup_cons] at hnames hmachines
    have hnew' : ∀ k' ∈ kinds,
        k'.name ∉ k.name :: names ∧ k'.machineName ∉ k.machineName :: machineNames := by
      intro k' hk'
      have hname' : k'.name ≠ k.name :=
        fun heq => hnames.1 (List.mem_map.mpr ⟨k', hk', heq⟩)
      have hmachine' : k'.machineName ≠ k.machineName :=
        fun heq => hmachines.1 (List.mem_map.mpr ⟨k', hk', heq⟩)
      exact ⟨List.not_mem_cons_of_ne_of_not_mem hname' (hrest k' hk').1,
        List.not_mem_cons_of_ne_of_not_mem hmachine' (hrest k' hk').2⟩
    rw [exportLines, if_neg hname, if_neg hmachine, ih hnames.2 hmachines.2 hnew', List.map_cons,
      String.join_cons]
    rfl

/-- The text of an index of `kinds` that are in the order of their machine names. -/
theorem indexText_eq_ok {kinds : List ResolvedKind} (hnames : (kinds.map (·.name)).Nodup)
    (hmachines : (kinds.map (·.machineName)).Nodup)
    (hsorted : kinds.Pairwise fun a b => a.machineName ≤ b.machineName) :
    indexText kinds = .ok (exports kinds) := by
  unfold indexText exports
  split
  · rfl
  · have hsort : kinds.mergeSort (fun a b => decide (a.machineName ≤ b.machineName)) = kinds :=
      List.mergeSort_of_pairwise (hsorted.imp fun h => decide_eq_true h)
    rw [hsort]
    exact exportLines_eq_ok hnames hmachines fun k _ => ⟨List.not_mem_nil, List.not_mem_nil⟩

end TypeScript

/-! ### The kinds of an index -/

/-- What `f` keeps of the elements it takes is a part of the whole. -/
theorem map_filterMap_sublist {α β γ : Type} {f : α → Option β} {key : β → γ} {key' : α → γ}
    (h : ∀ a b, f a = some b → key b = key' a) (l : List α) :
    ((l.filterMap f).map key).Sublist (l.map key') := by
  induction l with
  | nil => exact .slnil
  | cons a l ih =>
    cases hf : f a with
    | none => rw [List.filterMap_cons_none hf]; exact ih.cons _
    | some b =>
      rw [List.filterMap_cons_some hf, List.map_cons, List.map_cons, h a b hf]
      exact ih.cons_cons _

namespace Pipeline

variable {kinds : List Kind} {k : Kind} {r : ResolvedKind} {g : Generator} {v : VariantId}

/-- A kind is part of an aggregate file if it has no clash and can be resolved. -/
theorem memberOf_eq_ok_iff : memberOf kinds g k = .ok r ↔
    machineNameClash? kinds k.name = none ∧ k.resolve g.policy = .ok r := by
  unfold memberOf
  split
  · next clash hclash => exact ⟨nofun, fun h => nomatch hclash.symm.trans h.1⟩
  · next hclash => exact ⟨fun h => ⟨hclash, h⟩, fun h => h.2⟩

theorem mem_membersOf : r ∈ membersOf kinds g ↔ ∃ k ∈ kinds, memberOf kinds g k = .ok r := by
  rw [membersOf, List.mem_mergeSort, List.mem_filterMap]
  refine exists_congr fun k => and_congr_right fun _ => ?_
  cases memberOf kinds g k <;> simp [Except.toOption]

/-- The kinds of an aggregate file are in the order of their machine names. -/
theorem pairwise_membersOf :
    (membersOf kinds g).Pairwise fun a b => a.machineName ≤ b.machineName :=
  pairwise_mergeSort_key ResolvedKind.machineName _

/-- The kinds of an aggregate file have different names. -/
theorem nodup_names_membersOf (hnames : (kinds.map (·.name)).Nodup) :
    ((membersOf kinds g).map (·.name)).Nodup := by
  have hsublist : ((kinds.filterMap fun k => (memberOf kinds g k).toOption).map (·.name)).Sublist
      (kinds.map (·.name)) := by
    refine map_filterMap_sublist (fun k r hr => ?_) kinds
    cases hmember : memberOf kinds g k with
    | error e => simp [hmember, Except.toOption] at hr
    | ok r' =>
      simp only [hmember, Except.toOption, Option.some.injEq] at hr
      exact hr ▸ (Kind.resolve_run (memberOf_eq_ok_iff.mp hmember).2).2.1
  exact ((List.mergeSort_perm _ _).map _).nodup_iff.mpr (hnames.sublist hsublist)

/-- The kinds of an aggregate file have different machine names. -/
theorem nodup_machineNames_membersOf (hnames : (kinds.map (·.name)).Nodup) :
    ((membersOf kinds g).map (·.machineName)).Nodup := by
  -- Members of one machine name would have a clash unless they are one kind.
  refine (nodup_names_membersOf hnames).of_map.map_on fun r hr r' hr' heq => ?_
  refine List.inj_on_of_nodup_map (nodup_names_membersOf hnames) hr hr' ?_
  obtain ⟨k, hk, hmember⟩ := mem_membersOf.mp hr
  obtain ⟨k', hk', hmember'⟩ := mem_membersOf.mp hr'
  obtain ⟨hclash, hresolve⟩ := memberOf_eq_ok_iff.mp hmember
  obtain ⟨-, hresolve'⟩ := memberOf_eq_ok_iff.mp hmember'
  rw [Kind.resolve_machineName hresolve, Kind.resolve_machineName hresolve'] at heq
  obtain rfl := (machineNameClash?_eq_none_iff hnames hk).mp hclash k' hk' heq.symm
  rw [(Kind.resolve_run hresolve).2.1, (Kind.resolve_run hresolve').2.1]

/-- Those of `kinds` that the index of the variant `v` exports, resolved. -/
def exported (kinds : List Kind) (v : VariantId) : List ResolvedKind :=
  membersOf (kinds.filter (·.supports v)) .tsIndex

end Pipeline

/-! ### The module of a kind -/

/-- The length of what comes of a list of which some elements give as much and the others
nothing. -/
private theorem length_flatMap_eq_countP_mul {α β : Type} {l : List α} {f : α → List β}
    {test : α → Bool} {n : Nat} (h : ∀ a ∈ l, (f a).length = if test a then n else 0) :
    (l.flatMap f).length = l.countP test * n := by
  induction l with
  | nil => rw [List.flatMap_nil, List.length_nil, List.countP_nil, Nat.zero_mul]
  | cons a l ih =>
    obtain ⟨ha, hl⟩ := List.forall_mem_cons.mp h
    rw [List.flatMap_cons, List.length_append, ha, ih hl, List.countP_cons, Nat.add_mul]
    cases test a <;> simp [Nat.add_comm]

/-- The file of the TypeScript module of `k`. -/
def Kind.moduleArtifact (k : Kind) : Artifact :=
  ⟨.tsTypes, some k.machineName, k.machineName ++ "_types.gen.ts"⟩

namespace Pipeline

variable {p : Pipeline} {kinds : List Kind} {k : Kind} {r : ResolvedKind} {v : VariantId}

/-- A kind that is resolved has a module in every variant. -/
private theorem exists_generate_tsTypes (h : k.resolve .inline = .ok r) (u : Variant) :
    ∃ f, p.generate k .tsTypes u = .ok [f] ∧ f.IsArtifact p k.moduleArtifact ∧
      f.variant = u.id := by
  obtain ⟨f, hgenerate⟩ : ∃ f, p.generate k .tsTypes u = .ok [f] := by
    rw [generate, show k.resolve Generator.tsTypes.policy = .ok r from h]
    exact ⟨_, rfl⟩
  obtain ⟨name, hname, hartifact⟩ :=
    exists_artifact_of_mem_generate rfl hgenerate (List.mem_singleton_self f)
  obtain rfl := List.mem_singleton.mp hname
  obtain ⟨-, -, hvariant⟩ := (generate_files rfl hgenerate).2.1 f (List.mem_singleton_self f)
  exact ⟨f, hgenerate, hartifact, hvariant⟩

/-- Whether `k` has a module in the variant `u` that has the path of its module in `v`. -/
def claimsModule (p : Pipeline) (k : Kind) (v : VariantId) (u : Variant) : Bool :=
  (u.id == v || (p.subdirectoryPath .tsTypes).isAbsolute) && k.supports u.id

/-- No file of another generator has the path of a module. -/
private theorem filter_files_of_ne {g : Generator} {u : Variant} (hg : g.isAggregate = false)
    (hne : g ≠ .tsTypes) (hproper : k.moduleArtifact.Proper) :
    (p.outcomeOf kinds k g u).files.filter (·.path.same (k.moduleArtifact.path p v)) = [] := by
  refine List.filter_eq_nil_iff.mpr fun f hf hsame => hne ?_
  obtain ⟨own, hown, hmem⟩ := Outcome.exists_eq_ok_of_mem_files hf
  obtain ⟨name, -, hartifact⟩ :=
    exists_artifact_of_mem_generate hg (outcomeOf_eq_ok_iff.mp hown).2 hmem
  rw [hartifact.path_eq, Artifact.same_path_iff hartifact.proper hproper] at hsame
  exact congrArg Artifact.generator hsame.1

section Claims

variable (hclash : machineNameClash? kinds k.name = none) (h : k.resolve .inline = .ok r)
include hclash h

/-- The module of a kind in one variant has the path of the module in another if and only if the
variant is the same, unless the subdirectory is absolute. -/
private theorem length_filter_files_tsTypes (u : Variant) :
    ((p.outcomeOf kinds k .tsTypes u).files.filter
      (·.path.same (k.moduleArtifact.path p v))).length =
        if (u.id == v || (p.subdirectoryPath .tsTypes).isAbsolute) then 1 else 0 := by
  obtain ⟨f, hgenerate, hartifact, hvariant⟩ := exists_generate_tsTypes (p := p) h u
  rw [Outcome.files_of_eq_ok (outcomeOf_eq_ok_iff.mpr ⟨hclash, hgenerate⟩)]
  have hsame : f.path.same (k.moduleArtifact.path p v) =
      (u.id == v || (p.subdirectoryPath .tsTypes).isAbsolute) := by
    rw [Bool.eq_iff_iff, hartifact.path_eq, hvariant,
      Artifact.same_path_iff hartifact.proper hartifact.proper]
    simp [Kind.moduleArtifact]
  rw [List.filter_singleton, hsame]
  cases u.id == v || (p.subdirectoryPath .tsTypes).isAbsolute <;> rfl

/-- The files that have the path of a module are the modules of the kind with that path, as often as
they are made. -/
private theorem length_pathClaimants_module (hproper : k.moduleArtifact.Proper) (v : VariantId) :
    (pathClaimants (allFiles (p.kindOutcomes kinds k)) (k.moduleArtifact.path p v)).length =
      p.generators.count .tsTypes * p.effectiveVariants.countP (p.claimsModule k v) := by
  have hclaimants : pathClaimants (allFiles (p.kindOutcomes kinds k)) (k.moduleArtifact.path p v) =
      p.perKind.flatMap fun g => (p.effectiveVariants.filter (k.supports ·.id)).flatMap fun u =>
        (p.outcomeOf kinds k g u).files.filter (·.path.same (k.moduleArtifact.path p v)) := by
    rw [pathClaimants, allFiles, kindOutcomes, List.flatMap_assoc, List.filter_flatMap]
    simp only [List.flatMap_map, List.filter_flatMap]
    rfl
  have hcount : p.generators.count .tsTypes = p.perKind.countP (· == .tsTypes) := by
    rw [perKind, ← List.count_eq_countP, List.count_filter rfl]
  rw [hclaimants, hcount]
  -- Each time the generator is listed it makes as many files with the path; other generators make
  -- none.
  refine length_flatMap_eq_countP_mul fun g hg => ?_
  by_cases hne : g = .tsTypes
  · subst hne
    rw [length_flatMap_eq_countP_mul fun u _ => length_filter_files_tsTypes hclash h u,
      List.countP_filter, Nat.mul_one]
    rfl
  · rw [if_neg (by simpa using hne), List.length_eq_zero_iff, List.flatMap_eq_nil_iff]
    exact fun u _ => filter_files_of_ne (mem_perKind.mp hg).2 hne hproper

/-- The module of a kind, with the number of files of the kind that have its path. -/
private theorem exists_module {u : Variant} (hu : u.id = v) :
    ∃ f, p.generate k .tsTypes u = .ok [f] ∧
    (pathClaimants (allFiles (p.kindOutcomes kinds k)) f.path).length =
      p.generators.count .tsTypes * p.effectiveVariants.countP (p.claimsModule k v) := by
  obtain ⟨f, hgenerate, hartifact, hvariant⟩ := exists_generate_tsTypes (p := p) h u
  refine ⟨f, hgenerate, ?_⟩
  rw [hartifact.path_eq, hvariant, hu]
  exact length_pathClaimants_module hclash h hartifact.proper v

end Claims

/-- That the module of `k` in the variant `v` is the only file of the run with its path. -/
structure ModuleAlone (p : Pipeline) (kinds : List Kind) (k : Kind) (v : VariantId) : Prop where
  /-- No other kind of the run has the machine name, whatever variants it declares. -/
  unrivalled : ∀ other ∈ kinds, other.machineName = k.machineName → other = k
  /-- The generator is listed once. -/
  listed : p.generators.count .tsTypes = 1
  /-- The kind has no other module with the path. -/
  single : p.effectiveVariants.countP (p.claimsModule k v) = 1

/-- The module of `k`, which is resolved, survives both checks if and only if it is alone. -/
theorem moduleAlone_iff (hnames : (kinds.map (·.name)).Nodup) (hk : k ∈ kinds)
    (htypes : .tsTypes ∈ p.generators) (hv : ∃ u ∈ p.effectiveVariants, u.id = v)
    (hsupports : k.supports v = true) (h : k.resolve .inline = .ok r) :
    (∃ o ∈ (p.plan kinds).outcomes, o.cell = ⟨k.name, .tsTypes, v⟩ ∧
      ∃ files, o.result = .ok files ∧ files ≠ []) ↔ p.ModuleAlone kinds k v := by
  have hof (o : Outcome) : o ∈ (p.plan kinds).outcomes ∧ o.cell.isOfKind k.name = true ↔
      o ∈ rejectSharedPaths (p.kindOutcomes kinds k) := by
    rw [← filter_plan_outcomes hnames hk, List.mem_filter]
  constructor
  · rintro ⟨o, ho, hcell, files, hfiles, -⟩
    have hkind : o.cell.isOfKind k.name = true := by
      simp [hcell, CellId.isOfKind, Generator.isAggregate]
    obtain ⟨o', ho', rfl⟩ := List.mem_map.mp ((hof o).mp ⟨ho, hkind⟩)
    obtain ⟨g, -, u, hu, -, rfl⟩ := mem_kindOutcomes.mp ho'
    rw [Outcome.cell_rejectShared] at hcell
    obtain ⟨-, rfl, huv⟩ := CellId.mk.inj hcell
    obtain ⟨hresult, hfew⟩ := Outcome.rejectShared_eq_ok_iff.mp hfiles
    obtain ⟨hclash, hgenerate⟩ := outcomeOf_eq_ok_iff.mp hresult
    obtain ⟨f, hgenerate', hlength⟩ := exists_module (p := p) hclash h huv
    obtain rfl := Except.ok.inj (hgenerate.symm.trans hgenerate')
    -- The path is claimed less than twice, and at least once for each factor.
    have hproduct := hfew f (List.mem_singleton_self f)
    rw [hlength] at hproduct
    have hlisted : 0 < p.generators.count .tsTypes := List.count_pos_iff.mpr htypes
    have hsingle : 0 < p.effectiveVariants.countP (p.claimsModule k v) :=
      List.countP_pos_iff.mpr ⟨u, hu, by simp [claimsModule, huv, hsupports]⟩
    have hone : p.generators.count .tsTypes * p.effectiveVariants.countP (p.claimsModule k v) = 1 :=
      Nat.le_antisymm (Nat.le_of_lt_succ hproduct) (Nat.mul_pos hlisted hsingle)
    exact ⟨(machineNameClash?_eq_none_iff hnames hk).mp hclash, Nat.eq_one_of_mul_eq_one_right hone,
      Nat.eq_one_of_mul_eq_one_left hone⟩
  · intro halone
    have hclash := (machineNameClash?_eq_none_iff hnames hk).mpr halone.unrivalled
    obtain ⟨u, hu, huv⟩ := hv
    obtain ⟨f, hgenerate, hlength⟩ := exists_module (p := p) hclash h huv
    rw [halone.listed, halone.single] at hlength
    have hrendered : p.outcomeOf kinds k .tsTypes u ∈ p.kindOutcomes kinds k :=
      mem_kindOutcomes.mpr ⟨_, mem_perKind.mpr ⟨htypes, rfl⟩, u, hu, huv ▸ hsupports, rfl⟩
    refine ⟨_, ((hof _).mpr (List.mem_map_of_mem hrendered)).1, ?_, [f],
      Outcome.rejectShared_eq_ok_iff.mpr ⟨outcomeOf_eq_ok_iff.mpr ⟨hclash, hgenerate⟩, ?_⟩,
      List.cons_ne_nil _ _⟩
    · rw [Outcome.cell_rejectShared, outcomeOf, huv]
    · intro f' hf'
      rw [List.mem_singleton.mp hf', hlength]
      exact Nat.lt_succ_self 1

/-! ### The index -/

/-- That a file holds the text `content`: as it stands if the variant `v` has no header, and
otherwise behind the header that names the main generator of `v` and the generator `g`. -/
structure HoldsContent (v : Variant) (g : Generator) (content : String) (f : GeneratedFile) :
    Prop where
  plain : v.effective.header = none → f.content = content
  headed : ∀ main, v.effective.header = some main →
    f.content = withHeader f.path main g.name content
  /-- In either case the file ends with the text. -/
  ends : ∃ header, f.content = header ++ content

/-- A header stands before a text and leaves it as it is. -/
private theorem exists_withHeader_eq (path : Path) (main generator content : String) :
    ∃ header, withHeader path main generator content = header ++ content := by
  unfold withHeader
  split
  · exact ⟨"", String.empty_append.symm⟩
  · exact ⟨_, rfl⟩

/-- The file that `finish` makes of a text `content` holds it. -/
theorem finish_holdsContent (kind : String) (g : Generator) (u : Variant) (path : Path)
    (content : String) : HoldsContent u g content (finish kind g u path content) := by
  unfold finish
  cases hheader : u.effective.header with
  | none =>
    refine ⟨fun _ => rfl, fun main h => ?_, "", String.empty_append.symm⟩
    cases hheader.symm.trans h
  | some main =>
    refine ⟨fun h => ?_, fun main' h => ?_, exists_withHeader_eq ..⟩
    · cases hheader.symm.trans h
    · cases hheader.symm.trans h
      rfl

theorem nodup_names_filter (hnames : (kinds.map (·.name)).Nodup) (v : VariantId) :
    ((kinds.filter (·.supports v)).map (·.name)).Nodup :=
  hnames.sublist (List.filter_sublist.map _)

/-- An index never fails: it exports the kinds of its variant that have no clash there and are
resolved, one line each, in the order of their machine names. -/
private theorem aggregateOutcomeOf_tsIndex (hnames : (kinds.map (·.name)).Nodup) (u : Variant) :
    (p.aggregateOutcomeOf kinds .tsIndex u).result =
      .ok [finish CellId.allKinds .tsIndex u
        (aggregatePath Generator.tsIndex.suffix .tsIndex u.id (p.subdirectory? .tsIndex))
        (TypeScript.exports (exported kinds u.id))] := by
  have htext := TypeScript.indexText_eq_ok
    (nodup_names_membersOf (g := .tsIndex) (nodup_names_filter hnames u.id))
    (nodup_machineNames_membersOf (nodup_names_filter hnames u.id)) pairwise_membersOf
  exact aggregateOutcomeOf_eq_ok_iff.mpr ⟨_, htext, rfl⟩

/-- The file `f` of an index has the lines of the kinds that the index exports. -/
theorem index_content (hnames : (kinds.map (·.name)).Nodup) {o : Outcome} {f : GeneratedFile}
    (ho : o ∈ (p.plan kinds).outcomes) (hcell : o.cell = ⟨CellId.allKinds, .tsIndex, v⟩)
    (hf : f ∈ o.files) : ∃ u ∈ p.effectiveVariants, u.id = v ∧
      f = finish CellId.allKinds .tsIndex u
        (aggregatePath Generator.tsIndex.suffix .tsIndex v (p.subdirectory? .tsIndex))
        (TypeScript.exports (exported kinds v)) := by
  obtain ⟨o', ho', hcell', hf'⟩ := exists_rendered_of_mem_plan ho hf
  rw [hcell] at hcell'
  rcases List.mem_append.mp ho' with ho' | ho'
  · -- The cells of single kinds are not of the index.
    obtain ⟨k, -, ho'⟩ := List.mem_flatMap.mp ho'
    obtain ⟨g, hg, u, -, -, rfl⟩ := mem_kindOutcomes.mp ho'
    have hperKind := (mem_perKind.mp hg).2
    rw [(CellId.mk.inj hcell').2.1] at hperKind
    cases hperKind
  · obtain ⟨u, hu, -, rfl⟩ := mem_aggregateOutcomes.mp ho'
    obtain rfl : u.id = v := (CellId.mk.inj hcell').2.2
    obtain ⟨files, hfiles, hmem⟩ := Outcome.exists_eq_ok_of_mem_files hf'
    rw [aggregateOutcomeOf_tsIndex hnames] at hfiles
    cases hfiles
    exact ⟨u, hu, rfl, List.mem_singleton.mp hmem⟩

/-- That no other of `kinds` that declares the variant `v` has the machine name of `k`. -/
def AloneInVariant (kinds : List Kind) (v : VariantId) (k : Kind) : Prop :=
  ∀ other ∈ kinds, other.supports v = true → other.machineName = k.machineName → other = k

/-- The index of the variant `v` exports the kinds that declare `v`, are resolved, and share their
machine name with no other that declares it. -/
theorem mem_exported_iff (hnames : (kinds.map (·.name)).Nodup) : r ∈ exported kinds v ↔
    ∃ k ∈ kinds, k.supports v = true ∧ k.resolve .inline = .ok r ∧ AloneInVariant kinds v k := by
  have hclash {k : Kind} (hk : k ∈ kinds.filter (·.supports v)) :
      machineNameClash? (kinds.filter (·.supports v)) k.name = none ↔ AloneInVariant kinds v k := by
    rw [machineNameClash?_eq_none_iff (nodup_names_filter hnames v) hk]
    simp only [List.mem_filter, and_imp, AloneInVariant]
  rw [exported, mem_membersOf]
  constructor
  · rintro ⟨k, hk, hmember⟩
    obtain ⟨hnone, hresolve⟩ := memberOf_eq_ok_iff.mp hmember
    obtain ⟨hmem, hsupports⟩ := List.mem_filter.mp hk
    exact ⟨k, hmem, hsupports, hresolve, (hclash hk).mp hnone⟩
  · rintro ⟨k, hmem, hsupports, hresolve, halone⟩
    have hk : k ∈ kinds.filter (·.supports v) := List.mem_filter.mpr ⟨hmem, hsupports⟩
    exact ⟨k, hk, memberOf_eq_ok_iff.mpr ⟨(hclash hk).mpr halone, hresolve⟩⟩

/-- The name of an exported kind is that of a kind of the run that is exported. -/
private theorem mem_map_name_exported_iff (hnames : (kinds.map (·.name)).Nodup) (hk : k ∈ kinds) :
    k.name ∈ (exported kinds v).map (·.name) ↔
      k.supports v = true ∧ AloneInVariant kinds v k ∧ ∃ r, k.resolve .inline = .ok r := by
  rw [List.mem_map]
  constructor
  · rintro ⟨r, hr, hname⟩
    obtain ⟨k', hk', hsupports, hresolve, halone⟩ := (mem_exported_iff hnames).mp hr
    have hsame : k'.name = k.name := by rw [← hname, (Kind.resolve_run hresolve).2.1]
    obtain rfl := List.inj_on_of_nodup_map hnames hk' hk hsame
    exact ⟨hsupports, halone, r, hresolve⟩
  · rintro ⟨hsupports, halone, r, hresolve⟩
    exact ⟨r, (mem_exported_iff hnames).mpr ⟨k, hk, hsupports, hresolve, halone⟩,
      (Kind.resolve_run hresolve).2.1⟩

section Shared

variable {other : Kind} (hnames : (kinds.map (·.name)).Nodup) (hk : k ∈ kinds)
  (hother : other ∈ kinds) (hne : other ≠ k) (hmachine : other.machineName = k.machineName)
include hnames hk hother hne hmachine

/-- A kind has a clash if another has its machine name. -/
private theorem machineNameClash?_ne_none : machineNameClash? kinds k.name ≠ none :=
  fun hclash => hne ((machineNameClash?_eq_none_iff hnames hk).mp hclash other hother hmachine)

/-- The module of a kind fails if another kind has its machine name. -/
private theorem exists_error_of_shared (htypes : .tsTypes ∈ p.generators)
    (hv : ∃ u ∈ p.effectiveVariants, u.id = v) (hsupports : k.supports v = true) :
    ∃ o ∈ (p.plan kinds).outcomes, o.cell = ⟨k.name, .tsTypes, v⟩ ∧ ∃ e, o.result = .error e := by
  obtain ⟨u, hu, rfl⟩ := hv
  obtain ⟨clash, hclash⟩ := Option.ne_none_iff_exists'.mp
    (machineNameClash?_ne_none hnames hk hother hne hmachine)
  -- The kind has a cell for its module, but rendering it stops at the clash.
  have hrendered : p.outcomeOf kinds k .tsTypes u ∈ p.rendered kinds :=
    List.mem_append_left _ (List.mem_flatMap.mpr ⟨k, hk, mem_kindOutcomes.mpr
      ⟨_, mem_perKind.mpr ⟨htypes, rfl⟩, u, hu, hsupports, rfl⟩⟩)
  have herror : p.outcomeOf kinds k .tsTypes u =
      ⟨⟨k.name, .tsTypes, u.id⟩, .error (.schema clash)⟩ := by
    rw [outcomeOf, hclash]
  rw [plan_outcomes]
  refine ⟨_, List.mem_map_of_mem hrendered, Outcome.cell_rejectShared _ _, .schema clash, ?_⟩
  rw [herror]
  rfl

/-- A kind is left out of an index if another that declares the variant has its machine name. -/
private theorem not_exported_of_shared (hsupports' : other.supports v = true) :
    k.name ∉ (exported kinds v).map (·.name) := by
  intro hmem
  obtain ⟨-, halone, -⟩ := (mem_map_name_exported_iff hnames hk).mp hmem
  exact hne (halone other hother hsupports' hmachine)

/-- A kind is reported as left out of an index if another that declares the variant has its machine
name. -/
private theorem excluded_of_shared (hindex : .tsIndex ∈ p.generators)
    (hv : ∃ u ∈ p.effectiveVariants, u.id = v) (hsupports : k.supports v = true)
    (hsupports' : other.supports v = true) :
    ⟨k.name, .tsIndex, v⟩ ∈ (p.plan kinds).excluded.map (·.cell) := by
  obtain ⟨u, hu, rfl⟩ := hv
  have hmem : k ∈ kinds.filter (·.supports u.id) := List.mem_filter.mpr ⟨hk, hsupports⟩
  obtain ⟨clash, hclash⟩ := Option.ne_none_iff_exists'.mp
    (machineNameClash?_ne_none (nodup_names_filter hnames u.id) hmem
      (List.mem_filter.mpr ⟨hother, hsupports'⟩) hne hmachine)
  have hmember : memberOf (kinds.filter (·.supports u.id)) .tsIndex k = .error clash := by
    rw [memberOf, hclash]
  refine List.mem_map.mpr ⟨⟨⟨k.name, .tsIndex, u.id⟩, .schema clash⟩, ?_, rfl⟩
  exact mem_plan_excluded.mpr ⟨hindex, u, hu, k, hk, hsupports, clash, hmember, rfl⟩

end Shared

end Pipeline

/-- The index of the variant `v` and the modules that it exports. It exports those of `kinds` that
declare `v`, are resolved, and share their machine name with no other that declares it. The module
of an exported kind is among the files of the same run if and only if it is alone there with its
path. A kind that shares its machine name with another one that declares `v` is not exported, and
both its module and its part in the index are reported as failed. -/
theorem index_agrees (p : Pipeline) {kinds : List Kind} {w : Writer} {v : VariantId}
    (hmode : w.mode = .dryRun) (hnames : (kinds.map (·.name)).Nodup)
    (htypes : .tsTypes ∈ p.generators) (hindex : .tsIndex ∈ p.generators)
    (hv : ∃ u ∈ p.effectiveVariants, u.id = v) :
    ∃ report, (∀ (m : Type → Type) [Monad m] [LawfulMonad m] [FileStore m],
        (p.run w kinds : m Report) = pure report) ∧
      (∀ o ∈ (p.plan kinds).outcomes, o.cell = ⟨CellId.allKinds, .tsIndex, v⟩ → ∀ f ∈ o.files,
        ∃ u ∈ p.effectiveVariants, u.id = v ∧
          f = Pipeline.finish CellId.allKinds .tsIndex u
            (aggregatePath Generator.tsIndex.suffix .tsIndex v (p.subdirectory? .tsIndex))
            (TypeScript.exports (Pipeline.exported kinds v)) ∧
          Pipeline.HoldsContent u .tsIndex (TypeScript.exports (Pipeline.exported kinds v)) f) ∧
      (∀ r, r ∈ Pipeline.exported kinds v ↔ ∃ k ∈ kinds, k.supports v = true ∧
        k.resolve .inline = .ok r ∧ Pipeline.AloneInVariant kinds v k) ∧
      (∀ k ∈ kinds, k.name ∈ (Pipeline.exported kinds v).map (·.name) →
        (⟨k.name, .tsTypes, v⟩ ∈ report.written.map (·.cell) ↔ p.ModuleAlone kinds k v)) ∧
      ∀ k ∈ kinds, ∀ other ∈ kinds, other ≠ k → other.machineName = k.machineName →
        k.supports v = true → other.supports v = true →
          k.name ∉ (Pipeline.exported kinds v).map (·.name) ∧
          ⟨k.name, .tsIndex, v⟩ ∈ report.failures.map (·.cell) ∧
          ⟨k.name, .tsTypes, v⟩ ∈ report.failures.map (·.cell) := by
  refine ⟨(p.plan kinds).dryReport w, fun m _ _ _ => p.run_dryRun w kinds hmode,
    fun o ho hcell f hf => ?_,
    fun r => Pipeline.mem_exported_iff hnames, fun k hk hexported => ?_,
    fun k hk other hother hne hmachine hsupports hsupports' => ⟨?_, ?_, ?_⟩⟩
  · obtain ⟨u, hu, huv, rfl⟩ := p.index_content hnames ho hcell hf
    exact ⟨u, hu, huv, rfl, Pipeline.finish_holdsContent ..⟩
  · obtain ⟨hsupports, -, r, hresolve⟩ :=
      (Pipeline.mem_map_name_exported_iff hnames hk).mp hexported
    rw [Plan.mem_written_dryReport, Pipeline.moduleAlone_iff hnames hk htypes hv hsupports hresolve]
  · exact Pipeline.not_exported_of_shared hnames hk hother hne hmachine hsupports'
  · exact Plan.mem_failures_dryReport.mpr (.inl (Pipeline.excluded_of_shared hnames hk hother hne
      hmachine hindex hv hsupports hsupports'))
  · exact Plan.mem_failures_dryReport.mpr (.inr (Pipeline.exists_error_of_shared hnames hk hother
      hne hmachine htypes hv hsupports))

namespace Sample

/-- A dry run below a directory `out`. -/
def dry : Writer where
  root := ⟨"out"⟩
  mode := .dryRun

/-- In the small run the module of the small kind is alone, and so the index that exports the kind
has its module beside it. -/
theorem index_folder : dry.mode = .dryRun ∧ ([folder].map (·.name)).Nodup ∧
    .tsTypes ∈ typeScript.generators ∧ .tsIndex ∈ typeScript.generators ∧
    (∃ u ∈ typeScript.effectiveVariants, u.id = .withParams) ∧
    ∃ report, (∀ (m : Type → Type) [Monad m] [LawfulMonad m] [FileStore m],
        (typeScript.run dry [folder] : m Report) = pure report) ∧
      "Folder" ∈ (Pipeline.exported [folder] .withParams).map (·.name) ∧
      ⟨"Folder", .tsTypes, .withParams⟩ ∈ report.written.map (·.cell) := by
  have hmode : dry.mode = .dryRun := rfl
  have hnames : ([folder].map (·.name)).Nodup := List.nodup_singleton _
  have htypes : .tsTypes ∈ typeScript.generators := by decide
  have hindex : .tsIndex ∈ typeScript.generators := by decide
  have hv : ∃ u ∈ typeScript.effectiveVariants, u.id = .withParams := by decide
  have halone : typeScript.ModuleAlone [folder] folder .withParams :=
    ⟨fun _ hother _ => List.mem_singleton.mp hother, by decide, by decide⟩
  obtain ⟨r, hresolve⟩ : ∃ r, folder.resolve .inline = .ok r := ⟨_, by with_unfolding_all rfl⟩
  have hfolder : folder ∈ [folder] := List.mem_singleton_self _
  obtain ⟨report, hrun, -, hexported, hmodule, -⟩ :=
    index_agrees typeScript hmode hnames htypes hindex hv
  have hmem : r ∈ Pipeline.exported [folder] .withParams :=
    (hexported r).mpr ⟨folder, hfolder, rfl, hresolve,
      fun _ hother _ _ => List.mem_singleton.mp hother⟩
  have hname : "Folder" ∈ (Pipeline.exported [folder] .withParams).map (·.name) :=
    List.mem_map.mpr ⟨r, hmem, (Kind.resolve_run hresolve).2.1⟩
  exact ⟨hmode, hnames, htypes, hindex, hv, report, hrun, hname,
    (hmodule folder hfolder hname).mpr halone⟩

/-- A kind that is rendered without parameters only. -/
def drawer : Kind :=
  { folder with name := "Drawer", givenMachineName := some "shelf", variants := [.noParams] }

/-- A kind with the same machine name that is rendered with parameters, too. -/
def shelved : Kind :=
  { folder with givenMachineName := some "shelf" }

/-- TypeScript modules and their index, with parameters. -/
def parameterised : Pipeline where
  generators := [.tsTypes, .tsIndex]
  variants := [{ id := .withParams }]

/-- The index looks for kinds with the same machine name only among those that declare the variant,
and so it exports a kind whose module fails. -/
theorem index_shelved : ([drawer, shelved].map (·.name)).Nodup ∧
    ∃ report, (∀ (m : Type → Type) [Monad m] [LawfulMonad m] [FileStore m],
        (parameterised.run dry [drawer, shelved] : m Report) = pure report) ∧
      ⟨CellId.allKinds, .tsIndex, .withParams⟩ ∈ report.written.map (·.cell) ∧
      "Folder" ∈ (Pipeline.exported [drawer, shelved] .withParams).map (·.name) ∧
      ⟨"Folder", .tsTypes, .withParams⟩ ∉ report.written.map (·.cell) := by
  have hnames : ([drawer, shelved].map (·.name)).Nodup := by decide
  have hdrawer : drawer ∈ [drawer, shelved] := List.mem_cons_self
  have hshelved : shelved ∈ [drawer, shelved] := List.mem_cons_of_mem _ List.mem_cons_self
  have hne : drawer ≠ shelved := fun heq => absurd (congrArg Kind.name heq) (by decide)
  obtain ⟨r, hresolve⟩ : ∃ r, shelved.resolve .inline = .ok r := ⟨_, by with_unfolding_all rfl⟩
  have hmachine : drawer.machineName = shelved.machineName := by
    have hdrawer : drawer.machineName = "shelf" := rfl
    have hshelved : shelved.machineName = "shelf" := rfl
    rw [hdrawer, hshelved]
  -- Both modules fail, so the index is the only file of the run.
  have hfiles : allFiles (parameterised.rendered [drawer, shelved]) =
      (parameterised.aggregateOutcomeOf [drawer, shelved] .tsIndex
        { id := .withParams }).files := by
    have hnone : allFiles ([drawer, shelved].flatMap
        (parameterised.kindOutcomes [drawer, shelved])) = [] := by
      refine List.eq_nil_iff_forall_not_mem.mpr fun f hf => ?_
      obtain ⟨o, ho, hfo⟩ := mem_allFiles.mp hf
      obtain ⟨k, hk, ho⟩ := List.mem_flatMap.mp ho
      obtain ⟨-, -, hclash, -⟩ := Pipeline.exists_artifact_of_mem_kindOutcomes ho hfo
      have halone := (machineNameClash?_eq_none_iff hnames hk).mp hclash
      rcases List.mem_pair.mp hk with rfl | rfl
      · exact hne (halone shelved hshelved hmachine.symm).symm
      · exact hne (halone drawer hdrawer hmachine)
    rw [Pipeline.rendered, allFiles, List.flatMap_append]
    exact (congrArg (· ++ _) hnone).trans (List.append_nil _)
  refine ⟨hnames, (parameterised.plan [drawer, shelved]).dryReport dry,
    fun m _ _ _ => parameterised.run_dryRun dry _ rfl, ?_, ?_, ?_⟩
  · have hindex := parameterised.aggregateOutcomeOf_tsIndex hnames { id := .withParams }
    rw [Outcome.files_of_eq_ok hindex] at hfiles
    have hrendered : parameterised.aggregateOutcomeOf [drawer, shelved] .tsIndex
        { id := .withParams } ∈ parameterised.rendered [drawer, shelved] :=
      List.mem_append_right _ (Pipeline.mem_aggregateOutcomes.mpr
        ⟨{ id := .withParams }, by decide, by decide, rfl⟩)
    rw [Plan.mem_written_dryReport, Pipeline.plan_outcomes, rejectSharedPaths, hfiles]
    refine ⟨_, List.mem_map_of_mem hrendered, Outcome.cell_rejectShared _ _, _,
      Outcome.rejectShared_eq_ok_iff.mpr ⟨hindex, fun f hf => ?_⟩, List.cons_ne_nil _ _⟩
    exact Nat.lt_succ_of_le (List.length_filter_le _ _)
  · refine (Pipeline.mem_map_name_exported_iff hnames hshelved).mpr ⟨rfl, ?_, r, hresolve⟩
    -- The other kind does not declare the variant.
    intro other hother hsupports hmachine'
    rcases List.mem_pair.mp hother with rfl | rfl
    · cases hsupports
    · rfl
  · rw [Plan.mem_written_dryReport]
    intro hwritten
    have halone := (Pipeline.moduleAlone_iff hnames hshelved (by decide) (by decide) (by decide)
      hresolve).mp hwritten
    exact hne (halone.unrivalled drawer hdrawer hmachine)

end Sample

end KindSchema
