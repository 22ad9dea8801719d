import KindSchema.Proofs.Kind.WellFormed
import KindSchema.Proofs.Run.Index

/-!
# An index is complete

An index leaves out the kinds that share their machine name and those that cannot be resolved. No
other kind is lost, and what is left over always has a text, since the kinds that remain have
different names and different machine names.

* `TypeScript.linesOf_exports`: the lines of an index.
* `Pipeline.memberOf_eq_error_iff`: which kinds are left out, and with what error.
* `index_complete`: an index has a file, and every kind is either exported there or left out.
-/

namespace KindSchema

/-! ### Names on one line -/

/-- The name of a kind is on one line. -/
private theorem IsKindName.not_mem {name : String} (h : IsKindName name) : '\n' ∉ name.toList :=
  ConsistsOf.not_mem h (by simp [IsCapital]) (by simp [IsCapital, IsSmall, IsDecimal])

/-- A machine name is on one line. -/
private theorem IsMachineName.not_mem {name : String} (h : IsMachineName name) :
    '\n' ∉ name.toList :=
  ConsistsOf.not_mem h (by simp [IsSmall]) (by simp [IsSmall, IsDecimal])

/-- The lines of a line and a text after it. -/
private theorem linesOf_append {line : String} (hline : '\n' ∉ line.toList) (rest : String) :
    linesOf (line ++ "\n" ++ rest) = line :: linesOf rest := by
  have hchars : (line ++ "\n" ++ rest).toList = line.toList ++ '\n' :: rest.toList := by
    rw [String.toList_append, String.toList_append, List.append_assoc]
    rfl
  rw [linesOf, linesOf, hchars, pieces_append_break rfl, pieces_of_not_mem hline,
    List.singleton_append, List.map_cons, String.ofList_toList]

namespace TypeScript

/-- The statement that exports `k`, and the standalone spec of `k` under its own name. -/
def exportStatement (k : ResolvedKind) : String :=
  "export type \x7b " ++ k.name ++ ", spec as " ++ k.name ++ "Spec \x7d from '" ++
    modulePath k.machineName ++ "';"

/-- The statements of an index of `kinds`: one for each kind, or one that exports nothing. -/
def exportStatements (kinds : List ResolvedKind) : List String :=
  if kinds.isEmpty then ["export \x7b\x7d;"] else kinds.map exportStatement

private theorem exportLine_eq_append (k : ResolvedKind) :
    exportLine k = exportStatement k ++ "\n" := by
  have hend : "';\n" = "';" ++ "\n" := by simp
  unfold exportLine exportStatement
  rw [hend, ← String.append_assoc]

/-- Kinds whose names are on one line are exported by a statement on one line. -/
private theorem not_mem_exportStatement {k : ResolvedKind} (hname : '\n' ∉ k.name.toList)
    (hmachine : '\n' ∉ k.machineName.toList) : '\n' ∉ (exportStatement k).toList := by
  unfold exportStatement modulePath
  simp [String.toList_append, hname, hmachine]

/-- The lines of an index of `kinds` are its statements, and the empty text after the last of
them. -/
theorem linesOf_exports {kinds : List ResolvedKind}
    (hnames : ∀ k ∈ kinds, '\n' ∉ k.name.toList ∧ '\n' ∉ k.machineName.toList) :
    linesOf (exports kinds) = exportStatements kinds ++ [""] := by
  have hlines : linesOf (String.join (kinds.map exportLine)) =
      kinds.map exportStatement ++ [""] := by
    induction kinds with
    | nil => rfl
    | cons k kinds ih =>
      obtain ⟨⟨hname, hmachine⟩, hrest⟩ := List.forall_mem_cons.mp hnames
      rw [List.map_cons, String.join_cons, exportLine_eq_append,
        linesOf_append (not_mem_exportStatement hname hmachine), ih hrest]
      rfl
  unfold exports exportStatements
  split
  · rfl
  · exact hlines

end TypeScript

/-! ### Shared machine names -/

section Kinds

variable {kinds : List Kind} {k : Kind}

private theorem mem_machineNameClaimants {machineName name : String} :
    name ∈ machineNameClaimants kinds machineName ↔
      ∃ k ∈ kinds, k.machineName = machineName ∧ k.name = name := by
  simp [machineNameClaimants, and_assoc]

/-- Kinds of different names that claim a machine name are listed in order. -/
private theorem pairwise_machineNameClaimants (hnames : (kinds.map (·.name)).Nodup)
    (machineName : String) : (machineNameClaimants kinds machineName).Pairwise (· < ·) :=
  pairwise_mergeSort_texts (hnames.sublist (List.filter_sublist.map _))

/-- The error of a kind that shares its machine name. -/
private theorem machineNameClash?_eq_some (hnames : (kinds.map (·.name)).Nodup) (hk : k ∈ kinds)
    {clash : SchemaError} (h : machineNameClash? kinds k.name = some clash) :
    clash = .duplicateOutputPath (k.machineName ++ "/")
      (machineNameClaimants kinds k.machineName) := by
  rw [machineNameClash?, sharedMachineNames, filter_name_eq hnames hk, List.map_singleton,
    List.filter_singleton] at h
  cases hshared : decide (2 ≤ (machineNameClaimants kinds k.machineName).length) with
  | false => simp [hshared, greatest?] at h
  | true =>
    rw [hshared, cond_true, greatest?, List.mergeSort_singleton] at h
    exact (Option.some.inj h).symm

end Kinds

/-! ### The kinds that are left out -/

/-- If each element of a list is kept by one of two functions, what they keep is the list in
parts. -/
private theorem perm_of_filterMap {α β γ δ : Type} {f : α → Option β} {f' : α → Option γ}
    {key : β → δ} {key' : γ → δ} {name : α → δ}
    (h : ∀ a, (∃ b, f a = some b ∧ key b = name a ∧ f' a = none) ∨
      (f a = none ∧ ∃ c, f' a = some c ∧ key' c = name a)) (l : List α) :
    ((l.filterMap f).map key ++ (l.filterMap f').map key').Perm (l.map name) := by
  induction l with
  | nil => exact .refl _
  | cons a l ih =>
    rcases h a with ⟨b, hb, hname, hnone⟩ | ⟨hnone, c, hc, hname⟩
    · rw [List.filterMap_cons_some hb, List.filterMap_cons_none hnone, List.map_cons,
        List.map_cons, hname]
      exact ih.cons (name a)
    · rw [List.filterMap_cons_none hnone, List.filterMap_cons_some hc, List.map_cons,
        List.map_cons, hname]
      exact List.perm_middle.trans (ih.cons (name a))

namespace Pipeline

variable {p : Pipeline} {kinds : List Kind} {k : Kind} {g : Generator} {v : VariantId}

/-- Why `k` is left out of an index of `kinds`. -/
inductive LeftOut (kinds : List Kind) (k : Kind) : SchemaError → Prop
  /-- Another kind has the machine name; all that have it are reported, in order. -/
  | shared {other : Kind} {claimants : List String} (hother : other ∈ kinds) (hne : other ≠ k)
    (hmachine : other.machineName = k.machineName) (hsorted : claimants.Pairwise (· < ·))
    (hclaimants : ∀ name, name ∈ claimants ↔
      ∃ c ∈ kinds, c.machineName = k.machineName ∧ c.name = name) :
    LeftOut kinds k (.duplicateOutputPath (k.machineName ++ "/") claimants)
  /-- No other kind has the machine name, but the kind cannot be resolved. -/
  | unresolved {e : SchemaError}
    (halone : ∀ other ∈ kinds, other.machineName = k.machineName → other = k)
    (h : k.resolve .inline = .error e) : LeftOut kinds k e

/-- Texts in strictly increasing order are told by what is among them. -/
private theorem eq_of_pairwise_lt {texts texts' : List String} (h : texts.Pairwise (· < ·))
    (h' : texts'.Pairwise (· < ·)) (hmem : ∀ s, s ∈ texts ↔ s ∈ texts') : texts = texts' := by
  have hperm : texts.Perm texts' :=
    (List.perm_ext_iff_of_nodup (h.imp ne_of_lt) (h'.imp ne_of_lt)).mpr hmem
  exact hperm.eq_of_pairwise (fun _ _ _ _ hlt hlt' => absurd hlt (lt_asymm hlt')) h h'

/-- The index leaves out `k` if it shares its machine name or cannot be resolved. -/
theorem memberOf_eq_error_iff (hnames : (kinds.map (·.name)).Nodup) (hk : k ∈ kinds)
    {e : SchemaError} : memberOf kinds .tsIndex k = .error e ↔ LeftOut kinds k e := by
  rw [memberOf]
  cases hclash : machineNameClash? kinds k.name with
  | none =>
    -- Without a clash the kind is alone, so the only reason left is that it cannot be resolved.
    have halone := (machineNameClash?_eq_none_iff hnames hk).mp hclash
    constructor
    · exact fun h => .unresolved halone h
    · rintro (⟨hother, hne, hmachine, -, -⟩ | ⟨-, h⟩)
      · exact absurd (halone _ hother hmachine) hne
      · exact h
  | some clash =>
    have hshared : ¬ ∀ other ∈ kinds, other.machineName = k.machineName → other = k := by
      rw [← machineNameClash?_eq_none_iff hnames hk, hclash]
      exact Option.some_ne_none clash
    obtain rfl := machineNameClash?_eq_some hnames hk hclash
    have hsorted := pairwise_machineNameClaimants hnames k.machineName
    constructor
    · rintro ⟨⟩
      push Not at hshared
      obtain ⟨other, hother, hmachine, hne⟩ := hshared
      exact .shared hother hne hmachine hsorted fun _ => mem_machineNameClaimants
    · rintro (⟨-, -, -, hsorted', hclaimants⟩ | ⟨halone, -⟩)
      · -- Both lists of claimants are in strict order and have the same names.
        rw [eq_of_pairwise_lt hsorted' hsorted fun name =>
          (hclaimants name).trans mem_machineNameClaimants.symm]
      · exact absurd halone hshared

private theorem mem_excludedOf {failure : CellFailure} : failure ∈ excludedOf kinds g v ↔
    ∃ k ∈ kinds, ∃ e, memberOf kinds g k = .error e ∧ failure = ⟨⟨k.name, g, v⟩, .schema e⟩ := by
  rw [excludedOf, List.mem_filterMap]
  refine exists_congr fun k => and_congr_right fun _ => ?_
  cases memberOf kinds g k <;> simp [eq_comm]

/-- Each kind is part of an aggregate file or left out of it. -/
private theorem membersOf_append_excludedOf_perm (kinds : List Kind) (g : Generator)
    (v : VariantId) :
    ((membersOf kinds g).map (·.name) ++ (excludedOf kinds g v).map (·.cell.kind)).Perm
      (kinds.map (·.name)) := by
  have hmembers : ((membersOf kinds g).map (·.name)).Perm
      ((kinds.filterMap fun k => (memberOf kinds g k).toOption).map (·.name)) :=
    (List.mergeSort_perm _ _).map _
  refine (hmembers.append_right _).trans (perm_of_filterMap (fun k => ?_) kinds)
  cases hmember : memberOf kinds g k with
  | ok r => exact .inl ⟨r, rfl, (Kind.resolve_run (memberOf_eq_ok_iff.mp hmember).2).2.1, rfl⟩
  | error e => exact .inr ⟨rfl, _, rfl, rfl⟩

/-- The kinds of an aggregate file are in strictly increasing order of their machine names. -/
private theorem pairwise_lt_membersOf (hnames : (kinds.map (·.name)).Nodup) :
    (membersOf kinds g).Pairwise fun a b => a.machineName < b.machineName := by
  have hdistinct := List.pairwise_map.mp (nodup_machineNames_membersOf (g := g) hnames)
  exact (pairwise_membersOf.and hdistinct).imp fun h => lt_of_le_of_ne h.1 h.2

/-- The kinds of an index have names on one line. -/
private theorem not_mem_of_mem_membersOf {r : ResolvedKind} (hr : r ∈ membersOf kinds g) :
    '\n' ∉ r.name.toList ∧ '\n' ∉ r.machineName.toList := by
  obtain ⟨k, -, hmember⟩ := mem_membersOf.mp hr
  obtain ⟨-, hresolve⟩ := memberOf_eq_ok_iff.mp hmember
  obtain ⟨hvalid, hname, -⟩ := Kind.resolve_run hresolve
  have hnames := Kind.validate_names hvalid
  rw [hname, Kind.resolve_machineName hresolve]
  exact ⟨(isPascalIdentifier_iff.mp hnames.pascal).not_mem,
    (isMachineName_iff.mp hnames.machine).not_mem⟩

end Pipeline

/-- The index of any kinds with different names. There is always a file. What it holds, apart from a
header if the variant `v` has one, are the statements that export the kinds that remain, in strictly
increasing order of their machine names; the kinds that remain are those that share their machine
name with no other and are resolved. All others are reported as left out, each with its own error.
Every kind is exactly once among the ones or the others. -/
theorem index_complete (p : Pipeline) {kinds : List Kind} (v : Variant)
    (hnames : (kinds.map (·.name)).Nodup) :
    let output := p.generateAggregate kinds .tsIndex v
    ∃ (file : GeneratedFile) (content : String) (members : List ResolvedKind),
      output.file = .ok file ∧
      file.path = aggregatePath Generator.tsIndex.suffix .tsIndex v.id (p.subdirectory? .tsIndex) ∧
      file.kind = CellId.allKinds ∧ file.generator = .tsIndex ∧ file.variant = v.id ∧
      Pipeline.HoldsContent v .tsIndex content file ∧
      linesOf content = TypeScript.exportStatements members ++ [""] ∧
      (members.Pairwise fun a b => a.machineName < b.machineName) ∧
      (∀ r, r ∈ members ↔ ∃ k ∈ kinds,
        (∀ other ∈ kinds, other.machineName = k.machineName → other = k) ∧
          k.resolve .inline = .ok r) ∧
      (∀ failure, failure ∈ output.excluded ↔ ∃ k ∈ kinds, ∃ e, Pipeline.LeftOut kinds k e ∧
        failure = ⟨⟨k.name, .tsIndex, v.id⟩, .schema e⟩) ∧
      (output.excluded.map (·.cell)).Nodup ∧
      (members.map (·.name) ++ output.excluded.map (·.cell.kind)).Perm (kinds.map (·.name)) := by
  have htext := TypeScript.indexText_eq_ok (Pipeline.nodup_names_membersOf (g := .tsIndex) hnames)
    (Pipeline.nodup_machineNames_membersOf hnames) Pipeline.pairwise_membersOf
  have hsplit := Pipeline.membersOf_append_excludedOf_perm kinds .tsIndex v.id
  refine ⟨_, TypeScript.exports (Pipeline.membersOf kinds .tsIndex),
    Pipeline.membersOf kinds .tsIndex, ?_, rfl, rfl, rfl, rfl,
    Pipeline.finish_holdsContent CellId.allKinds .tsIndex v _ _,
    TypeScript.linesOf_exports fun r hr => Pipeline.not_mem_of_mem_membersOf hr,
    Pipeline.pairwise_lt_membersOf hnames, fun r => ?_, fun failure => ?_, ?_, hsplit⟩
  · rw [Pipeline.generateAggregate, Generator.renderAll, htext]
    rfl
  · rw [Pipeline.mem_membersOf]
    refine exists_congr fun k => and_congr_right fun hk => ?_
    rw [Pipeline.memberOf_eq_ok_iff, machineNameClash?_eq_none_iff hnames hk]
    rfl
  · refine Pipeline.mem_excludedOf.trans (exists_congr fun k => and_congr_right fun hk => ?_)
    exact exists_congr fun e => and_congr_left fun _ => Pipeline.memberOf_eq_error_iff hnames hk
  · have hkinds := (List.nodup_append.mp (hsplit.nodup_iff.mpr hnames)).2.1
    refine List.Nodup.of_map (·.kind) ?_
    rw [List.map_map]
    exact hkinds

namespace Sample

/-- A kind that has its machine name alone. -/
def tray : Kind :=
  { folder with name := "Tray" }

/-- A kind that refers to a definition that it does not have. -/
def raft : Kind :=
  { folder with
    name := "Raft"
    spec := { fields := [{ name := "to", type := .reference "Shore" }] } }

/-- Two kinds with one machine name, one that cannot be resolved, and one that can. -/
def mixed : List Kind :=
  [drawer, shelved, raft, tray]

/-- A variant that asks for a header. -/
def headed : Variant where
  id := .withParams
  params := { header := some "kinds.cue" }

/-- The index exports the last of these kinds and leaves out the others. Without parameters it has
no header; with parameters that ask for one, the statement stands behind it. -/
theorem index_complete_mixed : (mixed.map (·.name)).Nodup ∧
    (∃ file, (typeScript.generateAggregate mixed .tsIndex { id := .noParams }).file = .ok file ∧
      file.path = ⟨"TSVeneerIndex_NoParams/index.gen.ts"⟩ ∧
      "export type \x7b Tray, spec as TraySpec \x7d from './tray/tray_types.gen';" ∈
        linesOf file.content) ∧
    (∃ file content, (typeScript.generateAggregate mixed .tsIndex headed).file = .ok file ∧
      file.content = withHeader file.path "kinds.cue" "ts-index" content ∧
      "export type \x7b Tray, spec as TraySpec \x7d from './tray/tray_types.gen';" ∈
        linesOf content) ∧
    ⟨⟨"Drawer", .tsIndex, .noParams⟩,
      .schema (.duplicateOutputPath "shelf/" ["Drawer", "Folder"])⟩ ∈
        (typeScript.generateAggregate mixed .tsIndex { id := .noParams }).excluded ∧
    ⟨⟨"Raft", .tsIndex, .noParams⟩, .schema (.unresolvedReference "spec.to" "Shore")⟩ ∈
        (typeScript.generateAggregate mixed .tsIndex { id := .noParams }).excluded := by
  have hnames : (mixed.map (·.name)).Nodup := by decide
  have hdrawer : drawer.machineName = "shelf" := rfl
  have hshelved : shelved.machineName = "shelf" := rfl
  have hraft : raft.machineName = "raft" := by with_unfolding_all rfl
  have htray : tray.machineName = "tray" := by with_unfolding_all rfl
  obtain ⟨r, hresolve⟩ : ∃ r, tray.resolve .inline = .ok r := ⟨_, by with_unfolding_all rfl⟩
  have hunresolved : raft.resolve .inline = .error (.unresolvedReference "spec.to" "Shore") := by
    with_unfolding_all rfl
  -- The machine names tell whether a kind is alone with its own.
  have halone {k : Kind} (hk : k = raft ∨ k = tray) :
      ∀ other ∈ mixed, other.machineName = k.machineName → other = k := by
    rcases hk with rfl | rfl <;> simp [mixed, hdrawer, hshelved, hraft, htray]
  have hstatement {members : List ResolvedKind} (hr : r ∈ members) :
      "export type \x7b Tray, spec as TraySpec \x7d from './tray/tray_types.gen';" ∈
        TypeScript.exportStatements members := by
    have htext : TypeScript.exportStatement r =
        "export type \x7b Tray, spec as TraySpec \x7d from './tray/tray_types.gen';" := by
      unfold TypeScript.exportStatement TypeScript.modulePath
      rw [(Kind.resolve_run hresolve).2.1, Kind.resolve_machineName hresolve, htray]
      rfl
    rw [TypeScript.exportStatements, if_neg (by simpa using List.ne_nil_of_mem hr), ← htext]
    exact List.mem_map_of_mem hr
  obtain ⟨file, content, members, hfile, hpath, -, -, -, hholds, hlines, -, hmembers, hexcluded,
    -⟩ := index_complete typeScript { id := .noParams } hnames
  obtain ⟨file', content', members', hfile', -, -, -, -, hholds', hlines', -, hmembers', -⟩ :=
    index_complete typeScript headed hnames
  have htrayMember : ∃ k ∈ mixed, (∀ other ∈ mixed, other.machineName = k.machineName →
      other = k) ∧ k.resolve .inline = .ok r :=
    ⟨tray, by simp [mixed], halone (.inr rfl), hresolve⟩
  refine ⟨hnames, ⟨file, hfile, hpath, ?_⟩, ⟨file', content', hfile', hholds'.headed _ rfl, ?_⟩,
    ?_, ?_⟩
  · rw [hholds.plain rfl, hlines]
    exact List.mem_append_left _ (hstatement ((hmembers r).mpr htrayMember))
  · rw [hlines']
    exact List.mem_append_left _ (hstatement ((hmembers' r).mpr htrayMember))
  · have hclaimants (name : String) : name ∈ ["Drawer", "Folder"] ↔
        ∃ c ∈ mixed, c.machineName = drawer.machineName ∧ c.name = name := by
      have hfirst : drawer.name = "Drawer" := rfl
      have hsecond : shelved.name = "Folder" := rfl
      simp [mixed, hdrawer, hshelved, hraft, htray, hfirst, hsecond, eq_comm]
    have hother : shelved ∈ mixed := by simp [mixed]
    have hne : shelved ≠ drawer := fun heq => absurd (congrArg Kind.name heq) (by decide)
    exact (hexcluded _).mpr ⟨drawer, by simp [mixed], _,
      .shared hother hne (hshelved.trans hdrawer.symm) (by decide) hclaimants, rfl⟩
  · exact (hexcluded _).mpr ⟨raft, by simp [mixed], _, .unresolved (halone (.inl rfl)) hunresolved,
      rfl⟩

end Sample

end KindSchema
