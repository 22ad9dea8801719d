import KindSchema.Proofs.Run.Index

/-!
# The names that an index exports

An index exports two names for each kind: its own, and the one given to its spec. The names of the
kinds are different, and so are those of the specs. But a kind may have the name that another one
gives to its spec, and such a pair is not refused.

* `ModuleExports`: the names that the text of a module exports.
* `nodup_exportedNames_iff`: no name is exported twice exactly if no kind is named like the spec of
  another.
-/

namespace KindSchema

namespace TypeScript

/-- The name under which an index exports the spec of `k`. -/
def specName (k : ResolvedKind) : String :=
  k.name ++ "Spec"

/-- The names that an index exports of `kinds`. -/
def exportedNames (kinds : List ResolvedKind) : List String :=
  kinds.flatMap fun k => [k.name, specName k]

/-- That the text of a module is made of statements that export a type and the spec beside it under
another name, or of one that exports nothing, and that the names in a list are what it exports. -/
inductive ModuleExports : String → List String → Prop
  | nothing : ModuleExports "export \x7b\x7d;\n" []
  | nil : ModuleExports "" []
  | cons (type spec path : String) {rest : String} {names : List String}
      (more : ModuleExports rest names) :
    ModuleExports ("export type \x7b " ++ type ++ ", spec as " ++ spec ++ " \x7d from '" ++ path ++
      "';\n" ++ rest) (type :: spec :: names)

private theorem exportLine_eq (k : ResolvedKind) :
    exportLine k = "export type \x7b " ++ k.name ++ ", spec as " ++ specName k ++ " \x7d from '" ++
      modulePath k.machineName ++ "';\n" := by
  have hspec : "Spec \x7d from '" = "Spec" ++ " \x7d from '" := by simp
  unfold exportLine specName
  rw [hspec, ← String.append_assoc, ← String.append_assoc]

/-- Kinds are exported under different names that are none of those before, and their specs beside
them. -/
private theorem of_exportLines_eq_ok {names machineNames : List String} {kinds : List ResolvedKind}
    {text : String} (h : exportLines names machineNames kinds = .ok text) :
    (∀ k ∈ kinds, k.name ∉ names) ∧ (kinds.map (·.name)).Nodup ∧
      ModuleExports text (exportedNames kinds) := by
  induction kinds generalizing names machineNames text with
  | nil =>
    cases h
    exact ⟨fun k hk => absurd hk List.not_mem_nil, List.nodup_nil, .nil⟩
  | cons k kinds ih =>
    rw [exportLines, check_eq_ok, check_eq_ok] at h
    obtain ⟨hname, -, h⟩ := h
    obtain ⟨rest, hrest, rfl⟩ := bind_return_eq_ok.mp h
    obtain ⟨hnew, hnodup, hexports⟩ := ih hrest
    refine ⟨List.forall_mem_cons.mpr ⟨hname, fun k' hk' hmem => ?_⟩,
      List.nodup_cons.mpr ⟨fun hmem => ?_, hnodup⟩, ?_⟩
    -- New to the longer list is new to the shorter one.
    · exact hnew k' hk' (List.mem_cons_of_mem _ hmem)
    · obtain ⟨k', hk', hsame⟩ := List.mem_map.mp hmem
      exact hnew k' hk' (hsame ▸ List.mem_cons_self)
    · rw [exportLine_eq]
      exact .cons k.name (specName k) (modulePath k.machineName) hexports

/-- The kinds of an index have different names, and the index exports these and those of the
specs. -/
private theorem of_indexText_eq_ok {kinds : List ResolvedKind} {text : String}
    (h : indexText kinds = .ok text) : (kinds.map (·.name)).Nodup ∧
      ∃ names, ModuleExports text names ∧ names.Perm (exportedNames kinds) := by
  unfold indexText at h
  split at h
  · next hempty =>
    obtain rfl := List.isEmpty_iff.mp hempty
    cases h
    exact ⟨List.nodup_nil, [], .nothing, .refl _⟩
  · obtain ⟨-, hnodup, hexports⟩ := of_exportLines_eq_ok h
    have hsorted := List.mergeSort_perm kinds fun a b => decide (a.machineName ≤ b.machineName)
    exact ⟨(hsorted.map _).nodup_iff.mp hnodup, _, hexports, hsorted.flatMap_right _⟩

/-- Specs have the same name only if their kinds do. -/
private theorem name_eq_of_specName_eq {k other : ResolvedKind} (h : specName k = specName other) :
    k.name = other.name :=
  (String.append_left_inj _).mp h

/-- The names that are exported are those of the kinds and those of the specs. -/
private theorem exportedNames_perm (kinds : List ResolvedKind) :
    (exportedNames kinds).Perm (kinds.map (·.name) ++ kinds.map specName) := by
  induction kinds with
  | nil => exact .refl _
  | cons k kinds ih =>
    have hmiddle : (kinds.map (·.name) ++ specName k :: kinds.map specName).Perm
        (specName k :: (kinds.map (·.name) ++ kinds.map specName)) := List.perm_middle
    exact ((ih.cons (specName k)).trans hmiddle.symm).cons k.name

/-- Whenever an index of `kinds` can be made, they have different names, their specs too, and it
exports these names and no others. None of them is exported twice exactly if no kind of the index
has the name that is given to the spec of another. -/
theorem nodup_exportedNames_iff {kinds : List ResolvedKind} {text : String}
    (h : indexText kinds = .ok text) :
    (∃ names, ModuleExports text names ∧ names.Perm (exportedNames kinds)) ∧
      (kinds.map (·.name)).Nodup ∧ (kinds.map specName).Nodup ∧
      ((exportedNames kinds).Nodup ↔ ∀ k ∈ kinds, ∀ other ∈ kinds, other.name ≠ specName k) := by
  obtain ⟨hnames, hexports⟩ := of_indexText_eq_ok h
  -- The alias is the name with an ending, so distinct kinds have distinct ones.
  have hspecs : (kinds.map specName).Nodup := by
    refine List.Nodup.map_on (fun k hk other hother hsame => ?_) hnames.of_map
    exact List.inj_on_of_nodup_map hnames hk hother (name_eq_of_specName_eq hsame)
  refine ⟨hexports, hnames, hspecs, ?_⟩
  rw [(exportedNames_perm kinds).nodup_iff, List.nodup_append']
  constructor
  · rintro ⟨-, -, hdisjoint⟩ k hk other hother hclash
    exact hdisjoint (List.mem_map_of_mem hother) (hclash ▸ List.mem_map_of_mem hk)
  · refine fun hapart => ⟨hnames, hspecs, fun name hname hspec => ?_⟩
    obtain ⟨other, hother, rfl⟩ := List.mem_map.mp hname
    obtain ⟨k, hk, hclash⟩ := List.mem_map.mp hspec
    exact hapart k hk other hother hclash.symm

end TypeScript

namespace Sample

open TypeScript

/-- The small kind, resolved. -/
def folderResolved : ResolvedKind where
  name := "Folder"
  machineName := "folder"
  description := []
  metadata := { name := "metadata", type := .struct [] }
  spec := { name := "spec", type := .struct [{ name := "title", type := .scalar .string }] }
  status := { name := "status", type := .struct [] }
  declarations := []

/-- A kind that is named like the spec of another, resolved. -/
def folderSpecResolved : ResolvedKind :=
  { folderResolved with name := "FolderSpec", machineName := "folder_spec" }

theorem exportedNames_folder : ∃ text, indexText [folderResolved, shopResolved] = .ok text ∧
    (exportedNames [folderResolved, shopResolved]).Nodup := by
  have hindex : indexText [folderResolved, shopResolved] =
      .ok (exports [folderResolved, shopResolved]) :=
    indexText_eq_ok (by decide) (by decide) (by decide)
  obtain ⟨-, -, -, hnodup⟩ := nodup_exportedNames_iff hindex
  exact ⟨_, hindex, hnodup.mpr (by decide)⟩

/-- There is an index of two kinds of which one is named like the spec of the other. -/
theorem clash_folderSpec : folder.resolve .inline = .ok folderResolved ∧
    ({ folder with name := "FolderSpec" } : Kind).resolve .inline = .ok folderSpecResolved ∧
    ∃ text, indexText [folderResolved, folderSpecResolved] = .ok text ∧
      ¬ (exportedNames [folderResolved, folderSpecResolved]).Nodup := by
  refine ⟨by with_unfolding_all rfl, by with_unfolding_all rfl,
    exports [folderResolved, folderSpecResolved], ?_, by decide⟩
  exact indexText_eq_ok (by decide) (by decide) (by decide)

end Sample

end KindSchema
