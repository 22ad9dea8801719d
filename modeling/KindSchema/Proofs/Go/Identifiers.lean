import Mathlib.Data.List.Pairwise
import KindSchema.Proofs.Go.Expressible
import KindSchema.Proofs.Output.FileNames
import KindSchema.Proofs.Resolution.DeclaredNames

/-!
# The identifiers of a Go package

In Go, types and constants are declared in one scope. Declarations have names of their own, and no
enumeration has two literals for one constant. But a constant is the name of a type followed by a
word, and this may be the name of another type, or of a type followed by another word.

* `nodup_identifiers_iff`: the identifiers of the file of a kind are different exactly if no
  constant clashes in this way, which never happens if no type has a name that goes on where that
  of an enumeration ends.
* `nodup_declaredTypes_iff`: the types in the section files of a kind have different names exactly
  if the kind is not named like a section.
-/

namespace KindSchema

/-- No declaration of a resolved kind has the name of the kind. -/
private theorem Kind.resolve_name_ne {policy : Policy} {k : Kind} {r : ResolvedKind}
    (h : k.resolve policy = .ok r) : r.name ∉ r.declarations.map (·.name) := by
  obtain ⟨hvalid, hname, -⟩ := Kind.resolve_run h
  obtain ⟨step, -, -, hdeclarations, hsound, -⟩ := Kind.resolve_sound h
  intro hmem
  obtain ⟨d, hd, hdname⟩ := List.mem_map.mp hmem
  rw [hdeclarations] at hd
  exact (hsound.proper d hd).name_ne hvalid (hdname.trans hname)

section Presented

variable {policy : Policy} {k : Kind} {r : ResolvedKind} (params : Params)

/-- The declarations that are rendered of `r` have different names. -/
theorem Kind.nodup_reachableDeclarations (h : k.resolve policy = .ok r) :
    ((r.presented params).reachableDeclarations.map (·.name)).Nodup := by
  refine ResolvedKind.nodup_reachable ?_
  rw [ResolvedKind.names_presented_declarations]
  exact Kind.resolve_nodup h

/-- The declarations that are rendered of `r` do not have its name. -/
theorem Kind.name_not_mem_reachableDeclarations (h : k.resolve policy = .ok r) :
    r.name ∉ (r.presented params).reachableDeclarations.map (·.name) := by
  intro hmem
  obtain ⟨d, hd, hname⟩ := List.mem_map.mp hmem
  refine Kind.resolve_name_ne h ?_
  rw [← ResolvedKind.names_presented_declarations params, ← hname]
  exact List.mem_map_of_mem (ResolvedKind.mem_reachable.mp hd).1

end Presented

namespace Go

/-! ### Constants -/

/-- The identifiers that `f` declares: its types and its constants. -/
def File.identifiers (f : File) : List String :=
  f.types.map (·.name) ++ f.constants

/-- That no constant of `declarations` has the name of one of `types` or of a constant of another
enumeration. -/
structure ConstantsApart (types : List String) (declarations : List Declaration) : Prop where
  types : ∀ d ∈ declarations, ∀ c ∈ constantNames d, c ∉ types
  enums : ∀ d ∈ declarations, ∀ e ∈ declarations, d.name ≠ e.name →
    ∀ c ∈ constantNames d, c ∉ constantNames e

/-- That none of `types` has a name that goes on where that of an enumeration in `declarations`
ends. -/
def EnumsUnextended (types : List String) (declarations : List Declaration) : Prop :=
  ∀ d ∈ declarations, isEnum d = true → ∀ name ∈ types,
    d.name.toList <+: name.toList → name = d.name

/-- A constant is the name of its type and a word, so it is longer than the name of the type. -/
private theorem prefix_of_mem_constantNames {d : Declaration} {c : String}
    (h : c ∈ constantNames d) :
    d.name.toList <+: c.toList ∧ c ≠ d.name := by
  obtain ⟨name, docs, body, origin⟩ := d
  cases body with
  | struct fields => exact absurd h List.not_mem_nil
  | synonym shape => exact absurd h List.not_mem_nil
  | enum values =>
    obtain ⟨value, -, hvalue⟩ := List.mem_filterMap.mp h
    obtain ⟨word, hword, rfl⟩ := Option.map_eq_some_iff.mp hvalue
    -- A constant is longer than the name of its type, as the word behind it is not empty.
    have hne : word ≠ "" := by
      rintro rfl
      rw [Naming.identifier?] at hword
      split at hword
      · cases hword
      · next first rest hchars =>
        split at hword
        · have hempty := congrArg String.toList (Option.some.inj hword)
          rw [String.toList_ofList, hchars] at hempty
          cases hempty
        · cases hword
    refine ⟨?_, fun heq => hne ?_⟩
    · rw [String.toList_append]
      exact List.prefix_append _ _
    · exact String.append_eq_left_iff.mp heq

section Constants

variable {types : List String} {declarations : List Declaration}

/-- If no type has a name that goes on where that of an enumeration ends, no constant clashes. -/
private theorem EnumsUnextended.constantsApart (h : EnumsUnextended types declarations)
    (htypes : ∀ d ∈ declarations, d.name ∈ types) : ConstantsApart types declarations := by
  refine ⟨fun d hd c hc hmem => ?_, fun d hd e he hne c hc hce => ?_⟩
  · obtain ⟨hbegins, hlonger⟩ := prefix_of_mem_constantNames hc
    exact hlonger (h d hd (isEnum_of_mem_constantNames hc) c hmem hbegins)
  · -- Both names are beginnings of the constant, so one is a beginning of the other.
    obtain ⟨hd', -⟩ := prefix_of_mem_constantNames hc
    obtain ⟨he', -⟩ := prefix_of_mem_constantNames hce
    rcases List.prefix_or_prefix_of_prefix hd' he' with hbegins | hbegins
    · exact hne (h d hd (isEnum_of_mem_constantNames hc) e.name (htypes e he) hbegins).symm
    · exact hne (h e he (isEnum_of_mem_constantNames hce) d.name (htypes d hd) hbegins)

/-- Types with different names and constants that are different within each enumeration are all
different if no constant clashes, and only then. -/
private theorem nodup_append_constants_iff (hnames : (declarations.map (·.name)).Nodup)
    (htypes : types.Nodup) (hconstants : ∀ d ∈ declarations, (constantNames d).Nodup) :
    (types ++ declarations.flatMap constantNames).Nodup ↔ ConstantsApart types declarations := by
  have hinj := List.inj_on_of_nodup_map hnames
  rw [List.nodup_append', List.nodup_flatMap]
  constructor
  · rintro ⟨-, ⟨-, hpairwise⟩, hdisjoint⟩
    refine ⟨fun d hd c hc hmem => ?_, fun d hd e he hne c hc hce => ?_⟩
    · exact hdisjoint hmem (List.mem_flatMap.mpr ⟨d, hd, hc⟩)
    · have hsymm : Std.Symm (Function.onFun List.Disjoint constantNames) :=
        ⟨fun _ _ hdisjoint => hdisjoint.symm⟩
      have hne' : d ≠ e := fun heq => hne (congrArg _ heq)
      exact hpairwise.forall hd he hne' hc hce
  · intro h
    refine ⟨htypes, ⟨hconstants, ?_⟩, fun c hmem hc => ?_⟩
    · refine hnames.of_map.pairwise_of_forall_ne fun d hd e he hne c hc hce => ?_
      exact h.enums d hd e he (fun hname => hne (hinj hd he hname)) c hc hce
    · obtain ⟨d, hd, hc⟩ := List.mem_flatMap.mp hc
      exact h.types d hd c hc hmem

end Constants

/-- The types in the file of `r`: the kind, and the declarations that it depends on. -/
def typeNames (params : Params) (r : ResolvedKind) : List String :=
  r.name :: (r.presented params).reachableDeclarations.map (·.name)

section Resolved

variable {policy : Policy} {k : Kind} {r : ResolvedKind} {params : Params}

/-- The file of `r` declares the kind, the declarations that it depends on and the constants of the
enumerations among these. The types have different names, and so have the constants of each
enumeration. All identifiers of the file are different exactly if no constant clashes with a type or
with a constant of another enumeration; so they are whenever no type has a name that goes on where
that of an enumeration ends. -/
theorem nodup_identifiers_iff (h : k.resolve policy = .ok r) {file : File}
    (hfile : typesFile params r = .ok file) :
    file.identifiers.Perm (typeNames params r ++
        (r.presented params).reachableDeclarations.flatMap constantNames) ∧
      (typeNames params r).Nodup ∧
      (∀ d ∈ (r.presented params).reachableDeclarations, (constantNames d).Nodup) ∧
      (file.identifiers.Nodup ↔
        ConstantsApart (typeNames params r) (r.presented params).reachableDeclarations) ∧
      (EnumsUnextended (typeNames params r) (r.presented params).reachableDeclarations →
        file.identifiers.Nodup) := by
  obtain ⟨root, hroot, -, hcovers⟩ := typesFile_covers hfile
  obtain ⟨hconstants, hdistinct⟩ := fileOf_constants hfile
  have hperm : file.identifiers.Perm (typeNames params r ++
      (r.presented params).reachableDeclarations.flatMap constantNames) := by
    have htypes := hcovers.names
    rw [List.flatMap_singleton, List.map_singleton, hroot] at htypes
    exact htypes.append hconstants
  have hnames := Kind.nodup_reachableDeclarations params h
  have hnodup : (typeNames params r).Nodup :=
    List.nodup_cons.mpr ⟨Kind.name_not_mem_reachableDeclarations params h, hnames⟩
  have hiff := nodup_append_constants_iff hnames hnodup hdistinct
  rw [← hperm.nodup_iff] at hiff
  refine ⟨hperm, hnodup, hdistinct, hiff, fun hunextended => hiff.mpr ?_⟩
  exact hunextended.constantsApart fun d hd =>
    List.mem_cons_of_mem _ (List.mem_map_of_mem hd)

end Resolved

end Go

namespace Sample

open Go

theorem identifiers_lamp : ∃ file, typesFile {} lampResolved = .ok file ∧
    EnumsUnextended (typeNames {} lampResolved)
      (lampResolved.presented {}).reachableDeclarations ∧ file.identifiers.Nodup := by
  obtain ⟨file, hfile⟩ := exists_typesFile_lamp
  have hunextended : EnumsUnextended (typeNames {} lampResolved)
      (lampResolved.presented {}).reachableDeclarations := by
    have hreachable : (lampResolved.presented {}).reachableDeclarations =
        lampResolved.declarations := by cbv
    rw [typeNames, hreachable]
    intro d hd _ name hname
    revert d name
    decide
  obtain ⟨-, -, -, -, hnodup⟩ := nodup_identifiers_iff resolve_lamp hfile
  exact ⟨file, hfile, hunextended, hnodup hunextended⟩

/-- A kind with the enumerations `Mode` and `ModeOn`: the literal `on-off` of the first and the
literal `off` of the second ask for one constant. -/
def signal : Kind where
  name := "Signal"
  metadata := { type := .struct { fields := [] } }
  spec := { fields := [
    { name := "mode", type := .reference "Mode" },
    { name := "modeOn", type := .reference "ModeOn" }] }
  status := { fields := [] }
  definitions := [{ name := "Mode", type := .enum ["on-off"] },
    { name := "ModeOn", type := .enum ["off"] }]

/-- The kind, resolved. -/
def signalResolved : ResolvedKind where
  name := "Signal"
  machineName := "signal"
  description := []
  metadata := { name := "metadata", type := .struct [] }
  spec := { name := "spec", type := .struct [
    { name := "mode", type := .named "Mode" },
    { name := "modeOn", type := .named "ModeOn" }] }
  status := { name := "status", type := .struct [] }
  declarations := [
    ⟨"Mode", [], .enum ["on-off"], .defined⟩,
    ⟨"ModeOn", [], .enum ["off"], .defined⟩]

/-- The kind has a Go file, and it declares the constant `ModeOnOff` twice. -/
theorem clash_signal : signal.resolve .nominal = .ok signalResolved ∧
    ∃ file, typesFile {} signalResolved = .ok file ∧ ¬ file.identifiers.Nodup := by
  have hreachable : (signalResolved.presented {}).reachableDeclarations =
      signalResolved.declarations := by cbv
  have hexpressible : ∀ d ∈ (signalResolved.presented {}).reachableDeclarations,
      Expressible d := by
    rw [hreachable]
    simp only [signalResolved, List.forall_mem_cons]
    refine ⟨⟨⟨_, rfl⟩, fun values hvalues => ?_⟩, ⟨⟨_, rfl⟩, fun values hvalues => ?_⟩,
      fun d hd => absurd hd List.not_mem_nil⟩
    · cases hvalues
      exact ⟨_, by with_unfolding_all rfl⟩
    · cases hvalues
      exact ⟨_, by with_unfolding_all rfl⟩
  obtain ⟨file, hfile⟩ := exists_typesFile_iff.mpr
    ⟨⟨_, by with_unfolding_all rfl⟩, hexpressible⟩
  refine ⟨by with_unfolding_all rfl, file, hfile, fun hnodup => ?_⟩
  obtain ⟨hconstants, -⟩ := fileOf_constants hfile
  have hclash : ¬ (signalResolved.declarations.flatMap constantNames).Nodup := by decide +kernel
  rw [hreachable] at hconstants
  exact hclash (hconstants.nodup_iff.mp (List.nodup_append'.mp hnodup).2.1)

end Sample

namespace Go

/-! ### Types in the files of the sections -/

/-- The names of the types that `files` declare. -/
def declaredTypes (files : List NamedFile) : List String :=
  files.flatMap fun f => f.file.types.map (·.name)

/-- The names of the types of the sections. -/
def sectionTypes : List String :=
  ["Metadata", "Spec", "Status"]

section Resolved

variable {policy : Policy} {k : Kind} {r : ResolvedKind} {params : Params}

/-- The types of the sections of `r` have the same names as in all kinds. -/
theorem sectionTypeNames_eq (h : k.resolve policy = .ok r) :
    sectionTypeNames params r = sectionTypes := by
  have hnames := r.presented_sectionNames params
  rw [Kind.resolve_sectionNames h] at hnames
  have hidentifiers : sectionTypeNames params r =
      ((r.presented params).envelope.map (·.name)).map
        fun name => (Naming.identifier? name).getD "" := by
    rw [List.map_map]
    rfl
  rw [hidentifiers, hnames]
  decide +kernel

/-- The four files of `r` declare the kind, the types of the sections and the declarations that
these depend on. All but the kind have different names, and no declaration has the name of the kind;
so no type is declared twice exactly if the kind is not named like a section. -/
theorem nodup_declaredTypes_iff (h : k.resolve policy = .ok r) {files : List NamedFile}
    (hfiles : sectionFiles params r = .ok files) :
    (declaredTypes files).Perm (r.name :: (sectionTypes ++
        (r.presented params).reachableDeclarations.map (·.name))) ∧
      (sectionTypes ++ (r.presented params).reachableDeclarations.map (·.name)).Nodup ∧
      r.name ∉ (r.presented params).reachableDeclarations.map (·.name) ∧
      ((declaredTypes files).Nodup ↔ r.name ∉ sectionTypes) := by
  obtain ⟨hunshadowed, root, roots, hroot, -, hroots, -, hcovers⟩ :=
    sectionFiles_covers (Kind.resolve_nodup h) hfiles
  rw [sectionTypeNames_eq h] at hunshadowed hroots
  have hname := Kind.name_not_mem_reachableDeclarations params h
  have hperm : (declaredTypes files).Perm (r.name :: (sectionTypes ++
      (r.presented params).reachableDeclarations.map (·.name))) := by
    have hnames := hcovers.names
    rw [List.map_flatMap, List.flatMap_map, List.map_cons, hroot, hroots] at hnames
    exact hnames
  have hnodup : (sectionTypes ++
      (r.presented params).reachableDeclarations.map (·.name)).Nodup := by
    -- The check keeps the declarations apart from the sections; it ignores the name of the kind.
    refine List.nodup_append'.mpr ⟨by decide, Kind.nodup_reachableDeclarations params h, ?_⟩
    intro name hsection hmem
    obtain ⟨d, hd, rfl⟩ := List.mem_map.mp hmem
    exact hunshadowed d hd hsection
  refine ⟨hperm, hnodup, hname, ?_⟩
  rw [hperm.nodup_iff, List.nodup_cons, List.mem_append, not_or]
  exact ⟨fun hall => hall.1.1, fun hkind => ⟨⟨hkind, hname⟩, hnodup⟩⟩

end Resolved

end Go

namespace Sample

open Go

theorem declaredTypes_lamp : ∃ files, sectionFiles {} lampResolved = .ok files ∧
    (declaredTypes files).Nodup := by
  obtain ⟨files, hfiles⟩ := exists_sectionFiles_lamp
  obtain ⟨-, -, -, hnodup⟩ := nodup_declaredTypes_iff resolve_lamp hfiles
  exact ⟨files, hfiles, hnodup.mpr (by decide)⟩

/-- A kind that is named like a section. -/
def sheet : Kind where
  name := "Spec"
  metadata := { type := .struct { fields := [] } }
  spec := { fields := [{ name := "title", type := .string }] }
  status := { fields := [] }

/-- The kind, resolved. -/
def sheetResolved : ResolvedKind where
  name := "Spec"
  machineName := "spec"
  description := []
  metadata := { name := "metadata", type := .struct [] }
  spec := { name := "spec", type := .struct [{ name := "title", type := .scalar .string }] }
  status := { name := "status", type := .struct [] }
  declarations := []

/-- The kind has Go files for its sections, and these declare the type `Spec` twice. -/
theorem clash_sheet : sheet.resolve .nominal = .ok sheetResolved ∧
    ∃ files, sectionFiles {} sheetResolved = .ok files ∧ ¬ (declaredTypes files).Nodup := by
  have hnone : (sheetResolved.presented {}).reachableDeclarations = [] := rfl
  have hresolve : sheet.resolve .nominal = .ok sheetResolved := by with_unfolding_all rfl
  have hfiles : ∃ files, sectionFiles {} sheetResolved = .ok files := by
    refine (exists_sectionFiles_iff (by decide)).mpr
      ⟨sectionsNamed_of_resolve hresolve {}, ?_, ?_, ?_, ?_⟩
    · exact fun d hd => absurd hd List.not_mem_nil
    · exact ⟨_, by with_unfolding_all rfl⟩
    · simp only [ResolvedKind.envelope, List.forall_mem_cons]
      exact ⟨⟨_, by with_unfolding_all rfl⟩, ⟨_, by with_unfolding_all rfl⟩,
        ⟨_, by with_unfolding_all rfl⟩, fun f hf => absurd hf List.not_mem_nil⟩
    · exact fun d hd => absurd hd List.not_mem_nil
  obtain ⟨files, hfiles⟩ := hfiles
  obtain ⟨-, root, roots, hroot, -, hroots, -, hcovers⟩ :=
    sectionFiles_covers (by decide) hfiles
  refine ⟨hresolve, files, hfiles, fun hnodup => ?_⟩
  have hnames := hcovers.names
  rw [List.map_flatMap, List.flatMap_map, List.map_cons, hroot, hroots,
    sectionTypeNames_eq hresolve] at hnames
  have hclash : ¬ ("Spec" :: sectionTypes ++ ([] : List Declaration).map (·.name)).Nodup := by
    decide
  exact hclash (hnames.nodup_iff.mp hnodup)

end Sample

end KindSchema
