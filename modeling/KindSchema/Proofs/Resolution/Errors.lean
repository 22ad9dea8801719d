import Mathlib.Data.List.Chain
import KindSchema.Proofs.Resolution.Cycles

/-!
# Why a resolution fails

Nothing but a reference makes the resolution of a valid kind fail. `Resolution.Encounter` says what
holds where a resolution meets a reference: each open definition refers to the next, the last one to
the name that is met, and the sections lead to all of them.

* `exists_of_typeUse_error`, `exists_of_fieldUses_error`, `exists_of_bodyOf_error`: a type fails for
  the reason for which a reference in it fails, at the field path where the reference stands.
* `Encounter.genuine`: a reference that fails shows a cycle of definitions, or has a name without a
  definition.
* `resolve_error_genuine`: so every error of the resolution of a valid kind is one of these two.
-/

namespace KindSchema

/-! ### Where references stand -/

namespace TypeExpr

mutual

/-- The references in a type at the field path `path`, each with the field path where it stands. The
element type of an array or a map has the path of the whole. -/
def placedReferences (path : List String) : TypeExpr → List (List String × String)
  | .scalar _ => []
  | .enum _ => []
  | .array items => placedReferences path items
  | .map values => placedReferences path values
  | .struct ⟨_, _, fields⟩ => fieldPlacedReferences path fields
  | .reference name => [(path, name)]

/-- The references in the types of the fields of the struct at `path`. -/
def fieldPlacedReferences (path : List String) :
    List (Field TypeExpr) → List (List String × String)
  | [] => []
  | ⟨name, type, _, _⟩ :: fields =>
    placedReferences (path ++ [name]) type ++ fieldPlacedReferences path fields

end

private theorem placedReferences_struct (path : List String) (s : StructType) :
    placedReferences path (.struct s) = fieldPlacedReferences path s.fields := by
  cases s
  rw [placedReferences]

mutual

/-- The references in a type are those that stand somewhere in it. -/
private theorem map_snd_placedReferences (path : List String) :
    ∀ type : TypeExpr, (placedReferences path type).map Prod.snd = references type
  | .scalar _ => rfl
  | .enum _ => rfl
  | .array items => map_snd_placedReferences path items
  | .map values => map_snd_placedReferences path values
  | .struct ⟨_, _, fields⟩ => map_snd_fieldPlacedReferences path fields
  | .reference _ => rfl

private theorem map_snd_fieldPlacedReferences (path : List String) :
    ∀ fields : List (Field TypeExpr),
      (fieldPlacedReferences path fields).map Prod.snd = fieldReferences fields
  | [] => rfl
  | ⟨name, type, _, _⟩ :: fields => by
    rw [fieldPlacedReferences, List.map_append, map_snd_placedReferences (path ++ [name]) type,
      map_snd_fieldPlacedReferences path fields, fieldReferences]

end

/-- A reference that stands in a type is one of its references. -/
private theorem mem_references_of_placed {type : TypeExpr} {path place : List String}
    {name : String} (h : (place, name) ∈ type.placedReferences path) : name ∈ type.references := by
  rw [← map_snd_placedReferences path type]
  exact List.mem_map_of_mem h

/-- The references of some fields are those of the fields, in order. -/
private theorem fieldReferences_eq_flatMap (fields : List (Field TypeExpr)) :
    fieldReferences fields = fields.flatMap (·.type.references) := by
  induction fields with
  | nil => rfl
  | cons f fields ih => cases f; rw [fieldReferences, ih, List.flatMap_cons]

end TypeExpr

namespace Kind

/-- That a reference to `name` stands at the field path `path`, which starts with the name of a
section or of a definition that the sections refer to, directly or through definitions. -/
def RefersAt (k : Kind) (path : List String) (name : String) : Prop :=
  (∃ f ∈ k.envelope, (path, name) ∈ f.type.placedReferences [f.name]) ∨
    ∃ d, k.definition? d.name = some d ∧ k.IsReferenced d.name ∧
      (path, name) ∈ d.type.placedReferences [d.name]

/-- That `chain` is a cycle of definitions to which a section leads: it ends where it starts, meets
no other name twice, and the definition of each name refers to the next. -/
structure IsCycle (k : Kind) (chain : List String) : Prop where
  two_le_length : 2 ≤ chain.length
  closed : chain.head? = chain.getLast?
  nodup : chain.dropLast.Nodup
  defined : ∀ name ∈ chain, (k.definition? name).isSome
  linked : chain.IsChain fun outer inner => k.Within inner outer
  referenced : ∀ name ∈ chain, k.IsReferenced name

/-- That an error of references is there in `k`. -/
inductive HasReferenceError (k : Kind) : SchemaError → Prop
  | cycle {chain} (cycle : k.IsCycle chain) : HasReferenceError k (.cycle chain)
  | unresolved {path name} (missing : k.definition? name = none) (refers : k.RefersAt path name) :
    HasReferenceError k (.unresolvedReference (".".intercalate path) name)

variable {k : Kind}

/-- What a section refers to is referred to. -/
private theorem IsReferenced.of_section {f : Field TypeExpr} {name : String} (hf : f ∈ k.envelope)
    (hname : name ∈ f.type.references) : k.IsReferenced name := by
  refine ⟨name, ?_, .refl⟩
  rw [TypeExpr.fieldReferences_eq_flatMap]
  exact List.mem_flatMap.mpr ⟨f, hf, hname⟩

/-- What a definition that is referred to refers to is referred to. -/
private theorem IsReferenced.within {inner outer : String} (h : k.IsReferenced outer)
    (hinner : k.Within inner outer) : k.IsReferenced inner := by
  obtain ⟨root, hroot, hchain⟩ := h
  exact ⟨root, hroot, hchain.head hinner⟩

end Kind

/-! ### Types fail where references do -/

/-- A computation whose result is only wrapped up fails if the computation does. -/
private theorem of_bind_ok_eq_error {ε α β : Type} {x : Except ε α} {f : α → β} {e : ε}
    (h : (x >>= fun a => .ok (f a)) = .error e) : x = .error e := by
  rcases bind_eq_error.mp h with hx | ⟨a, -, ha⟩
  · exact hx
  · cases ha

namespace Resolution

variable {c : Context} {refer : Refer} {e : SchemaError}

/-- That a reference among those in `placed`, which stand at field paths, fails because of `e`. -/
def ReferenceFails (refer : Refer) (e : SchemaError) (placed : List (List String × String)) :
    Prop :=
  ∃ path name names, (path, name) ∈ placed ∧ refer path name names = .error e

private theorem ReferenceFails.mono {placed placed' : List (List String × String)}
    (h : ReferenceFails refer e placed) (hle : placed ⊆ placed') :
    ReferenceFails refer e placed' := by
  obtain ⟨path, name, names, hmem, herror⟩ := h
  exact ⟨path, name, names, hle hmem, herror⟩

mutual

/-- If `type` cannot be resolved, one of the references in it cannot. -/
theorem exists_of_typeUse_error :
    ∀ {type : TypeExpr} {path docs : List String} {place : Place} {names : Names},
      typeUse c refer path docs place type names = .error e →
      ReferenceFails refer e (type.placedReferences path)
  | .scalar _, _, _, _, _, h => by cases h
  | .enum _, path, docs, place, names, h => by
    rw [typeUse] at h
    split at h <;> cases h
  | .array _, path, docs, place, names, h => by
    rw [typeUse] at h
    rw [TypeExpr.placedReferences]
    exact exists_of_typeUse_error (of_bind_ok_eq_error h)
  | .map _, path, docs, place, names, h => by
    rw [typeUse] at h
    rw [TypeExpr.placedReferences]
    exact exists_of_typeUse_error (of_bind_ok_eq_error h)
  | .struct ⟨label, structDocs, fields⟩, path, docs, place, names, h => by
    rw [typeUse] at h
    split at h
    · cases h
    · split at h
      · exact exists_of_fieldUses_error (of_bind_ok_eq_error h)
      · exact exists_of_fieldUses_error (of_bind_ok_eq_error h)
  | .reference name, path, docs, place, names, h => by
    rw [typeUse] at h
    exact ⟨path, name, names, List.mem_singleton_self _, h⟩

theorem exists_of_fieldUses_error :
    ∀ {fields : List (Field TypeExpr)} {path : List String} {names : Names},
      fieldUses c refer path fields names = .error e →
      ReferenceFails refer e (TypeExpr.fieldPlacedReferences path fields)
  | [], _, _, h => by cases h
  | ⟨_, _, _, _⟩ :: _, path, names, h => by
    rw [fieldUses] at h
    rcases bind_eq_error.mp h with hfirst | ⟨first, -, h⟩
    · exact (exists_of_typeUse_error hfirst).mono (List.subset_append_left _ _)
    · exact (exists_of_fieldUses_error (of_bind_ok_eq_error h)).mono
        (List.subset_append_right _ _)

end

/-- If the body of `d` cannot be resolved, one of the references in its type cannot. -/
theorem exists_of_bodyOf_error {d : Definition} {names : Names}
    (h : bodyOf c refer d names = .error e) :
    ReferenceFails refer e (d.type.placedReferences [d.name]) := by
  rw [bodyOf] at h
  split at h
  · next s htype =>
    rw [htype, TypeExpr.placedReferences_struct]
    exact exists_of_fieldUses_error (of_bind_ok_eq_error h)
  · cases h
  · exact exists_of_typeUse_error (of_bind_ok_eq_error h)

/-- If a section cannot be resolved, one of the references in its type cannot. -/
private theorem exists_of_sectionUse_error {name : String} {docs : List String} {type : TypeExpr}
    {names : Names} (h : sectionUse c name docs type names = .error e) :
    ReferenceFails (referenceUse c []) e (type.placedReferences [name]) := by
  unfold sectionUse at h
  split at h
  · next s =>
    rw [TypeExpr.placedReferences_struct]
    exact exists_of_fieldUses_error (of_bind_ok_eq_error h)
  · exact exists_of_typeUse_error (of_bind_ok_eq_error h)

/-! ### What a resolution encounters -/

/-- What is left of a list from the first occurrence of an element on. -/
private theorem exists_dropWhile_ne {opened : List String} {name : String} (h : name ∈ opened) :
    ∃ after, opened.dropWhile (· != name) = name :: after := by
  induction opened with
  | nil => cases h
  | cons other opened ih =>
    by_cases heq : other = name
    · exact ⟨opened, by simp [heq]⟩
    · obtain ⟨after, hafter⟩ := ih ((List.mem_cons.mp h).resolve_left (Ne.symm heq))
      exact ⟨after, by simp [heq, hafter]⟩

/-- What holds where a reference to `name` is met at `path`, while the definitions in `opened` are
open: they are all different, each refers to the next, and the last one to `name`. -/
structure Encounter (k : Kind) (opened path : List String) (name : String) : Prop where
  linked : (opened ++ [name]).IsChain fun outer inner => k.Within inner outer
  nodup : opened.Nodup
  defined : ∀ other ∈ opened, (k.definition? other).isSome
  referenced : ∀ other ∈ opened ++ [name], k.IsReferenced other
  refers : k.RefersAt path name

namespace Encounter

variable {k : Kind} {opened path : List String} {name : String}

/-- A reference in a section is met when no definition is open. -/
private theorem of_section {f : Field TypeExpr} (hf : f ∈ k.envelope)
    (hplaced : (path, name) ∈ f.type.placedReferences [f.name]) : Encounter k [] path name where
  linked := .singleton name
  nodup := .nil
  defined := fun _ hother => absurd hother List.not_mem_nil
  referenced := by
    intro other hother
    obtain rfl := List.mem_singleton.mp hother
    exact .of_section hf (TypeExpr.mem_references_of_placed hplaced)
  refers := .inl ⟨f, hf, hplaced⟩

/-- A reference in a definition is met after the definition has been opened. -/
private theorem opening {d : Definition} {path' : List String} {name' : String}
    (h : Encounter k opened path name) (unopened : name ∉ opened)
    (found : k.definition? name = some d)
    (hplaced : (path', name') ∈ d.type.placedReferences [d.name]) :
    Encounter k (opened ++ [name]) path' name' := by
  -- The definition that is opened refers to what is placed in it, so the chain gets one more link.
  have hwithin : k.Within name' name := ⟨d, found, TypeExpr.mem_references_of_placed hplaced⟩
  have hname : k.IsReferenced name := h.referenced name (by simp)
  obtain rfl := (Kind.definition?_eq_some found).2
  exact {
    linked := by
      rw [List.isChain_append]
      refine ⟨h.linked, .singleton name', ?_⟩
      simpa using hwithin
    nodup := nodup_append_singleton h.nodup unopened
    defined := by
      intro other hother
      rcases List.mem_append.mp hother with hother | hother
      · exact h.defined other hother
      · obtain rfl := List.mem_singleton.mp hother
        exact Option.isSome_of_mem found
    referenced := by
      intro other hother
      rcases List.mem_append.mp hother with hother | hother
      · exact h.referenced other hother
      · obtain rfl := List.mem_singleton.mp hother
        exact hname.within hwithin
    refers := .inr ⟨d, found, hname, hplaced⟩ }

/-- A reference to a definition that is open closes a cycle. -/
private theorem isCycle (h : Encounter k opened path name) (hopen : name ∈ opened) :
    k.IsCycle (opened.dropWhile (· != name) ++ [name]) := by
  -- The cycle is the part of the open definitions from the name on, with the name once more behind
  -- it.
  obtain ⟨after, hafter⟩ := exists_dropWhile_ne hopen
  obtain ⟨before, hsplit⟩ : name :: after <:+ opened := hafter ▸ List.dropWhile_suffix _
  have hsuffix : name :: after ++ [name] <:+ opened ++ [name] := ⟨before, by simp [← hsplit]⟩
  have hsubset : name :: after ++ [name] ⊆ opened := by
    intro other hother
    rcases List.mem_append.mp hother with hother | hother
    · exact hsplit ▸ List.mem_append_right before hother
    · exact List.mem_singleton.mp hother ▸ hopen
  rw [hafter]
  exact {
    two_le_length := by simp
    closed := by rw [List.getLast?_append]; rfl
    nodup := by
      rw [List.dropLast_concat]
      exact h.nodup.sublist (hsplit ▸ List.sublist_append_right before _)
    defined := fun other hother => h.defined other (hsubset hother)
    linked := h.linked.suffix hsuffix
    referenced := fun other hother => h.referenced other (hsuffix.subset hother) }

end Encounter

/-- Where a reference to `name` fails, there is an error of references. -/
theorem Encounter.genuine {c : Context} {opened path : List String} {name : String} {names : Names}
    {e : SchemaError} (h : Encounter c.kind opened path name)
    (herror : referenceUse c opened path name names = .error e) : c.kind.HasReferenceError e := by
  -- The four ends of a reference, as they are tested; only the last goes on, with one more open.
  rw [referenceUse] at herror
  split at herror
  · cases herror
  · split at herror
    · next hopen =>
      cases herror
      exact .cycle (h.isCycle hopen)
    · next unopened =>
      split at herror
      · next missing =>
        cases herror
        exact .unresolved missing h.refers
      · next d found =>
        obtain ⟨path', name', names', hplaced, hinner⟩ :=
          exists_of_bodyOf_error (of_bind_ok_eq_error herror)
        exact (h.opening unopened found hplaced).genuine hinner
termination_by unopened c.kind opened
decreasing_by exact unopened_lt ‹_› ‹_›

end Resolution

open Resolution

/-- The errors of a resolution are genuine: a valid kind `k` that fails to resolve has a cycle of
definitions to which a section leads, which the error names from its first to its last link, or a
reference to a name without a definition, which the error names with its field path. -/
theorem resolve_error_genuine {policy : Policy} {k : Kind} {e : SchemaError}
    (hvalid : k.validate = .ok ()) (h : k.resolve policy = .error e) : k.HasReferenceError e := by
  have hsection : ∀ f ∈ k.envelope, ∀ names,
      sectionUse (contextOf policy k) f.name f.docs f.type names = .error e →
        k.HasReferenceError e := by
    intro f hf names herror
    obtain ⟨path, name, names', hplaced, herror⟩ := exists_of_sectionUse_error herror
    exact (Encounter.of_section (k := k) hf hplaced).genuine (c := contextOf policy k) herror
  rw [Kind.envelope, List.forall_mem_cons, List.forall_mem_cons, List.forall_mem_singleton]
    at hsection
  obtain ⟨hmetadata, hspec, hstatus⟩ := hsection
  rw [Kind.resolve, hvalid] at h
  rcases bind_eq_error.mp h with h | ⟨-, -, h⟩
  · cases h
  rcases bind_eq_error.mp h with h | ⟨metadata, -, h⟩
  · exact hmetadata _ h
  rcases bind_eq_error.mp h with h | ⟨spec, -, h⟩
  · exact hspec _ h
  · exact hstatus _ (of_bind_ok_eq_error h)

namespace Sample

/-- Ships that know their ports. -/
def ship : Definition where
  name := "Ship"
  type := .struct { fields := [{ name := "ports", type := .array (.reference "Port") }] }

/-- Ports that know their ships. -/
def port : Definition where
  name := "Port"
  type := .struct { fields := [{ name := "docked", type := .map (.reference "Ship") }] }

/-- A kind of ships, with the given definitions. -/
def fleet (definitions : List Definition) : Kind where
  name := "Fleet"
  spec := { fields := [{ name := "flagship", type := .reference "Ship" }] }
  definitions

/-- With both definitions there is a cycle; with one of them the other one is missing. -/
theorem resolve_error_fleet :
    (fleet [port, ship]).resolve .inline = .error (.cycle ["Ship", "Port", "Ship"]) ∧
      (fleet [port, ship]).HasReferenceError (.cycle ["Ship", "Port", "Ship"]) ∧
      (fleet [ship]).resolve .inline = .error (.unresolvedReference "Ship.ports" "Port") ∧
      (fleet [ship]).HasReferenceError (.unresolvedReference "Ship.ports" "Port") := by
  have hcycle : (fleet [port, ship]).resolve .inline =
      .error (.cycle ["Ship", "Port", "Ship"]) := by
    with_unfolding_all rfl
  have hmissing : (fleet [ship]).resolve .inline =
      .error (.unresolvedReference "Ship.ports" "Port") := by
    with_unfolding_all rfl
  have hvalid (definitions : List Definition) (h : definitions ∈ [[port, ship], [ship]]) :
      (fleet definitions).validate = .ok () := by
    rcases List.mem_pair.mp h with rfl | rfl <;> with_unfolding_all rfl
  exact ⟨hcycle, resolve_error_genuine (hvalid _ (by simp)) hcycle,
    hmissing, resolve_error_genuine (hvalid _ (by simp)) hmissing⟩

end Sample

end KindSchema
