import KindSchema.Proofs.Go.Identifiers
import KindSchema.Proofs.Naming
import KindSchema.Proofs.Resolution.NameSources
import KindSchema.Proofs.TypeScript.Tokens

/-!
# The names that a module exports

Next to the kind and what it depends on, a module exports its standalone spec, always under the name
`spec`. Resolution keeps the names of the kind and of its declarations apart, and it does not know
of that one.

* `Kind.spec_mem_of_mem_reachableDeclarations`: a declaration has the name only if a definition or
  an annotation gives it.
* `TypeScript.nodup_declaredIn_iff`: a module exports different names exactly if no declaration has
  the name.
-/

namespace KindSchema

/-- A fresh name that is the name of the standalone spec has it as its base. -/
private theorem eq_spec_of_freshName {used : List String} {base : String}
    (h : freshName used base = "spec") : base = "spec" := by
  have hbase := nonemptyBase_of_freshName (by simp) h
  rw [nonemptyBase] at hbase
  split at hbase
  · exact absurd hbase (by decide)
  · exact hbase

/-- The name of a type at a field path is not that of the standalone spec. -/
private theorem Naming.typeName_ne_spec (path : List String) : typeName path ≠ "spec" := by
  intro h
  have htext : (typeName path).toList = 's' :: ['p', 'e', 'c'] := by rw [h]; rfl
  exact not_isSmall_of_typeName htext (by unfold IsSmall; decide)

namespace Kind

variable {policy : Policy} {k : Kind} {r : ResolvedKind}

/-- A declaration with the name of the standalone spec is named after a definition or after an
annotation. -/
private theorem NamedAfter.spec_mem {d : Declaration} {base : String} (h : k.NamedAfter d base)
    (hname : d.name = "spec") : "spec" ∈ k.definitions.map (·.name) ∨ "spec" ∈ k.annotations := by
  cases h with
  | definition _ hmem =>
    rw [hname, Resolution.definitionsOf, List.map_append, List.mem_append] at hmem
    exact .inl (hmem.resolve_right (by decide))
  | label _ hmem hfresh => exact .inr (eq_spec_of_freshName (hfresh ▸ hname) ▸ hmem)
  | path _ hfresh =>
    exact absurd (eq_spec_of_freshName (hfresh ▸ hname)) (Naming.typeName_ne_spec _)

theorem spec_mem_of_mem_reachableDeclarations (h : k.resolve policy = .ok r) {params : Params}
    (hmem : "spec" ∈ (r.presented params).reachableDeclarations.map (·.name)) :
    "spec" ∈ k.definitions.map (·.name) ∨ "spec" ∈ k.annotations := by
  obtain ⟨d, hd, hname⟩ := List.mem_map.mp hmem
  have hnames : "spec" ∈ r.declarations.map (·.name) := by
    rw [← ResolvedKind.names_presented_declarations params, ← hname]
    exact List.mem_map_of_mem (ResolvedKind.mem_reachable.mp hd).1
  obtain ⟨d', hd', hname'⟩ := List.mem_map.mp hnames
  obtain ⟨base, hbase⟩ := resolve_hasSource h d' hd'
  exact hbase.spec_mem hname'

/-- A kind that is resolved does not have the name of the standalone spec. -/
private theorem resolve_name_ne_spec (h : k.resolve policy = .ok r) : k.name ≠ "spec" := by
  obtain ⟨hvalid, -⟩ := resolve_run h
  obtain ⟨c, cs, htext, hcapital, -⟩ := isPascalIdentifier_iff.mp (validate_names hvalid).pascal
  intro hname
  rw [hname] at htext
  obtain ⟨rfl, -⟩ := List.cons.inj htext
  exact absurd hcapital (by unfold IsCapital; decide)

end Kind

/-- The names that the module of a resolved kind exports are that of the standalone spec, that of
the kind, and those of the declarations that the kind depends on. The kind and its declarations have
different names, and the kind is not called `spec`. So all are different exactly if no declaration
is called `spec`, and one is only if a definition of the kind has that name or a struct is annotated
with it. -/
theorem TypeScript.nodup_declaredIn_iff {policy : Policy} {k : Kind} {r : ResolvedKind}
    (h : k.resolve policy = .ok r) (params : Params) :
    let declared := (r.presented params).reachableDeclarations.map (·.name)
    textOf (moduleTokens params r) = moduleText params r ∧
      declaredIn (moduleTokens params r) = "spec" :: k.name :: declared ∧
      (k.name :: declared).Nodup ∧ k.name ≠ "spec" ∧
      ((declaredIn (moduleTokens params r)).Nodup ↔ "spec" ∉ declared) ∧
      ("spec" ∈ declared → "spec" ∈ k.definitions.map (·.name) ∨ "spec" ∈ k.annotations) := by
  intro declared
  have hname : r.name = k.name := (Kind.resolve_run h).2.1
  have hdeclared : declaredIn (moduleTokens params r) = "spec" :: k.name :: declared := by
    rw [declaredIn_moduleTokens, hname]
  have hnodup : (k.name :: declared).Nodup :=
    List.nodup_cons.mpr ⟨hname ▸ Kind.name_not_mem_reachableDeclarations params h,
      Kind.nodup_reachableDeclarations params h⟩
  have hkind := Kind.resolve_name_ne_spec h
  refine ⟨textOf_moduleTokens params r, hdeclared, hnodup, hkind, ?_,
    Kind.spec_mem_of_mem_reachableDeclarations h⟩
  rw [hdeclared, List.nodup_cons, List.mem_cons, not_or]
  exact ⟨fun hall => hall.1.2, fun hspec => ⟨⟨hkind.symm, hspec⟩, hnodup⟩⟩

namespace Sample

open TypeScript

/-- The module of a shop exports different names. -/
theorem nodup_declaredIn_shop : shop.resolve .inline = .ok shopInlined ∧
    (declaredIn (moduleTokens {} shopInlined)).Nodup := by
  obtain ⟨-, -, -, -, hnodup, hspec⟩ := nodup_declaredIn_iff resolve_shopInlined {}
  exact ⟨resolve_shopInlined, hnodup.mpr fun hmem => absurd (hspec hmem) (by decide)⟩

/-- A kind with a struct that is annotated with the name of the standalone spec. -/
def stage : Kind where
  name := "Stage"
  metadata := { type := .struct { fields := [] } }
  spec := { fields := [{
    name := "plan"
    type := .struct { name := some "spec", fields := [{ name := "title", type := .string }] } }] }
  status := { fields := [] }

/-- The kind, resolved. -/
def stageResolved : ResolvedKind where
  name := "Stage"
  machineName := "stage"
  description := []
  metadata := { name := "metadata", type := .struct [] }
  spec := { name := "spec", type := .struct [{ name := "plan", type := .named "spec" }] }
  status := { name := "status", type := .struct [] }
  declarations := [
    ⟨"spec", [], .struct [{ name := "title", type := .scalar .string }], .lifted ["spec", "plan"]⟩]

/-- The module of this kind exports the name twice. -/
theorem spec_twice_stage : stage.resolve .inline = .ok stageResolved ∧
    declaredIn (moduleTokens {} stageResolved) = ["spec", "Stage", "spec"] ∧
    ¬(declaredIn (moduleTokens {} stageResolved)).Nodup := by
  have hresolve : stage.resolve .inline = .ok stageResolved := by with_unfolding_all rfl
  have hreachable : (stageResolved.presented {}).reachableDeclarations =
      stageResolved.declarations := by cbv
  have hdeclared : declaredIn (moduleTokens {} stageResolved) = ["spec", "Stage", "spec"] := by
    rw [declaredIn_moduleTokens, hreachable]
    rfl
  exact ⟨hresolve, hdeclared, by rw [hdeclared]; decide⟩

end Sample

end KindSchema
