import KindSchema.Proofs.Resolution.Cycles
import KindSchema.Proofs.Resolution.Meaning

/-!
# The names of the declarations

A position of a kind is a path from its three sections, through fields, elements and the definitions
that references mean. `Kind.typeAt?` gives the type at a position, and `ResolvedKind.shapeAt?` the
shape at the same position of the resolved kind.

* `Names.Sound.name_eq_iff`: lifted structs have the same name if and only if they are equal.
* `Kind.resolve_rel`: the shape at a position is what the type there has been resolved to.
* `resolve_wellNamed`: hence the names of the declarations are as `ResolvedKind.WellNamed` says.
-/

namespace KindSchema

open Resolution

/-- The type at `position` in the sections of `k`. -/
def Kind.typeAt? (k : Kind) (position : List Branch) : Option TypeExpr :=
  partAt? k.node? position (.struct { fields := k.envelope })

/-- The shape at `position` in the sections of `r`. -/
def ResolvedKind.shapeAt? (r : ResolvedKind) (position : List Branch) : Option Shape :=
  partAt? r.node? position (.struct r.envelope)

/-- Lifted structs `s` and `t` have the same name if and only if they are equal. -/
theorem Resolution.Names.Sound.name_eq_iff {c : Context} {opened begun : List String}
    {names : Names} (h : names.Sound c opened begun) {s t : StructType} {m n : String}
    (hs : (s, m) ∈ names.lifted) (ht : (t, n) ∈ names.lifted) : m = n ↔ s = t := by
  constructor
  · intro hmn
    exact congrArg Prod.fst (List.inj_on_of_nodup_map h.names_nodup hs ht hmn)
  · intro hst
    exact congrArg Prod.snd (List.inj_on_of_nodup_map h.structs_nodup hs ht hst)

/-! ### What a declaration is named after -/

namespace Declaration.Proper

variable {k : Kind} {d : Declaration}

private theorem mem_definitions (h : d.Proper k) (horigin : d.origin = .defined) :
    d.name ∈ (definitionsOf k).map (·.name) :=
  Kind.isSome_definition?_iff.mp (h.defined horigin)

private theorem not_mem_definitions {path : List String} (h : d.Proper k)
    (horigin : d.origin = .lifted path) : d.name ∉ (definitionsOf k).map (·.name) :=
  fun hmem => h.lifted path horigin (List.mem_cons_of_mem _ hmem)

/-- The declaration `d` does not have the name of the kind: definitions must not, and lifted types
do not. -/
theorem name_ne (h : d.Proper k) (hvalid : k.validate = .ok ()) : d.name ≠ k.name := by
  intro hname
  cases horigin : d.origin with
  | defined =>
    obtain ⟨e, he, hename⟩ := List.mem_map.mp (h.mem_definitions horigin)
    exact Kind.validate_name_ne hvalid he (hename.trans hname)
  | lifted path => exact h.lifted path horigin (hname ▸ List.mem_cons_self)

end Declaration.Proper

/-! ### What stands at a position -/

section Positions

variable {r : ResolvedKind} {names : Names}

/-- A struct `s` that is replaced by `name` has been lifted under that name. -/
theorem Resolution.Resolves.mem_lifted {s : StructType} {name : String}
    (h : Resolves r names (.struct s) (.named name)) : (s, name) ∈ names.lifted := by
  cases h with
  | liftedStruct lifted => exact lifted

/-- A reference is replaced by a mention of the same name. -/
private theorem Resolution.Resolves.eq_named {name : String} {shape : Shape}
    (h : Resolves r names (.reference name) shape) : shape = .named name := by
  cases h with
  | reference _ => rfl

end Positions

section Resolved

variable {policy : Policy} {k : Kind} {r : ResolvedKind}

/-- The resolved kind `r` has at each position what the type there has been resolved to. -/
theorem Kind.resolve_rel (h : k.resolve policy = .ok r) :
    ∃ names, names.Sound (contextOf policy k) [] (r.declarations.map (·.name)) ∧
      k.Corresponds r names ∧
      ∀ position, Option.Rel (Resolves r names) (k.typeAt? position) (r.shapeAt? position) := by
  obtain ⟨names, hsound, hcorresponds⟩ := Kind.resolve_corresponds h
  refine ⟨names, hsound, hcorresponds, fun position => ?_⟩
  exact partAt?_rel (hcorresponds.simulates rfl hsound) position
    (.struct (s := { fields := k.envelope }) hcorresponds.sections)

/-- That the declarations of `r` are named as they should be: they all have names of their own,
those of definitions the names of the definitions, and a struct has one name wherever it is
lifted. -/
structure ResolvedKind.WellNamed (r : ResolvedKind) (k : Kind) : Prop where
  nodup : (r.declarations.map (·.name)).Nodup
  name_ne : ∀ d ∈ r.declarations, d.name ≠ k.name
  /-- What has not been lifted has the name of a definition. -/
  defined : ∀ d ∈ r.declarations, d.origin = .defined →
    d.name ∈ (definitionsOf k).map (·.name)
  /-- A definition that is referred to is declared under its own name. -/
  referenced : ∀ name, k.IsReferenced name → ∃ d body, k.definition? name = some d ∧
    r.declaration? name = some ⟨name, docsOf d, body, .defined⟩
  /-- A reference to a definition becomes a mention of it. -/
  reference : ∀ position name, k.typeAt? position = some (.reference name) →
    r.shapeAt? position = some (.named name)
  /-- What has been lifted never has the name of a definition. -/
  lifted : ∀ d ∈ r.declarations, ∀ path, d.origin = .lifted path →
    d.name ∉ (definitionsOf k).map (·.name)
  /-- Two structs that have been lifted have the same name if and only if they are equal. -/
  struct : ∀ position position' s t m n,
    k.typeAt? position = some (.struct s) → r.shapeAt? position = some (.named m) →
    k.typeAt? position' = some (.struct t) → r.shapeAt? position' = some (.named n) →
    (m = n ↔ s = t)

/-- The declarations of `r` are named as they should be. -/
theorem resolve_wellNamed (h : k.resolve policy = .ok r) : r.WellNamed k := by
  obtain ⟨hvalid, -, -⟩ := Kind.resolve_run h
  obtain ⟨step, -, -, hdeclarations, hstep, -⟩ := Kind.resolve_sound h
  obtain ⟨names, hsound, hcorresponds, hrel⟩ := Kind.resolve_rel h
  have hproper : ∀ d ∈ r.declarations, d.Proper k := hdeclarations ▸ hstep.proper
  -- The simulation relates a struct to a name only if it has been lifted under that name.
  have hlifted : ∀ {position s m}, k.typeAt? position = some (.struct s) →
      r.shapeAt? position = some (.named m) → (s, m) ∈ names.lifted := by
    intro position s m hs hm
    have hresolves := hrel position
    rw [hs, hm, Option.rel_some_some] at hresolves
    exact hresolves.mem_lifted
  refine {
    nodup := hsound.nodup
    name_ne := fun d hd => (hproper d hd).name_ne hvalid
    defined := fun d hd horigin => (hproper d hd).mem_definitions horigin
    referenced := fun name hname => ?_
    reference := fun position name hname => ?_
    lifted := fun d hd path horigin => (hproper d hd).not_mem_definitions horigin
    struct := fun _ _ _ _ _ _ hs hm ht hn => hsound.name_eq_iff (hlifted hs hm) (hlifted ht hn) }
  · obtain ⟨d, body, hd⟩ :=
      hcorresponds.exists_definition (hcorresponds.defined_of_isReferenced hname)
    exact ⟨d, body, hd.definition, hd.found⟩
  · obtain ⟨shape, hshape, hresolves⟩ := exists_of_rel_some (hname ▸ hrel position)
    rw [hshape, hresolves.eq_named]

end Resolved

namespace Sample

/-- In the small kind, the home of a person is the struct that has been lifted at the office. -/
theorem wellNamed_shop : shop.resolve .nominal = .ok shopResolved ∧ shopResolved.WellNamed shop ∧
    shop.typeAt? [.field 1, .field 2, .field 0] = some (.struct address) ∧
    shopResolved.shapeAt? [.field 1, .field 2, .field 0] = some (.named "SpecOffice") :=
  ⟨resolve_shop, resolve_wellNamed resolve_shop, rfl, rfl⟩

end Sample

end KindSchema
