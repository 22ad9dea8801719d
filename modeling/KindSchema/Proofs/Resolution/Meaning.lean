import KindSchema.Proofs.Resolution.Correspondence
import KindSchema.Proofs.Resolution.Unfolding

/-!
# Resolution preserves meaning

* `Kind.Corresponds.simulates`: what a type is resolved to has the same outermost constructor, with
  parts that the parts of the type are resolved to. Names in front of it are no obstacle. A
  definition is resolved by means of those resolved before it, so definitions that are only other
  names do not lead in circles.
* `unfold_sections`: hence the sections of a resolved kind unfold to the same trees as those of the
  kind.
-/

namespace KindSchema

namespace Resolution

variable {k : Kind} {r : ResolvedKind} {names : Names}

/-- Fields that stand for fields one after the other do so one by one. -/
private theorem FieldsResolve.forall₂ {fields : List (Field TypeExpr)} {shapes : List (Field Shape)}
    (h : FieldsResolve r names fields shapes) :
    List.Forall₂ (Field.Rel (Resolves r names)) fields shapes := by
  induction fields generalizing shapes with
  | nil => cases h; exact .nil
  | cons f fields ih =>
    cases h with
    | cons head tail => exact .cons ⟨_, rfl, head⟩ (ih tail)

/-- Unless `type` is lifted, the shape that stands for it has the same constructor or name. -/
theorem Resolves.view {type : TypeExpr} {shape : Shape} (noStruct : ∀ s, type ≠ .struct s)
    (noEnum : ∀ values, type ≠ .enum values) (h : Resolves r names type shape) :
    (∃ n m, type.view = .inl n ∧ shape.view = .inl m ∧ TypeNode.Rel (Resolves r names) n m) ∨
      ∃ name ∈ names.defined, type = .reference name ∧ shape = .named name := by
  cases h with
  | scalar kind => exact .inl ⟨_, _, rfl, rfl, .scalar kind⟩
  | enum values => exact absurd rfl (noEnum values)
  | @liftedEnum values d found body lifted => exact absurd rfl (noEnum values)
  | array resolves => exact .inl ⟨_, _, rfl, rfl, .array resolves⟩
  | map resolves => exact .inl ⟨_, _, rfl, rfl, .map resolves⟩
  | @struct s fields resolve => exact absurd rfl (noStruct s)
  | @liftedStruct s name lifted => exact absurd rfl (noStruct s)
  | @reference name defined => exact .inr ⟨name, defined, rfl, rfl⟩

/-- A type and a shape that are seen as related constructors need no names replaced. -/
private theorem nodes_of_view {R : TypeExpr → Shape → Prop} {type : TypeExpr} {shape : Shape}
    {n : TypeNode TypeExpr} {m : TypeNode Shape} {count count' : Nat} (hn : type.view = .inl n)
    (hm : shape.view = .inl m) (hnm : TypeNode.Rel R n m) :
    ∃ n m, nodeWithin? TypeExpr.view k.meaning? count type = some n ∧
      nodeWithin? Shape.view r.meaning? count' shape = some m ∧ TypeNode.Rel R n m :=
  ⟨n, m, nodeWithin?_of_node hn count, nodeWithin?_of_node hm count', hnm⟩

/-- A definition that is resolved and the name of its declaration lead to the same constructor, and
no more names have to be replaced than there are definitions resolved up to it. -/
private theorem DefinitionsDeclared.node_rel {defined : List String}
    (h : DefinitionsDeclared k r names defined) (hle : defined ⊆ names.defined) {name : String}
    (hname : name ∈ defined) :
    ∃ n m, nodeWithin? TypeExpr.view k.meaning? defined.length (.reference name) = some n ∧
      nodeWithin? Shape.view r.meaning? defined.length (.named name) = some m ∧
      TypeNode.Rel (Resolves r names) n m := by
  induction h generalizing name with
  | nil => cases hname
  | @cons newest older d body declared rest ih =>
    -- An older definition is one that the newest may mean, with one name less to replace.
    have holder : older ⊆ names.defined := List.Subset.trans (List.subset_cons_self _ _) hle
    have hmono : (names.withDefined older).Le names := .of_withDefined holder
    by_cases heq : name = newest
    · subst heq
      have htype : k.meaning? name = some d.type := by
        rw [Kind.meaning?, declared.definition, Option.map_some]
      have hshape : r.meaning? name = some body.shape := by
        rw [ResolvedKind.meaning?, declared.found, Option.map_some]
      have hreference : TypeExpr.view (.reference name) = .inr name := rfl
      have hnamed : Shape.view (.named name) = .inr name := rfl
      rw [List.length_cons, nodeWithin?_of_name hreference htype,
        nodeWithin?_of_name hnamed hshape]
      cases declared.resolves with
      | struct type resolve =>
        rw [type]
        exact nodes_of_view rfl rfl (.struct (resolve.mono hmono).forall₂)
      | enum type =>
        rw [type]
        exact nodes_of_view rfl rfl (.enum _)
      | synonym noStruct noEnum resolves =>
        rcases resolves.view noStruct noEnum with ⟨n, m, hn, hm, hnm⟩ | ⟨other, hother, ht, hs⟩
        · exact nodes_of_view hn hm (hnm.imp fun _ _ hpart => hpart.mono hmono)
        · -- The other name is older, so that fewer names are left behind it.
          rw [ht, Body.shape, hs]
          exact ih holder hother
    · obtain ⟨n, m, hn, hm, hnm⟩ := ih holder ((List.mem_cons.mp hname).resolve_left heq)
      have hlength : older.length ≤ (newest :: older).length := by simp
      exact ⟨n, m, nodeWithin?_mono hlength hn, nodeWithin?_mono hlength hm, hnm⟩

end Resolution

open Resolution

variable {k : Kind} {r : ResolvedKind} {names : Names}

/-- The constructor of a name is that of the shape it means, unless this is a name again. -/
private theorem ResolvedKind.node?_of_meaning {name : String} {shape : Shape}
    {node : TypeNode Shape} (hname : r.meaning? name = some shape)
    (hview : shape.view = .inl node) :
    r.node? (.named name) = some node := by
  obtain ⟨d, hd, -⟩ := Option.map_eq_some_iff.mp hname
  have hcount : 1 ≤ r.declarations.length :=
    List.length_pos_of_mem (ResolvedKind.declaration?_eq_some hd).1
  have hnamed : Shape.view (.named name) = .inr name := rfl
  refine nodeWithin?_mono hcount ?_
  rw [nodeWithin?_of_name hnamed hname]
  exact nodeWithin?_of_node hview 0

/-- What the types of `k` are resolved to has the same constructors. -/
theorem Kind.Corresponds.simulates {c : Context} (hkind : c.kind = k)
    (hsound : names.Sound c [] (r.declarations.map (·.name))) (h : k.Corresponds r names) :
    Simulates k.node? r.node? (Resolves r names) := by
  intro t u htu
  cases htu with
  | scalar kind => exact nodes_of_view rfl rfl (.scalar kind)
  | enum values => exact nodes_of_view rfl rfl (.enum values)
  | @liftedEnum values d found body lifted =>
    have hmeaning : r.meaning? d.name = some (.enum values) := by
      rw [ResolvedKind.meaning?, found, Option.map_some, body, Body.shape]
    exact ⟨_, _, nodeWithin?_of_node rfl _, ResolvedKind.node?_of_meaning hmeaning rfl,
      .enum values⟩
  | array resolves => exact nodes_of_view rfl rfl (.array resolves)
  | map resolves => exact nodes_of_view rfl rfl (.map resolves)
  | struct resolve => exact nodes_of_view rfl rfl (.struct resolve.forall₂)
  | @liftedStruct s name lifted =>
    obtain ⟨path, fields, hdeclared⟩ := h.structs s name lifted
    have hmeaning : r.meaning? name = some (.struct fields) := by
      rw [ResolvedKind.meaning?, hdeclared.found, Option.map_some, Body.shape]
    exact ⟨_, _, nodeWithin?_of_node rfl _, ResolvedKind.node?_of_meaning hmeaning rfl,
      .struct hdeclared.resolve.forall₂⟩
  | @reference name defined =>
    obtain ⟨n, m, hn, hm, hnm⟩ := h.definitions.node_rel (List.Subset.refl _) defined
    -- Resolved definitions are declarations of the kind, so both sides may replace as many names.
    have hvisited (other : String) (hother : other ∈ names.defined) :=
      (hsound.visited other).mp (List.mem_append_left _ hother)
    have hnodup : names.defined.Nodup := by simpa using hsound.visited_nodup
    have hdefinitions : names.defined ⊆ (definitionsOf k).map (·.name) := fun other hother =>
      Kind.isSome_definition?_iff.mp (hkind ▸ (hvisited other hother).2)
    have hdeclarations : names.defined ⊆ r.declarations.map (·.name) := fun other hother =>
      (hvisited other hother).1
    have hleft := (hnodup.subperm hdefinitions).length_le
    have hright := (hnodup.subperm hdeclarations).length_le
    rw [List.length_map] at hleft hright
    exact ⟨n, m, nodeWithin?_mono hleft hn, nodeWithin?_mono hright hm, hnm⟩

/-- Resolution preserves meaning: to every `depth`, each section of `r` unfolds to the same tree as
the section of `k`, when names are replaced by the bodies of their declarations on the one side and
references by the types of their definitions on the other. -/
theorem unfold_sections {policy : Policy} (h : k.resolve policy = .ok r) (depth : Nat) :
    (∃ tree, TypeTree.unfold k.node? depth k.metadata.type = some tree ∧
      TypeTree.unfold r.node? depth r.metadata.type = some tree) ∧
    (∃ tree, TypeTree.unfold k.node? depth (.struct k.spec) = some tree ∧
      TypeTree.unfold r.node? depth r.spec.type = some tree) ∧
    ∃ tree, TypeTree.unfold k.node? depth (.struct k.status) = some tree ∧
      TypeTree.unfold r.node? depth r.status.type = some tree := by
  obtain ⟨names, hsound, hcorresponds⟩ := Kind.resolve_corresponds h
  have hsimulates := hcorresponds.simulates rfl hsound
  have hsections := hcorresponds.sections.forall₂
  rw [Kind.envelope, ResolvedKind.envelope] at hsections
  obtain ⟨⟨_, hmetadata, hm⟩, hsections⟩ := List.forall₂_cons.mp hsections
  obtain ⟨⟨_, hspec, hs⟩, hsections⟩ := List.forall₂_cons.mp hsections
  obtain ⟨⟨_, hstatus, ht⟩, -⟩ := List.forall₂_cons.mp hsections
  rw [hmetadata, hspec, hstatus]
  exact ⟨TypeTree.exists_unfold hsimulates depth hm, TypeTree.exists_unfold hsimulates depth hs,
    TypeTree.exists_unfold hsimulates depth ht⟩

namespace Sample

theorem unfold_shop : shop.resolve .nominal = .ok shopResolved ∧
    ∃ tree, TypeTree.unfold shop.node? 3 (.struct shop.spec) = some tree ∧
      TypeTree.unfold shopResolved.node? 3 shopResolved.spec.type = some tree :=
  ⟨resolve_shop, (unfold_sections resolve_shop 3).2.1⟩

end Sample

end KindSchema
