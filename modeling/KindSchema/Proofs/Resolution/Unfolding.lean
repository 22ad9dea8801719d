import Mathlib.Data.List.Forall2
import KindSchema.Resolved.Resolution

/-!
# Unfolding types

The types of a kind and the shapes of a resolved kind are graphs, as names lead from one type to
another. Both unfold to trees: `Kind.node?` and `ResolvedKind.node?` give the outermost constructor
of a type or a shape, with all names in front of it replaced by what they stand for, and
`TypeTree.unfold` repeats this down to a depth. `partAt?` follows a path into the tree instead.

* `TypeTree.exists_unfold`, `partAt?_rel`: types related by a relation that their outermost
  constructors carry on to their parts have the same trees to every depth, and related parts at
  every path.
-/

namespace KindSchema

/-- The outermost constructor of a type, with parts in `τ`. -/
inductive TypeNode (τ : Type)
  | scalar (kind : Scalar)
  | enum (values : List String)
  | array (items : τ)
  | map (values : τ)
  | struct (fields : List (Field τ))

/-- A tree of constructors, cut at some depth. -/
inductive TypeTree
  /-- What lies below the depth. -/
  | cut
  | scalar (kind : Scalar)
  | enum (values : List String)
  | array (items : TypeTree)
  | map (values : TypeTree)
  | struct (fields : List (Field TypeTree))

/-- The tree that types unfold to, down to `depth`, if `node?` gives their outermost
constructors. -/
def TypeTree.unfold {τ : Type} (node? : τ → Option (TypeNode τ)) :
    (depth : Nat) → τ → Option TypeTree
  | 0, _ => some .cut
  | depth + 1, type =>
    match node? type with
    | none => none
    | some (.scalar kind) => some (.scalar kind)
    | some (.enum values) => some (.enum values)
    | some (.array items) => (unfold node? depth items).map .array
    | some (.map values) => (unfold node? depth values).map .map
    | some (.struct fields) =>
      (fields.mapM fun f => (unfold node? depth f.type).map f.withType).map .struct

/-- A step from a type to one of its parts. -/
inductive Branch
  | items
  | values
  /-- The type of the field at an index. -/
  | field (index : Nat)
deriving DecidableEq, Repr

/-- The part of a type behind a branch. -/
def TypeNode.part? {τ : Type} : TypeNode τ → Branch → Option τ
  | .array items, .items => some items
  | .map values, .values => some values
  | .struct fields, .field index => fields[index]?.map (·.type)
  | _, _ => none

/-- The part of a type at `path`. -/
def partAt? {τ : Type} (node? : τ → Option (TypeNode τ)) : (path : List Branch) → τ → Option τ
  | [], type => some type
  | branch :: path, type =>
    (node? type).bind fun node => (node.part? branch).bind (partAt? node? path)

/-! ### Related types -/

section Relation

variable {τ υ : Type} {R : τ → υ → Prop}

/-- That `f` and `g` differ in nothing but their types, which are related by `R`. -/
def Field.Rel (R : τ → υ → Prop) (f : Field τ) (g : Field υ) : Prop :=
  ∃ type, g = f.withType type ∧ R f.type type

/-- That two constructors are the same and their parts are related by `R`. -/
inductive TypeNode.Rel (R : τ → υ → Prop) : TypeNode τ → TypeNode υ → Prop
  | scalar (kind : Scalar) : Rel R (.scalar kind) (.scalar kind)
  | enum (values : List String) : Rel R (.enum values) (.enum values)
  | array {items items'} (h : R items items') : Rel R (.array items) (.array items')
  | map {values values'} (h : R values values') : Rel R (.map values) (.map values')
  | struct {fields fields'} (h : List.Forall₂ (Field.Rel R) fields fields') :
    Rel R (.struct fields) (.struct fields')

theorem TypeNode.Rel.imp {S : τ → υ → Prop} {n : TypeNode τ} {m : TypeNode υ}
    (hRS : ∀ t u, R t u → S t u) (h : TypeNode.Rel R n m) : TypeNode.Rel S n m := by
  cases h with
  | scalar kind => exact .scalar kind
  | enum values => exact .enum values
  | array hitems => exact .array (hRS _ _ hitems)
  | map hvalues => exact .map (hRS _ _ hvalues)
  | struct hfields => exact .struct (hfields.imp fun _ _ ⟨type, hg, hf⟩ => ⟨type, hg, hRS _ _ hf⟩)

/-- That types related by `R` have the same outermost constructors, with related parts. -/
def Simulates (node? : τ → Option (TypeNode τ)) (node?' : υ → Option (TypeNode υ))
    (R : τ → υ → Prop) : Prop :=
  ∀ t u, R t u → ∃ n m, node? t = some n ∧ node?' u = some m ∧ TypeNode.Rel R n m

variable {node? : τ → Option (TypeNode τ)} {node?' : υ → Option (TypeNode υ)}

/-- Fields that unfold alike one by one unfold alike. -/
private theorem mapM_unfold_of_forall₂ {depth : Nat} {fields : List (Field τ)}
    {fields' : List (Field υ)}
    (h : List.Forall₂ (Field.Rel fun t u => ∃ tree, TypeTree.unfold node? depth t = some tree ∧
      TypeTree.unfold node?' depth u = some tree) fields fields') :
    ∃ trees,
      (fields.mapM fun f => (TypeTree.unfold node? depth f.type).map f.withType) = some trees ∧
      (fields'.mapM fun f => (TypeTree.unfold node?' depth f.type).map f.withType) =
        some trees := by
  induction h with
  | nil => exact ⟨[], rfl, rfl⟩
  | @cons f g fields fields' hfield _ ih =>
    obtain ⟨type, rfl, tree, hleft, hright⟩ := hfield
    obtain ⟨trees, hlefts, hrights⟩ := ih
    refine ⟨f.withType tree :: trees, ?_, ?_⟩
    · simp [List.mapM_cons, hleft, hlefts]
    · simp [List.mapM_cons, hright, hrights, Field.withType]

/-- Types `t` and `u` that are related unfold to the same tree, to every depth. -/
theorem TypeTree.exists_unfold (h : Simulates node? node?' R) (depth : Nat) {t : τ} {u : υ}
    (htu : R t u) :
    ∃ tree, unfold node? depth t = some tree ∧ unfold node?' depth u = some tree := by
  -- By induction on the depth: the trees of the parts are one level less deep.
  induction depth generalizing t u with
  | zero => exact ⟨.cut, rfl, rfl⟩
  | succ depth ih =>
    obtain ⟨n, m, hn, hm, hnm⟩ := h t u htu
    rw [unfold, unfold, hn, hm]
    cases hnm with
    | scalar kind => exact ⟨.scalar kind, rfl, rfl⟩
    | enum values => exact ⟨.enum values, rfl, rfl⟩
    | array hitems =>
      obtain ⟨tree, hleft, hright⟩ := ih hitems
      exact ⟨.array tree, by simp [hleft], by simp [hright]⟩
    | map hvalues =>
      obtain ⟨tree, hleft, hright⟩ := ih hvalues
      exact ⟨.map tree, by simp [hleft], by simp [hright]⟩
    | struct hfields =>
      obtain ⟨trees, hleft, hright⟩ := mapM_unfold_of_forall₂ (hfields.imp
        fun f g ⟨type, hg, hf⟩ => ⟨type, hg, ih hf⟩)
      exact ⟨.struct trees, by simp [hleft], by simp [hright]⟩

/-- Related constructors have related parts behind the same branches. -/
private theorem TypeNode.Rel.part? {n : TypeNode τ} {m : TypeNode υ} (h : TypeNode.Rel R n m)
    (branch : Branch) : Option.Rel R (n.part? branch) (m.part? branch) := by
  cases h with
  | scalar kind => exact .none
  | enum values => exact .none
  | array hitems =>
    cases branch with
    | items => exact .some hitems
    | _ => exact .none
  | map hvalues =>
    cases branch with
    | values => exact .some hvalues
    | _ => exact .none
  | @struct fields fields' hfields =>
    cases branch with
    | field index =>
      induction hfields generalizing index with
      | nil => exact .none
      | cons hfield _ ih =>
        obtain ⟨type, rfl, htype⟩ := hfield
        cases index with
        | zero => exact .some htype
        | succ index => exact ih index
    | _ => exact .none

/-- What is related to `t` is something. -/
theorem exists_of_rel_some {t : τ} {u? : Option υ} (h : Option.Rel R (some t) u?) :
    ∃ u, u? = some u ∧ R t u := by
  cases h with
  | some h => exact ⟨_, rfl, h⟩

/-- Related values that are mapped to related values stay related. -/
private theorem rel_bind {α β : Type} {S : α → β → Prop} {t? : Option τ} {u? : Option υ}
    {f : τ → Option α} {g : υ → Option β} (h : Option.Rel R t? u?)
    (hfg : ∀ t u, R t u → Option.Rel S (f t) (g u)) : Option.Rel S (t?.bind f) (u?.bind g) := by
  cases h with
  | none => exact .none
  | some h => exact hfg _ _ h

/-- Types `t` and `u` that are related have related parts at the same paths. -/
theorem partAt?_rel (h : Simulates node? node?' R) (path : List Branch) {t : τ} {u : υ}
    (htu : R t u) : Option.Rel R (partAt? node? path t) (partAt? node?' path u) := by
  induction path generalizing t u with
  | nil => exact .some htu
  | cons branch path ih =>
    obtain ⟨n, m, hn, hm, hnm⟩ := h t u htu
    rw [partAt?, partAt?, hn, hm, Option.bind_some, Option.bind_some]
    exact rel_bind (hnm.part? branch) fun _ _ hparts => ih hparts

end Relation

/-! ### The constructors of types and shapes -/

section Names

variable {τ : Type} (view : τ → TypeNode τ ⊕ String) (meaning? : String → Option τ)

/-- The outermost constructor of a type, with up to `count` names in front of it replaced by what
they mean, if a type is seen as either a constructor or a name. -/
def nodeWithin? : (count : Nat) → τ → Option (TypeNode τ)
  | 0, type => (view type).getLeft?
  | count + 1, type =>
    match view type with
    | .inl node => some node
    | .inr name => (meaning? name).bind (nodeWithin? count)

variable {view meaning?} {type : τ} {node : TypeNode τ}

theorem nodeWithin?_of_node (h : view type = .inl node) (count : Nat) :
    nodeWithin? view meaning? count type = some node := by
  cases count <;> rw [nodeWithin?, h]
  rfl

theorem nodeWithin?_of_name {name : String} {target : τ} (h : view type = .inr name)
    (ht : meaning? name = some target) (count : Nat) :
    nodeWithin? view meaning? (count + 1) type = nodeWithin? view meaning? count target := by
  rw [nodeWithin?, h]
  dsimp only
  rw [ht, Option.bind_some]

/-- A constructor that is found behind `count` names is found when more may be replaced. -/
theorem nodeWithin?_mono {count count' : Nat} (hle : count ≤ count')
    (h : nodeWithin? view meaning? count type = some node) :
    nodeWithin? view meaning? count' type = some node := by
  -- By induction on the names that may be replaced, for all types: a name becomes another type.
  induction count generalizing count' type with
  | zero =>
    cases hview : view type with
    | inl n => rwa [nodeWithin?_of_node hview] at h ⊢
    | inr name =>
      rw [nodeWithin?, hview] at h
      cases h
  | succ count ih =>
    obtain ⟨count', rfl⟩ : ∃ m, count' = m + 1 := ⟨count' - 1, by omega⟩
    cases hview : view type with
    | inl n => rwa [nodeWithin?_of_node hview] at h ⊢
    | inr name =>
      rw [nodeWithin?, hview] at h ⊢
      obtain ⟨target, htarget, hnode⟩ := Option.bind_eq_some_iff.mp h
      exact Option.bind_eq_some_iff.mpr ⟨target, htarget, ih (by omega) hnode⟩

end Names

/-- A type as a constructor or a reference. -/
def TypeExpr.view : TypeExpr → TypeNode TypeExpr ⊕ String
  | .scalar kind => .inl (.scalar kind)
  | .enum values => .inl (.enum values)
  | .array items => .inl (.array items)
  | .map values => .inl (.map values)
  | .struct s => .inl (.struct s.fields)
  | .reference name => .inr name

/-- A shape as a constructor or a name. -/
def Shape.view : Shape → TypeNode Shape ⊕ String
  | .scalar kind => .inl (.scalar kind)
  | .enum values => .inl (.enum values)
  | .array items => .inl (.array items)
  | .map values => .inl (.map values)
  | .struct fields => .inl (.struct fields)
  | .named name => .inr name

/-- The shape of a body. -/
def Body.shape : Body → Shape
  | .struct fields => .struct fields
  | .enum values => .enum values
  | .synonym shape => shape

/-- The type that a reference to `name` means. -/
def Kind.meaning? (k : Kind) (name : String) : Option TypeExpr :=
  (k.definition? name).map (·.type)

/-- The shape that `name` means. -/
def ResolvedKind.meaning? (r : ResolvedKind) (name : String) : Option Shape :=
  (r.declaration? name).map (·.body.shape)

/-- The outermost constructor of a type of `k`, with references replaced by the types of the
definitions they mean. There is none if they lead nowhere or in circles. -/
def Kind.node? (k : Kind) : TypeExpr → Option (TypeNode TypeExpr) :=
  nodeWithin? TypeExpr.view k.meaning? (Resolution.definitionsOf k).length

/-- The outermost constructor of a shape of `r`, with names replaced by the bodies of their
declarations. There is none if they lead nowhere or in circles. -/
def ResolvedKind.node? (r : ResolvedKind) : Shape → Option (TypeNode Shape) :=
  nodeWithin? Shape.view r.meaning? r.declarations.length

end KindSchema
