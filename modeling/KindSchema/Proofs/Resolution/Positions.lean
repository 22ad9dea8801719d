import KindSchema.Proofs.Resolution.DeclaredNames

/-!
# Where lifted structs stand

A name that a resolved kind declares can be followed back to the sections: through the bodies that
mention it to a position at which it stands. A definition that is declared as another name stands
at none for that name, but has its constructor, and so the parts behind it have their positions.

* `ResolvedKind.exists_partAt?_of_mem`: what a shape mentions stands at a path in the shape.
* `exists_stands`: so whatever is declared can be found from a position, by induction along the walk
  that records the declarations.
* `Kind.Corresponds.liftedAs_iff`, `Kind.Corresponds.exists_lifted`: hence a resolution has lifted
  just those structs that stand at a position where the resolved kind has a name, and each
  declaration of a struct that was lifted is one of theirs.
-/

namespace KindSchema

open Resolution

/-! ### Paths to names -/

section Paths

variable {τ υ : Type} {node? : τ → Option (TypeNode τ)}

/-- What something is related to is something. -/
private theorem exists_of_some_rel {R : τ → υ → Prop} {t? : Option τ} {u : υ}
    (h : Option.Rel R t? (some u)) : ∃ t, t? = some t ∧ R t u := by
  cases h with
  | some h => exact ⟨_, rfl, h⟩

/-- The part at a path that continues another is in the part there. -/
private theorem partAt?_append (path path' : List Branch) (type : τ) :
    partAt? node? (path ++ path') type = (partAt? node? path type).bind (partAt? node? path') := by
  induction path generalizing type with
  | nil => rfl
  | cons branch path ih =>
    simp only [List.cons_append, partAt?, Option.bind_assoc, ih]

/-- Types with the same constructor have the same parts, except themselves. -/
private theorem partAt?_cons_congr {type type' : τ} (h : node? type = node? type') (branch : Branch)
    (path : List Branch) :
    partAt? node? (branch :: path) type = partAt? node? (branch :: path) type' := by
  rw [partAt?, partAt?, h]

end Paths

namespace ResolvedKind

variable {r : ResolvedKind}

/-- A shape that is seen as a constructor has that constructor. -/
private theorem node?_of_view {shape : Shape} {node : TypeNode Shape} (h : shape.view = .inl node) :
    r.node? shape = some node :=
  nodeWithin?_of_node h _

mutual

/-- The name `name` that a shape mentions stands at a path in it. -/
theorem exists_partAt?_of_mem (r : ResolvedKind) {name : String} : ∀ shape : Shape,
    name ∈ shape.names → ∃ path, partAt? r.node? path shape = some (.named name)
  | .array items, h => by
    obtain ⟨path, hpath⟩ := exists_partAt?_of_mem r items h
    exact ⟨.items :: path, by rw [partAt?, node?_of_view rfl]; exact hpath⟩
  | .map values, h => by
    obtain ⟨path, hpath⟩ := exists_partAt?_of_mem r values h
    exact ⟨.values :: path, by rw [partAt?, node?_of_view rfl]; exact hpath⟩
  | .struct fields, h => by
    obtain ⟨index, type, hindex, path, hpath⟩ := exists_field_of_mem r fields h
    refine ⟨.field index :: path, ?_⟩
    rw [partAt?, node?_of_view rfl, Option.bind_some, TypeNode.part?, hindex]
    exact hpath
  | .named other, h => ⟨[], by rw [partAt?, List.mem_singleton.mp h]⟩

theorem exists_field_of_mem (r : ResolvedKind) {name : String} : ∀ fields : List (Field Shape),
    name ∈ Shape.fieldNames fields → ∃ (index : Nat) (type : Shape),
      fields[index]?.map (·.type) = some type ∧
        ∃ path, partAt? r.node? path type = some (.named name)
  | ⟨_, type, _, _⟩ :: fields, h => by
    rcases List.mem_append.mp h with h | h
    · exact ⟨0, type, rfl, exists_partAt?_of_mem r type h⟩
    · obtain ⟨index, other, hindex, hpath⟩ := exists_field_of_mem r fields h
      exact ⟨index + 1, other, hindex, hpath⟩

end

end ResolvedKind

/-! ### Names that stand somewhere -/

section Stands

variable {policy : Policy} {k : Kind} {r : ResolvedKind} {names : Names}

/-- The shape of a body mentions what the body does. -/
private theorem Body.names_shape (body : Body) : body.shape.names = body.names := by
  cases body <;> rfl

namespace Resolution.BodyResolves

variable {d : Definition} {body : Body}

/-- A body that stands for the type of a definition is a shape that does. -/
private theorem shape (h : BodyResolves r names d body) : Resolves r names d.type body.shape := by
  cases h with
  | struct type resolve => exact type ▸ .struct resolve
  | enum type => exact type ▸ .enum _
  | synonym _ _ resolves => exact resolves

/-- A definition is declared as another name only if it refers to that. -/
private theorem eq_reference (h : BodyResolves r names d body) {name : String}
    (hname : body.shape = .named name) : d.type = .reference name := by
  cases h with
  | struct _ _ => cases hname
  | enum _ => cases hname
  | synonym noStruct noEnum resolves =>
    rcases resolves.view noStruct noEnum with ⟨_, m, -, hm, -⟩ | ⟨other, -, htype, hother⟩
    · rw [Body.shape] at hname
      rw [hname] at hm
      cases hm
    · rw [Body.shape, hother, Shape.named.injEq] at hname
      rw [htype, hname]

end Resolution.BodyResolves

/-- A name that stands for a type has the constructor of the shape that it means. -/
private theorem ResolvedKind.node?_named {name : String} {shape : Shape} {node : TypeNode Shape}
    (hnode : r.node? (.named name) = some node) (hshape : r.meaning? name = some shape) :
    r.node? (.named name) = r.node? shape := by
  obtain ⟨d, hd, -⟩ := Option.map_eq_some_iff.mp hshape
  have hcount : r.declarations.length = r.declarations.length - 1 + 1 :=
    (Nat.succ_pred_eq_of_pos
      (List.length_pos_of_mem (ResolvedKind.declaration?_eq_some hd).1)).symm
  have hnamed : Shape.view (.named name) = .inr name := rfl
  have hbehind := hnode
  rw [ResolvedKind.node?, hcount, nodeWithin?_of_name hnamed hshape] at hbehind
  rw [hnode]
  exact (nodeWithin?_mono (Nat.sub_le _ 1) hbehind).symm

/-- That `name` stands for `type`, and that its constructor is found at `position`: under the name
itself, or under that of a definition which is another name for it. -/
structure StandsAt (r : ResolvedKind) (names : Names) (name : String) (type : TypeExpr)
    (position : List Branch) (shape : Shape) : Prop where
  resolves : Resolves r names type (.named name)
  found : r.shapeAt? position = some shape
  node : r.node? shape = r.node? (.named name)
  named : shape = .named name ∨ type = .reference name

/-- That `name` stands somewhere. -/
def Stands (r : ResolvedKind) (names : Names) (name : String) : Prop :=
  ∃ type position shape, StandsAt r names name type position shape

variable (h : k.Corresponds r names)
include h

/-- The declaration of a name that stands for a type has a body that stands for a type. If the body
is another name, that stands for a reference. -/
private theorem exists_resolves_body {name : String} {type : TypeExpr}
    (hname : Resolves r names type (.named name)) : ∃ d, r.declaration? name = some d ∧
      ∃ target, Resolves r names target d.body.shape ∧
        ∀ other, d.body.shape = .named other → target = .reference other := by
  cases hname with
  | @liftedEnum values d found body _ =>
    refine ⟨d, found, .enum values, ?_, ?_⟩
    · rw [body]; exact .enum values
    · rw [body]; exact nofun
  | @liftedStruct s _ lifted =>
    obtain ⟨path, fields, hdeclared⟩ := h.structs s name lifted
    exact ⟨_, hdeclared.found, .struct s, .struct hdeclared.resolve, nofun⟩
  | reference defined =>
    obtain ⟨d, body, hdeclared⟩ := h.exists_definition defined
    exact ⟨_, hdeclared.found, d.type, hdeclared.resolves.shape,
      fun _ hother => hdeclared.resolves.eq_reference hother⟩

variable (hsound : names.Sound (contextOf policy k) [] (r.declarations.map (·.name)))
include hsound

/-- What is mentioned in a body stands somewhere if the name of the declaration does. -/
private theorem Stands.within {inner outer : String} (houter : Stands r names outer)
    (hinner : r.Within inner outer) : Stands r names inner := by
  obtain ⟨type, position, shape, hstands⟩ := houter
  obtain ⟨d, hd, target, htarget, hreference⟩ := exists_resolves_body h hstands.resolves
  have hsimulates := h.simulates rfl hsound
  obtain ⟨-, m, -, hm, -⟩ := hsimulates _ _ hstands.resolves
  have hnode : r.node? shape = r.node? d.body.shape := by
    rw [hstands.node]
    exact ResolvedKind.node?_named hm (by rw [ResolvedKind.meaning?, hd, Option.map_some])
  rw [ResolvedKind.within_iff hd, ← Body.names_shape] at hinner
  obtain ⟨path, hpath⟩ := r.exists_partAt?_of_mem d.body.shape hinner
  cases path with
  | nil =>
    -- The declaration is another name, so both names have the same constructor.
    obtain hother : d.body.shape = .named inner := Option.some.inj hpath
    rw [hother] at htarget hnode
    exact ⟨target, position, shape, htarget, hstands.found, hnode, .inr (hreference inner hother)⟩
  | cons branch path =>
    -- Behind a branch nothing but the constructor matters, and that is found at the position.
    have hrel := partAt?_rel hsimulates (branch :: path) htarget
    rw [hpath] at hrel
    obtain ⟨part, -, hpart⟩ := exists_of_some_rel hrel
    refine ⟨part, position ++ branch :: path, .named inner, hpart, ?_, rfl, .inl rfl⟩
    rw [ResolvedKind.shapeAt?, partAt?_append, ← ResolvedKind.shapeAt?, hstands.found,
      Option.bind_some, partAt?_cons_congr hnode, hpath]

/-- A resolved kind has at each position what the type there has been resolved to. -/
private theorem Kind.Corresponds.rel_at (position : List Branch) :
    Option.Rel (Resolves r names) (k.typeAt? position) (r.shapeAt? position) :=
  partAt?_rel (h.simulates rfl hsound) position (.struct h.sections)

/-- Every declared name `name` stands somewhere. -/
theorem exists_stands (hresolve : k.resolve policy = .ok r) {name : String} {d : Declaration}
    (hd : r.declaration? name = some d) : Stands r names name := by
  have hname : name ∈ r.mentionOrder := by
    obtain ⟨hmem, rfl⟩ := ResolvedKind.declaration?_eq_some hd
    exact Kind.resolve_mentionOrder hresolve ▸ List.mem_map_of_mem hmem
  refine ResolvedKind.walk_induction (fun _ houter _ hinner => houter.within h hsound hinner)
    (fun name hname => absurd hname List.not_mem_nil) (fun name hname => ?_) name hname
  obtain ⟨path, hpath⟩ := r.exists_partAt?_of_mem (.struct r.envelope) hname
  have hshape : r.shapeAt? path = some (.named name) := hpath
  have hrel := h.rel_at hsound path
  rw [hshape] at hrel
  obtain ⟨part, -, hpart⟩ := exists_of_some_rel hrel
  exact ⟨part, path, .named name, hpart, hshape, rfl, .inl rfl⟩

end Stands

/-! ### Structs that are lifted -/

/-- That `s`, the struct at a position of `k`, has been lifted under `name`. -/
def Kind.LiftedAs (k : Kind) (r : ResolvedKind) (s : StructType) (name : String) : Prop :=
  ∃ position, k.typeAt? position = some (.struct s) ∧ r.shapeAt? position = some (.named name)

namespace Kind.Corresponds

variable {policy : Policy} {k : Kind} {r : ResolvedKind} {names : Names} {s : StructType}
  {name : String} (h : k.Corresponds r names)
  (hsound : names.Sound (contextOf policy k) [] (r.declarations.map (·.name)))
include h hsound

/-- The name of a struct that has been lifted stands for nothing else. -/
private theorem eq_struct (hs : (s, name) ∈ names.lifted) {type : TypeExpr}
    (htype : Resolves r names type (.named name)) : type = .struct s := by
  obtain ⟨path, fields, hdeclared⟩ := h.structs s name hs
  cases htype with
  | liftedEnum found body _ =>
    rw [hdeclared.found, Option.some.injEq] at found
    rw [← found] at body
    cases body
  | liftedStruct lifted => rw [(hsound.name_eq_iff hs lifted).mp rfl]
  | reference defined =>
    obtain ⟨d, body, hdefinition⟩ := h.exists_definition defined
    exact absurd ⟨_, hdefinition.found, rfl⟩ (h.isLifted s name hs).not_isDefined

/-- The struct `s` has been lifted under `name` if and only if it is the one that `name` stands for
at a position. -/
theorem liftedAs_iff (hresolve : k.resolve policy = .ok r) :
    k.LiftedAs r s name ↔ (s, name) ∈ names.lifted := by
  constructor
  · rintro ⟨position, htype, hshape⟩
    have hrel := h.rel_at hsound position
    rw [htype, hshape, Option.rel_some_some] at hrel
    exact hrel.mem_lifted
  · intro hs
    obtain ⟨d, hd, -⟩ := h.isLifted s name hs
    obtain ⟨type, position, shape, hstands⟩ := exists_stands h hsound hresolve hd
    have hshape : shape = .named name := by
      refine hstands.named.resolve_right fun hreference => ?_
      exact nomatch hreference.symm.trans (h.eq_struct hsound hs hstands.resolves)
    have hfound := hshape ▸ hstands.found
    have hrel := h.rel_at hsound position
    rw [hfound] at hrel
    obtain ⟨part, hpart, hresolves⟩ := exists_of_some_rel hrel
    exact ⟨position, h.eq_struct hsound hs hresolves ▸ hpart, hfound⟩

/-- The declaration `d`, if it has been lifted and is a struct, stands for one that has been
lifted. -/
theorem exists_lifted (hresolve : k.resolve policy = .ok r) {d : Declaration}
    (hd : r.declaration? name = some d) {path : List String} (horigin : d.origin = .lifted path)
    {fields : List (Field Shape)} (hbody : d.body = .struct fields) :
    ∃ s, (s, name) ∈ names.lifted := by
  obtain ⟨type, position, shape, hresolves, -⟩ := exists_stands h hsound hresolve hd
  cases hresolves with
  | liftedEnum found body _ =>
    rw [hd, Option.some.injEq] at found
    rw [← found, hbody] at body
    cases body
  | @liftedStruct s _ lifted => exact ⟨s, lifted⟩
  | reference defined =>
    obtain ⟨e, body, hdefinition⟩ := h.exists_definition defined
    have hlifted : r.IsLifted name := ⟨d, hd, path, horigin⟩
    exact absurd ⟨_, hdefinition.found, rfl⟩ hlifted.not_isDefined

end Kind.Corresponds

end KindSchema
