import KindSchema.Output.Arrangement
import KindSchema.Proofs.Resolution.Cycles

/-!
# Reachable declarations

`ResolvedKind.Reaches` says which names some shapes depend on: those that they mention, and all
names within the declarations of these. It does not mention a search.

* `mem_gather`: a search inside a finite domain finds what can be reached inside the domain.
* `ResolvedKind.mem_reachable`: the reachable declarations are those whose names are reached.
* `Kind.resolve_isClosed`: whatever a resolved kind mentions has a declaration, so nothing is
  reached that has none.
* `ResolvedKind.reaches_arrange`: the order of members makes no difference.
-/

namespace KindSchema

/-! ### The search -/

/-- The nodes of `domain` that can be reached from `seeds` along edges, which `next` gives, inside
the domain. -/
inductive Gathered {α : Type} (next : α → List α) (domain seeds : List α) : α → Prop
  | seed {a} (seed : a ∈ seeds) (inside : a ∈ domain) : Gathered next domain seeds a
  | step {a b} (before : Gathered next domain seeds a) (edge : b ∈ next a) (inside : b ∈ domain) :
    Gathered next domain seeds b

section Gather

variable {α : Type} {next : α → List α} {domain seeds : List α} {a b : α}

namespace Gathered

/-- Without a seed in the domain nothing is reached. -/
private theorem exists_seed (h : Gathered next domain seeds a) : ∃ b ∈ seeds, b ∈ domain := by
  induction h with
  | seed seed inside => exact ⟨_, seed, inside⟩
  | step _ _ _ ih => exact ih

variable [DecidableEq α]

/-- What is reached after a seed has been taken from the domain was reached before. -/
private theorem of_erase (hseed : b ∈ seeds) (hinside : b ∈ domain)
    (h : Gathered next (domain.erase b) (next b ++ seeds) a) : Gathered next domain seeds a := by
  induction h with
  | seed seed inside =>
    rcases List.mem_append.mp seed with hedge | hseed'
    · exact .step (.seed hseed hinside) hedge (List.mem_of_mem_erase inside)
    · exact .seed hseed' (List.mem_of_mem_erase inside)
  | step _ edge inside ih => exact .step ih edge (List.mem_of_mem_erase inside)

/-- When a seed is taken from the domain and its edges become seeds, all other nodes are still
reached. -/
private theorem erase (h : Gathered next domain seeds a) :
    a = b ∨ Gathered next (domain.erase b) (next b ++ seeds) a := by
  induction h with
  | @seed a seed inside =>
    refine or_iff_not_imp_left.mpr fun hne => ?_
    exact .seed (List.mem_append_right _ seed) ((List.mem_erase_of_ne hne).mpr inside)
  | @step a c before edge inside ih =>
    refine or_iff_not_imp_left.mpr fun hne => ?_
    have hinside : c ∈ domain.erase b := (List.mem_erase_of_ne hne).mpr inside
    rcases ih with rfl | ih
    · exact .seed (List.mem_append_left _ edge) hinside
    · exact .step ih edge hinside

end Gathered

/-- A search finds exactly what can be reached inside its domain. -/
theorem mem_gather [DecidableEq α] : a ∈ gather next domain seeds ↔
    Gathered next domain seeds a := by
  fun_induction gather next domain seeds with
  -- No seed is inside the domain, so nothing can be reached in it.
  | case1 domain seeds hnone =>
    have hno := List.find?_eq_none.mp hnone
    refine ⟨fun h => absurd h List.not_mem_nil, fun h => ?_⟩
    obtain ⟨b, hseed, hinside⟩ := h.exists_seed
    exact absurd (List.contains_iff_mem.mpr hinside) (hno b hseed)
  | case2 domain seeds selected hfound ih =>
    have hseed := List.mem_of_find?_eq_some hfound
    have hinside := List.contains_iff_mem.mp (List.find?_some hfound)
    rw [List.mem_cons, ih]
    -- The seed is taken out of the domain, and what it leads to joins the seeds.
    constructor
    · rintro (rfl | h)
      · exact .seed hseed hinside
      · exact h.of_erase hseed hinside
    · exact fun h => h.erase

end Gather

/-! ### What shapes depend on -/

namespace ResolvedKind

variable {k : ResolvedKind} {roots : List Shape} {name inner outer : String} {d : Declaration}

/-- That `roots` mention `name`, directly or through declarations. -/
def Reaches (k : ResolvedKind) (roots : List Shape) (name : String) : Prop :=
  ∃ root ∈ roots.flatMap Shape.names, Relation.ReflTransGen k.Within name root

/-- What `roots` mention is reached from them. -/
theorem Reaches.of_mem (h : name ∈ roots.flatMap Shape.names) : k.Reaches roots name :=
  ⟨name, h, .refl⟩

/-- What is within `outer` is reached if `outer` is. -/
theorem Reaches.within (h : k.Reaches roots outer) (hinner : k.Within inner outer) :
    k.Reaches roots inner := by
  obtain ⟨root, hroot, houter⟩ := h
  exact ⟨root, hroot, houter.head hinner⟩

/-- A property `P` of what `roots` mention that passes from a declaration to what is within it is
one of all that is reached. -/
theorem Reaches.induction {P : String → Prop} (h : k.Reaches roots name)
    (hroots : ∀ name ∈ roots.flatMap Shape.names, P name)
    (hwithin : ∀ outer, P outer → ∀ inner, k.Within inner outer → P inner) : P name := by
  obtain ⟨root, hroot, hname⟩ := h
  induction hname using Relation.ReflTransGen.head_induction_on with
  | refl => exact hroots root hroot
  | head hinner _ ih => exact hwithin _ ih _ hinner

/-- Shapes depend on what one of them depends on. -/
theorem reaches_iff_exists : k.Reaches roots name ↔ ∃ root ∈ roots, k.Reaches [root] name := by
  constructor
  · rintro ⟨start, hstart, hname⟩
    obtain ⟨root, hroot, hmem⟩ := List.mem_flatMap.mp hstart
    exact ⟨root, hroot, start, by simpa using hmem, hname⟩
  · rintro ⟨root, hroot, start, hstart, hname⟩
    have hmem : start ∈ root.names := by simpa using hstart
    exact ⟨start, List.mem_flatMap.mpr ⟨root, hroot, hmem⟩, hname⟩

/-- The kinds `k` and `k'`, if their declarations mention the same names, reach the same from the
same names. -/
theorem reaches_congr {k' : ResolvedKind} {roots' : List Shape}
    (hwithin : ∀ inner outer, k.Within inner outer ↔ k'.Within inner outer)
    (hroots : ∀ name, name ∈ roots.flatMap Shape.names ↔ name ∈ roots'.flatMap Shape.names) :
    k.Reaches roots name ↔ k'.Reaches roots' name := by
  have heq : k.Within = k'.Within := by
    funext inner outer
    exact propext (hwithin inner outer)
  unfold Reaches
  rw [heq]
  exact exists_congr fun root => and_congr_left fun _ => hroots root

/-- What a search through the declarations finds is reached. -/
theorem reaches_of_gathered {domain : List String}
    (h : Gathered k.mentions domain (roots.flatMap Shape.names) name) : k.Reaches roots name := by
  induction h with
  | seed seed _ => exact .of_mem seed
  | step _ edge _ ih => exact ih.within edge

/-- A search through the declarations finds `d`, if it is reached. -/
theorem gathered_of_reaches (hd : d ∈ k.declarations) (h : k.Reaches roots d.name) :
    Gathered k.mentions (k.declarations.map (·.name)) (roots.flatMap Shape.names) d.name := by
  obtain ⟨root, hroot, hpath⟩ := h
  -- Whatever mentions a name is declared, so that the path never leaves the domain of the search.
  have hdomain : ∀ {inner}, Relation.ReflTransGen k.Within inner root →
      inner ∈ k.declarations.map (·.name) →
      Gathered k.mentions (k.declarations.map (·.name)) (roots.flatMap Shape.names) inner := by
    intro inner hpath
    induction hpath using Relation.ReflTransGen.head_induction_on with
    | refl => exact fun hdeclared => .seed hroot hdeclared
    | head hinner _ ih =>
      intro hdeclared
      obtain ⟨e, he, -⟩ := mem_mentions.mp hinner
      obtain ⟨hmem, rfl⟩ := declaration?_eq_some he
      exact .step (ih (List.mem_map_of_mem hmem)) hinner hdeclared
  exact hdomain hpath (List.mem_map_of_mem hd)

/-- A declaration is reachable if its name is reached. -/
theorem mem_reachable :
    d ∈ k.reachable roots ↔ d ∈ k.declarations ∧ k.Reaches roots d.name := by
  rw [reachable, List.mem_filter, List.contains_iff_mem, mem_gather]
  exact and_congr_right fun hd => ⟨reaches_of_gathered, gathered_of_reaches hd⟩

/-- What `roots` reach has different names if all declarations have. -/
theorem nodup_reachable (hnodup : (k.declarations.map (·.name)).Nodup) :
    ((k.reachable roots).map (·.name)).Nodup :=
  hnodup.sublist ((List.filter_sublist).map _)

/-! ### Closed kinds -/

/-- The names that the sections mention. -/
theorem flatMap_names_envelope :
    (k.envelope.map (·.type)).flatMap Shape.names = Shape.fieldNames k.envelope := by
  rw [List.flatMap_map, Shape.fieldNames_eq_flatMap]

/-- That every name that is mentioned in a section or in a declaration of `k` is declared. -/
structure IsClosed (k : ResolvedKind) : Prop where
  sections : ∀ name ∈ Shape.fieldNames k.envelope, name ∈ k.declarations.map (·.name)
  bodies : ∀ d ∈ k.declarations, ∀ name ∈ d.body.names, name ∈ k.declarations.map (·.name)

namespace IsClosed

/-- What is within a declaration is declared. -/
private theorem within (h : k.IsClosed) (hinner : k.Within inner outer) :
    inner ∈ k.declarations.map (·.name) := by
  obtain ⟨d, hd, hmem⟩ := mem_mentions.mp hinner
  exact h.bodies d (declaration?_eq_some hd).1 inner hmem

/-- What the sections of `k` depend on has a reachable declaration. -/
theorem mem_reachableDeclarations (h : k.IsClosed)
    (hname : k.Reaches (k.envelope.map (·.type)) name) :
    name ∈ k.reachableDeclarations.map (·.name) := by
  have hdeclared : name ∈ k.declarations.map (·.name) := by
    refine hname.induction (fun root hroot => ?_) fun _ _ _ hinner => h.within hinner
    rw [flatMap_names_envelope] at hroot
    exact h.sections root hroot
  obtain ⟨d, hd, rfl⟩ := List.mem_map.mp hdeclared
  exact List.mem_map_of_mem (mem_reachable.mpr ⟨hd, hname⟩)

/-- What the section `f` mentions has a reachable declaration. -/
theorem section_reached (h : k.IsClosed) {f : Field Shape} (hf : f ∈ k.envelope)
    (hname : name ∈ f.type.names) : name ∈ k.reachableDeclarations.map (·.name) := by
  refine h.mem_reachableDeclarations (.of_mem ?_)
  exact List.mem_flatMap.mpr ⟨f.type, List.mem_map_of_mem hf, hname⟩

/-- What `d`, a reachable declaration, mentions has a reachable declaration. -/
theorem body_reached (h : k.IsClosed) (hnodup : (k.declarations.map (·.name)).Nodup)
    (hd : d ∈ k.reachableDeclarations) (hname : name ∈ d.body.names) :
    name ∈ k.reachableDeclarations.map (·.name) := by
  obtain ⟨hmem, hreached⟩ := mem_reachable.mp hd
  have hwithin : k.Within name d.name := (within_iff (declaration?_of_mem hnodup hmem)).mpr hname
  exact h.mem_reachableDeclarations (hreached.within hwithin)

end IsClosed

/-- The reachable declaration `d` is mentioned in a section or in a reachable declaration. -/
theorem mentioned_of_mem_reachableDeclarations (hd : d ∈ k.reachableDeclarations) :
    d.name ∈ Shape.fieldNames k.envelope ++ k.reachableDeclarations.flatMap (·.body.names) := by
  obtain ⟨hmem, root, hroot, hpath⟩ := mem_reachable.mp hd
  rcases hpath.cases_head with hname | ⟨outer, hwithin, houter⟩
  · rw [hname, ← flatMap_names_envelope]
    exact List.mem_append_left _ hroot
  · obtain ⟨e, he, hbody⟩ := mem_mentions.mp hwithin
    obtain ⟨hdeclared, rfl⟩ := declaration?_eq_some he
    refine List.mem_append_right _ (List.mem_flatMap.mpr ⟨e, ?_, hbody⟩)
    exact mem_reachable.mpr ⟨hdeclared, root, hroot, houter⟩

end ResolvedKind

/-- Whatever `r` mentions, it declares, if it is a resolved kind. -/
theorem Kind.resolve_isClosed {policy : Policy} {k : Kind} {r : ResolvedKind}
    (h : k.resolve policy = .ok r) : r.IsClosed := by
  have horder := Kind.resolve_mentionOrder h
  obtain ⟨step, -, -, hdeclarations, -, hdeclared⟩ := Kind.resolve_sound h
  refine ⟨fun name hname => ?_, fun d hd name hname => ?_⟩
  · rw [horder]
    exact ResolvedKind.subset_walk hname
  · have hrecorded : d.name ∈ r.mentionOrder := horder ▸ List.mem_map_of_mem hd
    have hmentions : name ∈ r.mentions d.name :=
      ResolvedKind.mem_mentions.mpr ⟨d, hdeclared d (hdeclarations ▸ hd), hname⟩
    rw [horder]
    exact ResolvedKind.walk_closed hrecorded List.not_mem_nil hmentions

/-- No name is declared twice in `r`, a resolved kind. -/
theorem Kind.resolve_nodup {policy : Policy} {k : Kind} {r : ResolvedKind}
    (h : k.resolve policy = .ok r) : (r.declarations.map (·.name)).Nodup := by
  obtain ⟨step, -, -, hdeclarations, hsound, -⟩ := Kind.resolve_sound h
  rw [hdeclarations]
  exact hsound.names.nodup

/-! ### Arrangement -/

namespace Shape

variable (order : MemberOrder)

/-- The names that `fields` mention do not depend on the order of the fields. -/
theorem fieldNames_sort (fields : List (Field Shape)) :
    (fieldNames (order.sort fields)).Perm (fieldNames fields) := by
  rw [fieldNames_eq_flatMap, fieldNames_eq_flatMap]
  exact (order.sort_perm fields).flatMap_right _

mutual

/-- An arranged shape mentions what the shape does. -/
theorem names_arrange : ∀ s : Shape, (s.arrange order).names.Perm s.names
  | .scalar _ => by rw [arrange]
  | .enum _ => by rw [arrange]
  | .array items => by
    rw [arrange, names, names]
    exact names_arrange items
  | .map values => by
    rw [arrange, names, names]
    exact names_arrange values
  | .struct fields => by
    rw [arrange, names, names]
    exact (fieldNames_sort order _).trans (fieldNames_arrangeTypes fields)
  | .named _ => by rw [arrange]

theorem fieldNames_arrangeTypes :
    ∀ fields : List (Field Shape), (fieldNames (arrangeTypes order fields)).Perm (fieldNames fields)
  | [] => by rw [arrangeTypes]
  | ⟨_, type, _, _⟩ :: fields => by
    rw [arrangeTypes, fieldNames, fieldNames]
    exact (names_arrange type).append (fieldNames_arrangeTypes fields)

end

end Shape

/-- An arranged body mentions what the body does. -/
private theorem Body.names_arrange (order : MemberOrder) (b : Body) :
    (b.arrange order).names.Perm b.names := by
  cases b with
  | struct fields =>
    exact (Shape.fieldNames_sort order _).trans (Shape.fieldNames_arrangeTypes order fields)
  | enum values => exact .refl _
  | synonym shape => exact Shape.names_arrange order shape

/-- The declaration `d` with the members of its structs in `order`. -/
def Declaration.arrange (order : MemberOrder) (d : Declaration) : Declaration :=
  { d with body := d.body.arrange order }

namespace ResolvedKind

variable {k : ResolvedKind} (order : MemberOrder)

theorem arrange_declarations :
    (k.arrange order).declarations = k.declarations.map (·.arrange order) :=
  rfl

theorem arrange_envelope :
    (k.arrange order).envelope = k.envelope.map fun f => f.withType (f.type.arrange order) :=
  rfl

/-- Arranged declarations have the same names. -/
private theorem names_arrange_declarations :
    (k.arrange order).declarations.map (·.name) = k.declarations.map (·.name) := by
  rw [arrange_declarations, List.map_map]
  rfl

/-- Arranged declarations are found by the same names. -/
theorem declaration?_arrange (name : String) :
    (k.arrange order).declaration? name = (k.declaration? name).map (·.arrange order) := by
  rw [declaration?, arrange_declarations, List.find?_map]
  rfl

/-- Arranged declarations mention the same names. -/
theorem within_arrange {inner outer : String} :
    (k.arrange order).Within inner outer ↔ k.Within inner outer := by
  unfold Within mentions
  rw [declaration?_arrange]
  cases k.declaration? outer with
  | none => exact Iff.rfl
  | some d => exact (Body.names_arrange order d.body).mem_iff

/-- Arranged sections mention the same names. -/
private theorem mem_names_arrange_envelope {name : String} :
    name ∈ ((k.arrange order).envelope.map (·.type)).flatMap Shape.names ↔
      name ∈ (k.envelope.map (·.type)).flatMap Shape.names := by
  rw [arrange_envelope, List.map_map, List.flatMap_map, List.flatMap_map, List.mem_flatMap,
    List.mem_flatMap]
  exact exists_congr fun f => and_congr_right fun _ => (Shape.names_arrange order f.type).mem_iff

/-- The arranged sections depend on what the sections do. -/
theorem reaches_arrange {name : String} :
    (k.arrange order).Reaches ((k.arrange order).envelope.map (·.type)) name ↔
      k.Reaches (k.envelope.map (·.type)) name :=
  reaches_congr (fun _ _ => within_arrange order) fun _ => mem_names_arrange_envelope order

private theorem IsClosed.arrange (h : k.IsClosed) : (k.arrange order).IsClosed := by
  refine ⟨fun name hname => ?_, fun d hd name hname => ?_⟩
  · rw [names_arrange_declarations]
    rw [← flatMap_names_envelope, mem_names_arrange_envelope, flatMap_names_envelope] at hname
    exact h.sections name hname
  · rw [names_arrange_declarations]
    rw [arrange_declarations] at hd
    obtain ⟨e, he, rfl⟩ := List.mem_map.mp hd
    exact h.bodies e he name ((Body.names_arrange order e.body).mem_iff.mp hname)

/-! ### Metadata in place -/

variable (mode : MetadataMode)

private theorem expandMetadata_declarations :
    (k.expandMetadata mode).declarations = k.declarations := by
  unfold expandMetadata
  split
  · split <;> rfl
  · rfl

/-- When metadata stands in place, nothing is mentioned that was not mentioned before. -/
private theorem IsClosed.expandMetadata (h : k.IsClosed) : (k.expandMetadata mode).IsClosed := by
  refine ⟨fun name hname => ?_, ?_⟩
  · rw [expandMetadata_declarations]
    unfold ResolvedKind.expandMetadata at hname
    split at hname
    · split at hname
      · next other hmetadata fields hbody =>
        obtain ⟨d, hd, hstruct⟩ := Option.map_eq_some_iff.mp hbody
        rcases List.mem_append.mp hname with hfields | hrest
        · refine h.bodies d (declaration?_eq_some hd).1 name ?_
          rw [hstruct]
          exact hfields
        · exact h.sections name (List.mem_append_right _ hrest)
      · exact h.sections name hname
    · exact h.sections name hname
  · rw [expandMetadata_declarations]
    exact h.bodies

/-! ### The kind as it is rendered -/

variable (params : Params)

theorem IsClosed.presented (h : k.IsClosed) : (k.presented params).IsClosed :=
  (h.expandMetadata params.metadata).arrange params.memberOrder

theorem names_presented_declarations :
    (k.presented params).declarations.map (·.name) = k.declarations.map (·.name) := by
  rw [presented, names_arrange_declarations, expandMetadata_declarations]

theorem presented_declarations :
    (k.presented params).declarations = k.declarations.map (·.arrange params.memberOrder) := by
  rw [presented, arrange_declarations, expandMetadata_declarations]

/-- The declarations that are rendered of `k` are those that the sections depend on, with metadata
in place, each with its members in order. -/
theorem mem_reachableDeclarations_presented {d : Declaration} :
    d ∈ (k.presented params).reachableDeclarations ↔
      d ∈ k.declarations.map (·.arrange params.memberOrder) ∧
        (k.expandMetadata params.metadata).Reaches
          ((k.expandMetadata params.metadata).envelope.map (·.type)) d.name := by
  rw [reachableDeclarations, mem_reachable, presented_declarations]
  exact and_congr_right fun _ => reaches_arrange params.memberOrder

end ResolvedKind

end KindSchema
