import KindSchema.Proofs.Kind.Validation
import KindSchema.Proofs.Resolution.Mentions
import KindSchema.Proofs.Resolution.Positions

/-!
# Shared structs are mentioned twice

A struct without a name annotation and without documentation is lifted, where it may stay inline,
because it has been counted twice. What counts is how often it is written, in all definitions of the
kind, while a resolution follows only those that the sections lead to. Here the two are compared.

Both can be said by what is on top: the outer structs of a type are those of the structs on top in
it. So the count is a sum over sections, definitions and the different structs that were counted,
and what has been followed is a sum over sections, the definitions entered and the structs met.

* `Kind.FollowsOnce.met_or_leftOut`: what has been counted has been met, or is in a definition that
  nothing leads to.
* `Kind.FollowsOnce.count_sightings_le`: hence the count of a struct is at most what has been
  followed of it, together with what those definitions have.
* `two_le_mentionCount`: so a struct that is lifted for nothing but being shared is mentioned twice,
  unless such a definition shares it. A struct with an annotation is counted through at each of its
  places, but followed only once, and the structs in its fields are left out if there are several.
-/

namespace KindSchema

/-! ### Lists -/

/-- Different elements that make up a value, all of which another list has, do not make it up more
often than the other list does. -/
private theorem count_flatMap_le {α β : Type} [DecidableEq β] (f : α → List β) (b : β)
    {l l' : List α} (hnodup : (l.filter fun a => b ∈ f a).Nodup)
    (hmem : ∀ a ∈ l, b ∈ f a → a ∈ l') :
    (l.flatMap f).count b ≤ (l'.flatMap f).count b := by
  -- Only the elements that have `b` count, so the others may be left out of the first list.
  have hskip : ∀ part : List α,
      (part.flatMap f).count b = ((part.filter fun a => b ∈ f a).flatMap f).count b := by
    intro part
    induction part with
    | nil => rfl
    | cons a part ih =>
      rw [List.flatMap_cons, List.count_append, ih, List.filter_cons]
      split
      · rw [List.flatMap_cons, List.count_append]
      · next hnone => rw [List.count_eq_zero.mpr (by simpa using hnone), Nat.zero_add]
  have hsubset : (l.filter fun a => b ∈ f a) ⊆ l' := by
    intro a ha
    obtain ⟨ha, hb⟩ := List.mem_filter.mp ha
    exact hmem a ha (of_decide_eq_true hb)
  obtain ⟨part, hperm, hpart⟩ := hnodup.subperm hsubset
  rw [hskip, ← (hperm.flatMap_right f).count_eq b]
  exact (hpart.flatMap f).count_le b

namespace TypeExpr

/-! ### Structs at any depth -/

mutual

/-- The structs of a type, at any depth, one for each place. -/
def structs : TypeExpr → List StructType
  | .scalar _ => []
  | .enum _ => []
  | .array items => structs items
  | .map values => structs values
  | .struct ⟨label, docs, fields⟩ => ⟨label, docs, fields⟩ :: fieldStructs fields
  | .reference _ => []

/-- The structs in the types of some fields, at any depth. -/
def fieldStructs : List (Field TypeExpr) → List StructType
  | [] => []
  | ⟨_, type, _, _⟩ :: fields => structs type ++ fieldStructs fields

end

/-- The structs in a section or a definition, which is none of them itself. -/
def rootStructs : TypeExpr → List StructType
  | .struct s => fieldStructs s.fields
  | type => structs type

variable {met : List StructType} {s t : StructType} {type : TypeExpr}

mutual

/-- A list that has the structs on top in a type and in each of its structs has all structs of the
type. -/
private theorem structs_subset_of_closed (hclosed : ∀ s ∈ met, fieldTopStructs s.fields ⊆ met) :
    ∀ {type : TypeExpr}, type.topStructs ⊆ met → type.structs ⊆ met
  | .scalar _, _ => List.nil_subset _
  | .enum _, _ => List.nil_subset _
  | .array _, h => by
    rw [structs]
    exact structs_subset_of_closed hclosed h
  | .map _, h => by
    rw [structs]
    exact structs_subset_of_closed hclosed h
  -- The struct itself has been met, and `hclosed` says the same of what is on top in its fields.
  | .struct ⟨_, _, _⟩, h => by
    have hself := h List.mem_cons_self
    rw [structs]
    exact List.cons_subset.mpr ⟨hself, fieldStructs_subset_of_closed hclosed (hclosed _ hself)⟩
  | .reference _, _ => List.nil_subset _

private theorem fieldStructs_subset_of_closed
    (hclosed : ∀ s ∈ met, fieldTopStructs s.fields ⊆ met) :
    ∀ {fields : List (Field TypeExpr)}, fieldTopStructs fields ⊆ met → fieldStructs fields ⊆ met
  | [], _ => List.nil_subset _
  | ⟨_, _, _, _⟩ :: _, h => by
    rw [fieldTopStructs, List.flatMap_cons] at h
    obtain ⟨htype, hfields⟩ := List.append_subset.mp h
    rw [fieldStructs]
    exact List.append_subset.mpr ⟨structs_subset_of_closed hclosed htype,
      fieldStructs_subset_of_closed hclosed hfields⟩

end

private theorem rootStructs_subset_of_closed (hclosed : ∀ s ∈ met, fieldTopStructs s.fields ⊆ met)
    (h : type.rootTopStructs ⊆ met) : type.rootStructs ⊆ met := by
  cases type with
  | struct s => exact fieldStructs_subset_of_closed hclosed h
  | _ => exact structs_subset_of_closed hclosed h

mutual

/-- A walk through a type counts structs of the type. -/
private theorem sightings_subset : ∀ (type : TypeExpr) (seen : List StructType),
    sightings seen type ⊆ seen ++ type.structs
  | .scalar _, _ => List.subset_append_left _ _
  | .enum _, _ => List.subset_append_left _ _
  | .array items, seen => by
    rw [sightings, structs]
    exact sightings_subset items seen
  | .map values, seen => by
    rw [sightings, structs]
    exact sightings_subset values seen
  | .struct ⟨some _, _, fields⟩, seen => by
    rw [sightings, structs]
    refine List.Subset.trans (fieldSightings_subset fields seen) ?_
    exact ((List.sublist_cons_self _ _).append_left seen).subset
  | .struct ⟨none, docs, fields⟩, seen => by
    rw [sightings, structs]
    split
    · next hseen =>
      exact List.cons_subset.mpr ⟨List.mem_append_left _ hseen, List.subset_append_left _ _⟩
    · refine List.Subset.trans (fieldSightings_subset fields _) ?_
      exact List.perm_middle.symm.subset
  | .reference _, _ => List.subset_append_left _ _

private theorem fieldSightings_subset : ∀ (fields : List (Field TypeExpr)) (seen : List StructType),
    fieldSightings seen fields ⊆ seen ++ fieldStructs fields
  | [], _ => List.subset_append_left _ _
  | ⟨_, type, _, _⟩ :: fields, seen => by
    rw [fieldSightings, fieldStructs, ← List.append_assoc]
    refine List.Subset.trans (fieldSightings_subset fields _) (List.append_subset.mpr ⟨?_, ?_⟩)
    · exact List.subset_append_of_subset_left _ (sightings_subset type seen)
    · exact List.subset_append_right _ _

end

private theorem rootSightings_subset (type : TypeExpr) (seen : List StructType) :
    rootSightings seen type ⊆ seen ++ type.rootStructs := by
  cases type with
  | struct s => exact fieldSightings_subset s.fields seen
  | _ => exact sightings_subset _ seen

private theorem definitionSightings_subset (definitions : List Definition)
    (seen : List StructType) :
    definitions.foldl (fun seen d => d.type.rootSightings seen) seen ⊆
      seen ++ definitions.flatMap (·.type.rootStructs) := by
  induction definitions generalizing seen with
  | nil => exact List.subset_append_left _ _
  | cons d definitions ih =>
    rw [List.foldl_cons, List.flatMap_cons, ← List.append_assoc]
    refine List.Subset.trans (ih _) (List.append_subset.mpr ⟨?_, ?_⟩)
    · exact List.subset_append_of_subset_left _ (rootSightings_subset d.type seen)
    · exact List.subset_append_right _ _

/-! ### Outer structs by the structs on top -/

mutual

/-- Outer structs are anonymous. -/
private theorem name_of_mem_outerStructs :
    ∀ {type : TypeExpr}, s ∈ type.outerStructs → s.name = none
  | .array _, h => by
    rw [outerStructs] at h
    exact name_of_mem_outerStructs h
  | .map _, h => by
    rw [outerStructs] at h
    exact name_of_mem_outerStructs h
  | .struct ⟨some _, _, _⟩, h => by
    rw [outerStructs] at h
    exact name_of_mem_fieldOuterStructs h
  | .struct ⟨none, _, _⟩, h => by
    rw [outerStructs] at h
    rw [List.mem_singleton.mp h]

private theorem name_of_mem_fieldOuterStructs : ∀ {fields : List (Field TypeExpr)},
    s ∈ fieldOuterStructs fields → s.name = none
  | ⟨_, _, _, _⟩ :: _, h => by
    rw [fieldOuterStructs] at h
    rcases List.mem_append.mp h with h | h
    · exact name_of_mem_outerStructs h
    · exact name_of_mem_fieldOuterStructs h

end

/-- The outer structs of a type are those of the structs on top. -/
private theorem flatMap_topStructs : ∀ type : TypeExpr,
    type.topStructs.flatMap (fun s => outerStructs (.struct s)) = type.outerStructs
  | .scalar _ => rfl
  | .enum _ => rfl
  | .array items => flatMap_topStructs items
  | .map values => flatMap_topStructs values
  | .struct s => List.flatMap_singleton _ s
  | .reference _ => rfl

private theorem flatMap_fieldTopStructs (fields : List (Field TypeExpr)) :
    (fieldTopStructs fields).flatMap (fun s => outerStructs (.struct s)) =
      fieldOuterStructs fields := by
  induction fields with
  | nil => rfl
  | cons f fields ih =>
    rw [fieldOuterStructs, ← ih, ← flatMap_topStructs f.type, ← List.flatMap_append]
    rfl

private theorem flatMap_rootTopStructs (type : TypeExpr) :
    type.rootTopStructs.flatMap (fun s => outerStructs (.struct s)) = type.rootOuterStructs := by
  cases type with
  | struct s => exact flatMap_fieldTopStructs s.fields
  | _ => exact flatMap_topStructs _

/-- A struct is outer in itself, unless it has a name annotation: then the outer structs of its
fields are. -/
private theorem outerStructs_struct (s : StructType) :
    outerStructs (.struct s) = if s.name = none then [s] else fieldOuterStructs s.fields := by
  obtain ⟨_ | label, docs, fields⟩ := s
  · rw [outerStructs, if_pos rfl]
  · rw [outerStructs, if_neg nofun]

/-- An anonymous struct is outer in some structs as often as it is one of them, or is outer in the
fields of those that have an annotation. -/
private theorem count_flatMap_outerStructs (ht : t.name = none) (structs : List StructType) :
    (structs.flatMap fun s => outerStructs (.struct s)).count t = structs.count t +
      ((structs.filter (·.name ≠ none)).flatMap fun s => fieldOuterStructs s.fields).count t := by
  induction structs with
  | nil => rfl
  | cons s structs ih =>
    rw [List.flatMap_cons, List.count_append, ih, outerStructs_struct, List.count_cons]
    by_cases hs : s.name = none
    · rw [if_pos hs, List.filter_cons_of_neg (by simpa using hs), List.count_singleton]
      omega
    · have hne : ¬ (s == t) = true := fun heq => hs (beq_iff_eq.mp heq ▸ ht)
      rw [if_neg hs, if_neg hne, List.filter_cons_of_pos (by simpa using hs), List.flatMap_cons,
        List.count_append]
      omega

mutual

/-- An anonymous struct is in a type as often as it is outer in the type, or in the fields of an
anonymous struct of the type. -/
private theorem count_structs (ht : t.name = none) : ∀ type : TypeExpr, type.structs.count t =
    type.outerStructs.count t +
      ((type.structs.filter (·.name = none)).flatMap fun s => fieldOuterStructs s.fields).count t
  | .scalar _ => rfl
  | .enum _ => rfl
  | .array items => by
    rw [structs, outerStructs]
    exact count_structs ht items
  | .map values => by
    rw [structs, outerStructs]
    exact count_structs ht values
  | .struct ⟨some label, docs, fields⟩ => by
    have hne : ¬ ((⟨some label, docs, fields⟩ : StructType) == t) = true := by
      rw [beq_iff_eq]
      rintro rfl
      cases ht
    rw [structs, outerStructs, List.count_cons, if_neg hne, List.filter_cons_of_neg (by simp)]
    exact count_fieldStructs ht fields
  | .struct ⟨none, docs, fields⟩ => by
    rw [structs, outerStructs, List.count_cons, count_fieldStructs ht fields,
      List.filter_cons_of_pos (by simp), List.flatMap_cons, List.count_append, List.count_singleton]
    dsimp only
    omega
  | .reference _ => rfl

private theorem count_fieldStructs (ht : t.name = none) : ∀ fields : List (Field TypeExpr),
    (fieldStructs fields).count t = (fieldOuterStructs fields).count t +
      (((fieldStructs fields).filter (·.name = none)).flatMap
        fun s => fieldOuterStructs s.fields).count t
  | [] => rfl
  | ⟨_, type, _, _⟩ :: fields => by
    have htype := count_structs ht type
    have hfields := count_fieldStructs ht fields
    rw [fieldStructs, fieldOuterStructs, List.filter_append, List.flatMap_append]
    simp only [List.count_append]
    omega

end

private theorem count_rootStructs (ht : t.name = none) (type : TypeExpr) :
    type.rootStructs.count t =
    type.rootOuterStructs.count t +
      ((type.rootStructs.filter (·.name = none)).flatMap
        fun s => fieldOuterStructs s.fields).count t := by
  cases type with
  | struct s => exact count_fieldStructs ht s.fields
  | _ => exact count_structs ht _

private theorem count_definitionStructs (ht : t.name = none) (definitions : List Definition) :
    (definitions.flatMap (·.type.rootStructs)).count t =
      (definitions.flatMap (·.type.rootOuterStructs)).count t +
      (((definitions.flatMap (·.type.rootStructs)).filter (·.name = none)).flatMap
        fun s => fieldOuterStructs s.fields).count t := by
  induction definitions with
  | nil => rfl
  | cons d definitions ih =>
    have htype := count_rootStructs ht d.type
    simp only [List.flatMap_cons, List.filter_append, List.flatMap_append, List.count_append]
    omega

end TypeExpr

open TypeExpr

/-! ### Counts of a kind -/

namespace Kind

variable {k : Kind} {met : List StructType} {entered : List String} {s t : StructType}

/-- The outer structs of the sections, by the structs on top. -/
private theorem flatMap_sectionTopStructs (k : Kind) :
    k.sectionTopStructs.flatMap (fun s => outerStructs (.struct s)) = k.sectionOuterStructs := by
  simp only [sectionTopStructs, envelope, List.flatMap_cons, List.flatMap_nil, List.append_nil,
    List.flatMap_append, flatMap_rootTopStructs]
  rfl

/-- The outer structs of a definition, by the structs on top. -/
private theorem flatMap_definitionTopStructs {d : Definition} (hd : k.definition? d.name = some d) :
    (k.definitionTopStructs d.name).flatMap (fun s => outerStructs (.struct s)) =
      d.type.rootOuterStructs := by
  rw [definitionTopStructs, hd, Option.map_some, Option.getD_some, flatMap_rootTopStructs]

/-- The outer structs of what has been followed. -/
private theorem flatMap_followed (k : Kind) (met : List StructType) (entered : List String) :
    (k.followed met entered).flatMap (fun s => outerStructs (.struct s)) =
      k.sectionOuterStructs ++ (met.flatMap (fun s => fieldOuterStructs s.fields) ++
        entered.flatMap fun name =>
          (k.definitionTopStructs name).flatMap fun s => outerStructs (.struct s)) := by
  simp only [followed, List.flatMap_append, List.flatMap_assoc, flatMap_sectionTopStructs,
    flatMap_fieldTopStructs]

/-- If definitions have different names, each of them is the definition of its name. -/
private theorem definition?_of_mem (hnodup : (k.definitions.map (·.name)).Nodup) {d : Definition}
    (hd : d ∈ k.definitions) : k.definition? d.name = some d := by
  have hsome : (k.definitions.find? (·.name == d.name)).isSome :=
    List.find?_isSome.mpr ⟨d, hd, beq_self_eq_true d.name⟩
  obtain ⟨e, he⟩ := Option.isSome_iff_exists.mp hsome
  have hname : e.name = d.name := by simpa using List.find?_some he
  rw [definition?, he, Option.some_or,
    List.inj_on_of_nodup_map hnodup (List.mem_of_find?_eq_some he) hd hname]

/-- What is counted is anonymous. -/
private theorem name_of_mem_sightings (h : s ∈ k.sightings) : s.name = none := by
  have hcount := List.count_pos_iff.mpr h
  have houter : s ∈ k.sectionOuterStructs ∨ s ∈ k.definitions.flatMap (·.type.rootOuterStructs) ∨
      s ∈ innerStructs k.sightings := by
    simp only [← List.count_pos_iff, k.count_sightings s] at hcount ⊢
    omega
  rcases houter with h | h | h
  · simp only [← flatMap_sectionTopStructs, List.mem_flatMap] at h
    obtain ⟨_, -, h⟩ := h
    exact name_of_mem_outerStructs h
  · obtain ⟨d, -, h⟩ := List.mem_flatMap.mp h
    rw [← flatMap_rootTopStructs] at h
    obtain ⟨_, -, h⟩ := List.mem_flatMap.mp h
    exact name_of_mem_outerStructs h
  · obtain ⟨_, -, h⟩ := List.mem_flatMap.mp h
    exact name_of_mem_fieldOuterStructs h

/-- What is counted is in a section or in a definition. -/
private theorem sightings_subset (k : Kind) : k.sightings ⊆
    k.envelope.flatMap (·.type.rootStructs) ++ k.definitions.flatMap (·.type.rootStructs) := by
  have hmetadata := rootSightings_subset k.metadata.type []
  have hspec := fieldSightings_subset k.spec.fields (rootSightings [] k.metadata.type)
  have hstatus := fieldSightings_subset k.status.fields
    (fieldSightings (rootSightings [] k.metadata.type) k.spec.fields)
  refine List.Subset.trans (definitionSightings_subset _ _) ?_
  refine List.append_subset.mpr ⟨fun s hs => List.mem_append_left _ ?_,
    List.subset_append_right _ _⟩
  simp only [envelope, List.flatMap_cons, List.flatMap_nil, List.append_nil, List.mem_append]
  rcases List.mem_append.mp (hstatus hs) with hs | hs
  · exact (List.mem_append.mp (hspec hs)).imp (@hmetadata s) .inl
  · exact .inr (.inr hs)

/-- The definitions of `k` that are not in `entered`. -/
def leftOut (k : Kind) (entered : List String) : List Definition :=
  k.definitions.filter (·.name ∉ entered)

/-- That a resolution which has met the structs of `met` and entered the definitions of `entered`
has followed all that is on top there, and no struct with an annotation twice that has `t`, an
anonymous struct, in its fields. -/
structure FollowsOnce (k : Kind) (met : List StructType) (entered : List String) (t : StructType) :
    Prop where
  anonymous : t.name = none
  closed : k.followed met entered ⊆ met
  nodup : (k.definitions.map (·.name)).Nodup
  once : ∀ s, s.name ≠ none → t ∈ fieldOuterStructs s.fields → (k.followed met entered).count s ≤ 1

namespace FollowsOnce

/-- A struct `s` that has been counted has been met, or is in a definition that has been left
out. -/
theorem met_or_leftOut (h : k.FollowsOnce met entered t) (hs : s ∈ k.sightings) :
    s ∈ met ∨ s ∈ (k.leftOut entered).flatMap (·.type.rootStructs) := by
  have hfields : ∀ s ∈ met, fieldTopStructs s.fields ⊆ met := by
    intro s hs u hu
    refine h.closed (List.mem_append_right _ (List.mem_append_left _ ?_))
    exact List.mem_flatMap.mpr ⟨s, hs, hu⟩
  rcases List.mem_append.mp (k.sightings_subset hs) with hs | hs
  · obtain ⟨f, hf, hs⟩ := List.mem_flatMap.mp hs
    refine .inl (rootStructs_subset_of_closed hfields (fun u hu => h.closed ?_) hs)
    exact List.mem_append_left _ (List.mem_flatMap.mpr ⟨f, hf, hu⟩)
  · obtain ⟨d, hd, hs⟩ := List.mem_flatMap.mp hs
    by_cases hentered : d.name ∈ entered
    · refine .inl (rootStructs_subset_of_closed hfields (fun u hu => h.closed ?_) hs)
      refine List.mem_append_right _ (List.mem_append_right _ ?_)
      refine List.mem_flatMap.mpr ⟨d.name, hentered, ?_⟩
      rwa [definitionTopStructs, definition?_of_mem h.nodup hd]
    · exact .inr (List.mem_flatMap.mpr ⟨d, List.mem_filter.mpr ⟨hd, by simpa using hentered⟩, hs⟩)

/-- In the definitions the struct is outer no more often than in those that have been entered or
left out. -/
private theorem count_definitions_le (h : k.FollowsOnce met entered t) :
    (k.definitions.flatMap (·.type.rootOuterStructs)).count t ≤
      (entered.flatMap fun name =>
        (k.definitionTopStructs name).flatMap fun s => outerStructs (.struct s)).count t +
      ((k.leftOut entered).flatMap (·.type.rootOuterStructs)).count t := by
  -- Each name is entered once, so the list of names bounds the definitions that were entered.
  let chosen := k.definitions.filter (·.name ∈ entered)
  have hperm : (chosen ++ k.leftOut entered).Perm k.definitions := by
    simpa only [leftOut, decide_not] using
      List.filter_append_perm (fun d => decide (d.name ∈ entered)) k.definitions
  have htypes : chosen.flatMap (·.type.rootOuterStructs) =
      (chosen.map (·.name)).flatMap fun name =>
        (k.definitionTopStructs name).flatMap fun s => outerStructs (.struct s) := by
    rw [List.flatMap_map]
    refine List.flatMap_congr fun d hd => ?_
    rw [flatMap_definitionTopStructs (definition?_of_mem h.nodup (List.mem_of_mem_filter hd))]
  have hnodup : (chosen.map (·.name)).Nodup := h.nodup.sublist (List.filter_sublist.map _)
  rw [← (hperm.flatMap_right _).count_eq t, List.flatMap_append, List.count_append, htypes]
  refine Nat.add_le_add_right (count_flatMap_le _ t (hnodup.filter _) fun name hname _ => ?_) _
  obtain ⟨d, hd, rfl⟩ := List.mem_map.mp hname
  exact of_decide_eq_true (List.mem_filter.mp hd).2

/-- Structs with an annotation that have the struct in their fields are followed once. -/
private theorem nodup_annotated (h : k.FollowsOnce met entered t) :
    (((k.followed met entered).filter (·.name ≠ none)).filter
      fun s => t ∈ fieldOuterStructs s.fields).Nodup := by
  refine List.nodup_iff_count_le_one.mpr fun s => ?_
  by_cases hs : s ∈ ((k.followed met entered).filter (·.name ≠ none)).filter
      fun s => t ∈ fieldOuterStructs s.fields
  · obtain ⟨hannotated, ht⟩ := List.mem_filter.mp hs
    obtain ⟨-, hname⟩ := List.mem_filter.mp hannotated
    refine Nat.le_trans (List.Sublist.count_le s ?_)
      (h.once s (of_decide_eq_true hname) (of_decide_eq_true ht))
    exact List.filter_sublist.trans List.filter_sublist
  · rw [List.count_eq_zero.mpr hs]
    exact Nat.zero_le 1

/-- In the fields of the structs that have been counted, and of those with an annotation that have
been followed, the struct is outer no more often than in the fields of those that have been met or
left out. -/
private theorem count_fields_le (h : k.FollowsOnce met entered t) :
    (innerStructs k.sightings).count t +
      (((k.followed met entered).filter (·.name ≠ none)).flatMap
        fun s => fieldOuterStructs s.fields).count t ≤
      (met.flatMap fun s => fieldOuterStructs s.fields).count t +
        ((((k.leftOut entered).flatMap (·.type.rootStructs)).filter (·.name = none)).flatMap
          fun s => fieldOuterStructs s.fields).count t := by
  rw [innerStructs, ← List.count_append, ← List.flatMap_append, ← List.count_append,
    ← List.flatMap_append]
  refine count_flatMap_le _ t ?_ fun s hs _ => ?_
  · rw [List.filter_append]
    refine List.nodup_append'.mpr ⟨(List.nodup_dedup _).filter _, h.nodup_annotated, ?_⟩
    -- No struct is in both lists, as those that have been counted are anonymous.
    intro s hcounted hannotated
    have hnone := name_of_mem_sightings (List.mem_dedup.mp (List.mem_of_mem_filter hcounted))
    obtain ⟨-, hname⟩ := List.mem_filter.mp (List.mem_of_mem_filter hannotated)
    exact of_decide_eq_true hname hnone
  · rcases List.mem_append.mp hs with hs | hs
    · have hcounted := List.mem_dedup.mp hs
      refine List.mem_append.mpr ((h.met_or_leftOut hcounted).imp_right fun hs => ?_)
      exact List.mem_filter.mpr ⟨hs, decide_eq_true (name_of_mem_sightings hcounted)⟩
    · exact List.mem_append_left _ (h.closed (List.mem_of_mem_filter hs))

/-- The struct `t` is counted no more often than it is on top in what has been followed, or is in a
definition that has been left out. -/
theorem count_sightings_le (h : k.FollowsOnce met entered t) :
    k.sightings.count t ≤ (k.followed met entered).count t +
      ((k.leftOut entered).flatMap (·.type.rootStructs)).count t := by
  -- The outer structs of what has been followed are those of sections, structs and definitions.
  have hfollowed := count_flatMap_outerStructs h.anonymous (k.followed met entered)
  rw [flatMap_followed, List.count_append, List.count_append] at hfollowed
  have hleftOut := count_definitionStructs h.anonymous (k.leftOut entered)
  have hsightings := k.count_sightings t
  have hdefinitions := h.count_definitions_le
  have hfields := h.count_fields_le
  omega

end FollowsOnce

end Kind

open Resolution

/-! ### Resolved kinds -/

/-- The definitions of a valid kind have different names. -/
private theorem Kind.nodup_definitions {k : Kind} (h : k.validate = .ok ()) :
    (k.definitions.map (·.name)).Nodup := by
  rw [validate] at h
  obtain ⟨⟨⟩, -, h⟩ := bind_eq_ok.mp h
  obtain ⟨⟨⟩, hdefinitions, -⟩ := bind_eq_ok.mp h
  exact (validateDefinitions_eq_ok_iff.mp hdefinitions).2

/-- The definitions of `k` that `r` does not declare. -/
def Kind.undeclared (k : Kind) (r : ResolvedKind) : List Definition :=
  k.definitions.filter fun d => (r.declaration? d.name).isNone

/-- What a resolved kind does not declare is what the resolution has not entered. -/
private theorem Kind.undeclared_eq_leftOut {policy : Policy} {k : Kind} {r : ResolvedKind}
    {names : Names} (hsound : names.Sound (contextOf policy k) [] (r.declarations.map (·.name))) :
    k.undeclared r = k.leftOut names.defined := by
  refine List.filter_congr fun d hd => ?_
  have hdefinition : ((contextOf policy k).kind.definition? d.name).isSome :=
    Kind.isSome_definition?_iff.mpr (List.mem_map_of_mem (List.mem_append_left _ hd))
  have hvisited := hsound.visited d.name
  rw [List.append_nil, and_iff_left hdefinition] at hvisited
  have hfound : (r.declaration? d.name).isSome ↔ d.name ∈ names.defined := by
    rw [hvisited, ResolvedKind.declaration?, List.find?_isSome, List.mem_map]
    simp only [beq_iff_eq]
  rw [Bool.eq_iff_iff, decide_eq_true_iff, ← hfound, Option.not_isSome_iff_eq_none,
    Option.isNone_iff_eq_none]

/-- Where structs may stay inline, each declaration `d` of `r` that was lifted from a struct stands
for one at a position of `k`, and if the struct has neither a name annotation nor documentation, it
is mentioned at two places or more. The places at which it is written in definitions that nothing
leads to count as well. Left out are structs in the fields of one with an annotation that is
mentioned more often than once. -/
theorem two_le_mentionCount {k : Kind} {r : ResolvedKind} (h : k.resolve .inline = .ok r)
    {d : Declaration} (hd : d ∈ r.declarations) {path : List String}
    (hlifted : d.origin = .lifted path) {fields : List (Field Shape)}
    (hbody : d.body = .struct fields) :
    (∃ s, k.LiftedAs r s d.name) ∧ ∀ s, k.LiftedAs r s d.name → s.name = none → s.docs = [] →
      (∀ t name, k.LiftedAs r t name → t.name ≠ none → s ∈ fieldOuterStructs t.fields →
        r.mentionCount name ≤ 1) →
      2 ≤ r.mentionCount d.name + ((k.undeclared r).flatMap (·.type.rootStructs)).count s := by
  obtain ⟨names, met, hsound, hcorresponds, hfollowed⟩ := Kind.resolve_followed h
  have hiff : ∀ {s name}, k.LiftedAs r s name ↔ (s, name) ∈ names.lifted :=
    hcorresponds.liftedAs_iff hsound h
  refine ⟨?_, fun s hs hname hdocs honce => ?_⟩
  · have hfound := ResolvedKind.declaration?_of_mem hsound.nodup hd
    obtain ⟨s, hs⟩ := hcorresponds.exists_lifted hsound h hfound hlifted hbody
    exact ⟨s, hiff.mpr hs⟩
  -- A struct with an annotation that is followed twice is mentioned twice, which `honce` forbids.
  · have hfollows : k.FollowsOnce met names.defined s := {
      anonymous := hname
      closed := hfollowed.closed
      nodup := Kind.nodup_definitions (Kind.resolve_run h).1
      once := by
        intro t ht hst
        by_cases hmem : t ∈ k.followed met names.defined
        · obtain ⟨name, htname⟩ := hfollowed.exists_name t (hfollowed.closed hmem) (.inl ht)
          rw [hfollowed.counted t name htname]
          exact honce t name (hiff.mpr htname) ht hst
        · rw [List.count_eq_zero.mpr hmem]
          exact Nat.zero_le 1 }
    have hsname := hiff.mp hs
    have hshared : 2 ≤ k.sightings.count s := by
      rcases hfollowed.alwaysLifts s d.name hsname with hannotated | hshared | hdocumented
      · exact absurd hname hannotated
      · exact hshared
      · exact absurd hdocs hdocumented
    rw [← hfollowed.counted s d.name hsname, Kind.undeclared_eq_leftOut hsound]
    exact hshared.trans hfollows.count_sightings_le

namespace Sample

/-- What the small kind is resolved to for a language in which structs and enumerations may stay
inline. -/
def shopInlined : ResolvedKind where
  name := "Shop"
  machineName := "shop"
  description := []
  metadata := { name := "metadata", type := .struct [{ name := "uid", type := .scalar .string }] }
  spec := { name := "spec", type := .struct [
    { name := "office", type := .named "SpecOffice" },
    { name := "state", type := .enum ["open", "closed"] },
    { name := "owner", type := .named "Person" }] }
  status := { name := "status", type := .struct [
    { name := "visits", type := .map (.struct [{ name := "day", type := .scalar .dateTime }]),
      optional := true }] }
  declarations := [
    ⟨"SpecOffice", [], .struct [{ name := "city", type := .scalar .string }],
      .lifted ["spec", "office"]⟩,
    ⟨"Person", ["Someone."], .struct [{ name := "home", type := .named "SpecOffice" }], .defined⟩]

theorem resolve_shopInlined : shop.resolve .inline = .ok shopInlined := by
  with_unfolding_all rfl

/-- The address is mentioned at the office and in the definition of a person, which is referred
to. -/
theorem mentionCount_office : shop.resolve .inline = .ok shopInlined ∧
    shop.LiftedAs shopInlined address "SpecOffice" ∧ shop.undeclared shopInlined = [] ∧
    2 ≤ shopInlined.mentionCount "SpecOffice" := by
  have hoffice : shop.LiftedAs shopInlined address "SpecOffice" :=
    ⟨[.field 1, .field 0], rfl, rfl⟩
  have honce : ∀ t name, shop.LiftedAs shopInlined t name → t.name ≠ none →
      address ∈ fieldOuterStructs t.fields → shopInlined.mentionCount name ≤ 1 := by
    -- Any name with an annotation is that of the person, and she is mentioned once.
    rintro t name ⟨position, ht, hname⟩ hannotated -
    have hne : "SpecOffice" ≠ name := by
      rintro rfl
      obtain rfl := ((resolve_wellNamed resolve_shopInlined).struct position [.field 1, .field 0]
        t address _ _ ht hname rfl rfl).mp rfl
      exact hannotated rfl
    have hmentions : shopInlined.mentionCount name =
      ["SpecOffice", "Person", "SpecOffice"].count name := rfl
    rw [hmentions, List.count_cons_of_ne hne]
    exact List.nodup_iff_count_le_one.mp (by decide) name
  have hundeclared : shop.undeclared shopInlined = [] := by rfl
  have hcount := (two_le_mentionCount resolve_shopInlined List.mem_cons_self rfl rfl).2 address
    hoffice rfl rfl honce
  rw [hundeclared] at hcount
  exact ⟨resolve_shopInlined, hoffice, hundeclared, hcount⟩

/-- A kind with a definition to which nothing refers. -/
def depot : Kind where
  name := "Depot"
  metadata := { type := .struct { fields := [] } }
  spec := { fields := [{ name := "site", type := .struct address }] }
  status := { fields := [] }
  definitions := [{
    name := "Branch"
    type := .struct { fields := [{ name := "site", type := .struct address }] } }]

/-- What the kind is resolved to. -/
def depotResolved : ResolvedKind where
  name := "Depot"
  machineName := "depot"
  description := []
  metadata := { name := "metadata", type := .struct [] }
  spec := { name := "spec", type := .struct [{ name := "site", type := .named "SpecSite" }] }
  status := { name := "status", type := .struct [] }
  declarations := [
    ⟨"SpecSite", [], .struct [{ name := "city", type := .scalar .string }],
      .lifted ["spec", "site"]⟩]

/-- The address is lifted, as it is written in the definition as well, but the definition is not
declared, and so a single mention is left. -/
theorem mentionCount_site : depot.resolve .inline = .ok depotResolved ∧
    depot.LiftedAs depotResolved address "SpecSite" ∧ address.name = none ∧ address.docs = [] ∧
    depotResolved.mentionCount "SpecSite" = 1 :=
  ⟨by with_unfolding_all rfl, ⟨[.field 1, .field 0], rfl, rfl⟩, rfl, rfl, rfl⟩

end Sample

end KindSchema
