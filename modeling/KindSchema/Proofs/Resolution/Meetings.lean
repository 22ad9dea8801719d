import Mathlib.Data.List.Flatten
import KindSchema.Proofs.Resolution.Reservation
import KindSchema.Proofs.Resolution.Sightings

/-!
# Structs that a resolution meets

A resolution follows the fields of a struct when it meets the struct for the first time, and those
of a struct that has not been lifted each time. `Names.Meets` relates the names given to the structs
met so far and to those still to come: none of them has been counted less often than it is met. So
a struct that is met again has been counted twice, and was lifted when it was met first, whatever
the policy.

* `Names.Meets.isSome_lookup_iff`: a struct has been lifted if and only if it is met again.
* `Names.Meets.meet`, `Names.Meets.lift`, `Names.Meets.opening`, `Names.Meets.define`: the ways in
  which names change keep the relation.
-/

namespace KindSchema

open TypeExpr

/-- That `s` has to be lifted wherever it is used in `k`. -/
def Kind.AlwaysLifts (k : Kind) (s : StructType) : Prop :=
  s.name ≠ none ∨ 2 ≤ k.sightings.count s ∨ s.docs ≠ []

/-- The outer structs of the fields of the structs that are not in `met` and of the definitions that
are not in `entered`. -/
def Kind.upcoming (k : Kind) (met : List StructType) (entered : List String) : List StructType :=
  ((k.sightings.dedup.filter (!met.contains ·)).flatMap fun s => fieldOuterStructs s.fields) ++
    (k.definitions.filter (!entered.contains ·.name)).flatMap (·.type.rootOuterStructs)

namespace Resolution

variable {k : Kind} {policy : Policy} {opened : List String} {names : Names} {s : StructType}
  {met met' pending rest : List StructType} {entered entered' : List String}

/-- A struct `s` without a base for its name is anonymous, has been counted once at most, and has no
documentation. -/
theorem of_liftedBase?_eq_none {c : Context} {path : List String} {place : Place}
    (h : c.liftedBase? s path place = none) :
    s.name = none ∧ c.sightings.count s < 2 ∧ s.docs = [] := by
  unfold Context.liftedBase? at h
  split at h
  · cases h
  · next hname =>
    rw [ite_eq_right_iff] at h
    have hplain := mt h (Option.some_ne_none _)
    rw [not_or, not_or, not_le, not_not] at hplain
    exact ⟨hname, hplain.1, hplain.2.1⟩

/-- A struct `s` without a base for its name need not be lifted. -/
theorem not_alwaysLifts {path : List String} {place : Place}
    (h : (contextOf policy k).liftedBase? s path place = none) : ¬ k.AlwaysLifts s := by
  obtain ⟨hname, hcount, hdocs⟩ := of_liftedBase?_eq_none h
  rintro (hlabel | hshared | hdocumented)
  · exact hlabel hname
  · exact absurd hshared (Nat.not_le_of_lt hcount)
  · exact hdocumented hdocs

/-! ### What is still to come -/

/-- To leave one element out, and perhaps others, takes away at least what comes of the one. -/
private theorem count_flatMap_filter_le {α β : Type} [BEq β] {l : List α} (f : α → List β)
    (keep keep' : α → Bool) {a : α} (ha : a ∈ l) (hkeep : keep a = true) (hdrop : keep' a = false)
    (hle : ∀ b, keep' b = true → keep b = true) (b : β) :
    (f a).count b + ((l.filter keep').flatMap f).count b ≤ ((l.filter keep).flatMap f).count b := by
  have hpart (part : List α) :
      ((part.filter keep').flatMap f).count b ≤ ((part.filter keep).flatMap f).count b :=
    ((List.monotone_filter_right part hle).flatMap f).count_le b
  obtain ⟨before, after, rfl⟩ := List.append_of_mem ha
  have hbefore := hpart before
  have hafter := hpart after
  simp only [List.filter_append, List.filter_cons, hkeep, hdrop, List.flatMap_append, if_true,
    List.flatMap_cons, List.count_append, Bool.false_eq_true, if_false]
  omega

/-- When a struct is met that has been counted, what is in its fields is no longer upcoming. -/
private theorem count_upcoming_meet (hs : s ∈ k.sightings) (hnew : s ∉ met) (entered : List String)
    (t : StructType) :
    (fieldOuterStructs s.fields).count t + (k.upcoming (s :: met) entered).count t ≤
      (k.upcoming met entered).count t := by
  have hfields := count_flatMap_filter_le (fun s : StructType => fieldOuterStructs s.fields)
    (!met.contains ·) (!(s :: met).contains ·) (List.mem_dedup.mpr hs) (by simpa using hnew)
    (by simp) (by simp) t
  simp only [Kind.upcoming, List.count_append]
  omega

/-- When a definition of the kind is entered, what is in its type is no longer upcoming. -/
private theorem count_upcoming_enter {d : Definition} (hd : d ∈ k.definitions)
    (hnew : d.name ∉ entered) (met : List StructType) (t : StructType) :
    d.type.rootOuterStructs.count t + (k.upcoming met (d.name :: entered)).count t ≤
      (k.upcoming met entered).count t := by
  have htype := count_flatMap_filter_le (fun d : Definition => d.type.rootOuterStructs)
    (!entered.contains ·.name) (!(d.name :: entered).contains ·.name) hd (by simpa using hnew)
    (by simp) (by simp) t
  simp only [Kind.upcoming, List.count_append]
  omega

/-- What is upcoming becomes less when more has been met and entered. -/
private theorem count_upcoming_le (k : Kind) (hmet : met ⊆ met') (hentered : entered ⊆ entered')
    (t : StructType) :
    (k.upcoming met' entered').count t ≤ (k.upcoming met entered).count t := by
  -- What is met or entered is left out of what is to come, so more of it leaves less to come.
  have hstructs : ∀ s : StructType, (!met'.contains s) = true → (!met.contains s) = true := by
    intro s hs
    simp only [Bool.not_eq_true', List.contains_eq_mem, decide_eq_false_iff_not] at hs ⊢
    exact fun hmem => hs (hmet hmem)
  have hdefinitions : ∀ d : Definition, (!entered'.contains d.name) = true →
      (!entered.contains d.name) = true := by
    intro d hd
    simp only [Bool.not_eq_true', List.contains_eq_mem, decide_eq_false_iff_not] at hd ⊢
    exact fun hmem => hd (hentered hmem)
  have hfields := ((List.monotone_filter_right k.sightings.dedup hstructs).flatMap
    fun s => fieldOuterStructs s.fields).count_le t
  have htypes := ((List.monotone_filter_right k.definitions hdefinitions).flatMap
    (·.type.rootOuterStructs)).count_le t
  simp only [Kind.upcoming, List.count_append]
  omega

/-- The definitions that are built in hold no anonymous structs. -/
private theorem rootOuterStructs_of_mem_builtin {d : Definition} (hd : d ∈ builtinDefinitions) :
    d.type.rootOuterStructs = [] := by
  rw [builtinDefinitions, List.mem_singleton] at hd
  subst hd
  rfl

/-! ### The relation -/

/-- What holds of the names given when the structs in `met` have been met, the definitions in
`opened` are open, and the outer structs in `pending` are to be met before what is upcoming. -/
structure Names.Meets (k : Kind) (opened : List String) (met pending : List StructType)
    (names : Names) : Prop where
  met_of_lifted : ∀ s, (names.lifted.lookup s).isSome → s ∈ met
  lifted_of_met : ∀ s ∈ met, k.AlwaysLifts s → (names.lifted.lookup s).isSome
  /-- Every anonymous struct has been counted at least as often as it is met. -/
  counted : ∀ s, s.name = none → met.count s + pending.count s +
    (k.upcoming met (names.defined ++ opened)).count s ≤ k.sightings.count s

namespace Names.Meets

/-- At the start nothing has been met, and the sections are to come. -/
theorem start (k : Kind) :
    Names.Meets k [] [] k.sectionOuterStructs { used := reservedNames k } where
  met_of_lifted := by simp
  lifted_of_met := by simp
  counted := by
    intro s _
    have hcount := k.count_sightings s
    simp only [Kind.upcoming, innerStructs, List.count_append, List.count_nil, List.append_nil,
      List.contains_nil, Bool.not_false, List.filter_true] at hcount ⊢
    omega

/-- What is in `pending` may be left out. -/
theorem skip (h : names.Meets k opened met (pending ++ rest)) :
    names.Meets k opened met rest where
  met_of_lifted := h.met_of_lifted
  lifted_of_met := h.lifted_of_met
  counted := by
    intro s hs
    have hcounted := h.counted s hs
    rw [List.count_append] at hcounted
    omega

/-- The name `name` may be reserved for anything but a struct. -/
theorem reserve (h : names.Meets k opened met pending) (name : String) :
    (names.reserve name).Meets k opened met pending where
  met_of_lifted := h.met_of_lifted
  lifted_of_met := h.lifted_of_met
  counted := h.counted

/-- The struct `s`, which is to be met, has been lifted if and only if it has been met. -/
theorem isSome_lookup_iff (h : names.Meets k opened met (outerStructs (.struct s) ++ rest)) :
    (names.lifted.lookup s).isSome ↔ s ∈ met := by
  refine ⟨h.met_of_lifted s, fun hs => h.lifted_of_met s hs ?_⟩
  obtain ⟨_ | label, docs, fields⟩ := s
  · -- It is met for the second time, so it has been counted twice.
    have hcounted := h.counted ⟨none, docs, fields⟩ rfl
    have hmet := List.count_pos_iff.mpr hs
    rw [outerStructs, List.count_append, List.count_cons_self] at hcounted
    exact .inr (.inl (by omega))
  · exact .inl nofun

/-- If `s`, which is to be met, has not been lifted, it has not been met. -/
theorem not_mem_of_unknown (h : names.Meets k opened met (outerStructs (.struct s) ++ rest))
    (unknown : names.lifted.lookup s = none) : s ∉ met := by
  rw [← h.isSome_lookup_iff, unknown]
  exact Bool.false_ne_true

/-- When a struct is met for the first time, what is in its fields becomes pending. -/
private theorem counted_meet (h : names.Meets k opened met (outerStructs (.struct s) ++ rest))
    (hnew : s ∉ met) {t : StructType} (ht : t.name = none) :
    (s :: met).count t + (fieldOuterStructs s.fields ++ rest).count t +
      (k.upcoming (s :: met) (names.defined ++ opened)).count t ≤ k.sightings.count t := by
  have hcounted := h.counted
  obtain ⟨_ | label, docs, fields⟩ := s
  -- The struct moves to what has been met, and its fields from what is to come to what is pending.
  · have hself := hcounted ⟨none, docs, fields⟩ rfl
    rw [outerStructs, List.count_append, List.count_cons_self] at hself
    have hsighted : ⟨none, docs, fields⟩ ∈ k.sightings := List.count_pos_iff.mp (by omega)
    have hupcoming := count_upcoming_meet hsighted hnew (names.defined ++ opened) t
    have hother := hcounted t ht
    simp only [outerStructs, List.count_append, List.count_cons, List.count_nil] at hother ⊢
    simp only at hupcoming
    omega
  · -- A struct with an annotation is not counted itself.
    have hne : ¬ (⟨some label, docs, fields⟩ == t) = true := by
      rw [beq_iff_eq]
      rintro rfl
      cases ht
    have hother := hcounted t ht
    have hupcoming := count_upcoming_le k (List.subset_cons_self ⟨some label, docs, fields⟩ met)
      (List.Subset.refl (names.defined ++ opened)) t
    simp only [outerStructs, List.count_append, List.count_cons, if_neg hne] at hother ⊢
    omega

/-- The struct `s`, which need not be lifted, is met for the first time and stays where it is. -/
theorem meet (h : names.Meets k opened met (outerStructs (.struct s) ++ rest)) (hnew : s ∉ met)
    (hinline : ¬ k.AlwaysLifts s) :
    names.Meets k opened (s :: met) (fieldOuterStructs s.fields ++ rest) where
  met_of_lifted := fun t ht => List.mem_cons_of_mem s (h.met_of_lifted t ht)
  lifted_of_met := by
    intro t ht hlifts
    rcases List.mem_cons.mp ht with rfl | ht
    · exact absurd hlifts hinline
    · exact h.lifted_of_met t ht hlifts
  counted := fun _ ht => h.counted_meet hnew ht

/-- The struct `s` is lifted when it is met for the first time. -/
theorem lift (h : names.Meets k opened met (outerStructs (.struct s) ++ rest)) (hnew : s ∉ met)
    (name : String) :
    (names.lift s name).Meets k opened (s :: met) (fieldOuterStructs s.fields ++ rest) where
  met_of_lifted := by
    intro t ht
    rw [Names.lift, List.lookup_cons] at ht
    split at ht
    · next heq => exact beq_iff_eq.mp heq ▸ List.mem_cons_self
    · exact List.mem_cons_of_mem s (h.met_of_lifted t ht)
  lifted_of_met := by
    intro t ht hlifts
    rw [Names.lift, List.lookup_cons]
    split
    · rfl
    · next hne =>
      have hts : t ≠ s := beq_eq_false_iff_ne.mp hne
      exact h.lifted_of_met t ((List.mem_cons.mp ht).resolve_left hts) hlifts
  counted := fun _ ht => h.counted_meet hnew ht

/-- The definition `d`, neither resolved nor open, is opened, and its type is to come. -/
theorem opening (h : names.Meets k opened met rest) {name : String} {d : Definition}
    (found : k.definition? name = some d) (unknown : name ∉ names.defined)
    (unopened : name ∉ opened) :
    names.Meets k (opened ++ [name]) met (d.type.rootOuterStructs ++ rest) where
  met_of_lifted := h.met_of_lifted
  lifted_of_met := h.lifted_of_met
  counted := by
    intro t ht
    have hcounted := h.counted t ht
    obtain ⟨hd, rfl⟩ := Kind.definition?_eq_some found
    have hentered : d.name :: (names.defined ++ opened) ⊆
        names.defined ++ (opened ++ [d.name]) := by simp
    have hle := count_upcoming_le k (List.Subset.refl met) hentered t
    rw [List.count_append]
    -- A built-in definition has no structs, so it was never among what is to come.
    rcases List.mem_append.mp hd with hd | hd
    · have hnew : d.name ∉ names.defined ++ opened := List.not_mem_append unknown unopened
      have henter := count_upcoming_enter hd hnew met t
      omega
    · have hmore := count_upcoming_le k (List.Subset.refl met)
        (List.subset_cons_self d.name (names.defined ++ opened)) t
      rw [rootOuterStructs_of_mem_builtin hd, List.count_nil]
      omega

/-- The definition `name`, opened last, has been resolved. -/
theorem define {name : String} (h : names.Meets k (opened ++ [name]) met rest) :
    (names.define name).Meets k opened met rest where
  met_of_lifted := h.met_of_lifted
  lifted_of_met := h.lifted_of_met
  counted := by
    intro t ht
    have hcounted := h.counted t ht
    have hsubset : names.defined ++ (opened ++ [name]) ⊆ (names.define name).defined ++ opened := by
      simp [Names.define]
    have hle := count_upcoming_le k (List.Subset.refl met) hsubset t
    omega

end Names.Meets

end Resolution

end KindSchema
