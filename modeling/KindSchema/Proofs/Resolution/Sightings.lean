import Mathlib.Data.List.Dedup
import KindSchema.Resolved.Sharing

/-!
# How often structs are counted

A struct is *outer* in a type if it is anonymous and inside no other anonymous struct of the type.
The count of shared structs stops at a struct that has been seen. So it counts the outer structs of
each section and definition, and those of the fields of each different struct once, whatever the
order in which it meets them.

* `TypeExpr.count_sightings`: what a walk through a type adds to the count.
* `Kind.count_sightings`: the count of a kind, by what is outer in its sections and definitions and
  in the structs that have been counted.
-/

namespace KindSchema

namespace TypeExpr

mutual

/-- The anonymous structs of a type that are inside no other anonymous struct of it. -/
def outerStructs : TypeExpr → List StructType
  | .scalar _ => []
  | .enum _ => []
  | .array items => outerStructs items
  | .map values => outerStructs values
  | .struct ⟨some _, _, fields⟩ => fieldOuterStructs fields
  | .struct ⟨none, docs, fields⟩ => [⟨none, docs, fields⟩]
  | .reference _ => []

/-- The outer structs of the types of some fields. -/
def fieldOuterStructs : List (Field TypeExpr) → List StructType
  | [] => []
  | ⟨_, type, _, _⟩ :: fields => outerStructs type ++ fieldOuterStructs fields

end

/-- The outer structs of a section or a definition, which is no outer struct itself. -/
def rootOuterStructs : TypeExpr → List StructType
  | .struct s => fieldOuterStructs s.fields
  | type => outerStructs type

/-- The outer structs of the fields of the different structs in `seen`. -/
def innerStructs (seen : List StructType) : List StructType :=
  seen.dedup.flatMap fun s => fieldOuterStructs s.fields

variable {seen : List StructType} {s : StructType}

private theorem innerStructs_cons_of_mem (h : s ∈ seen) :
    innerStructs (s :: seen) = innerStructs seen := by
  rw [innerStructs, List.dedup_cons_of_mem h, innerStructs]

private theorem innerStructs_cons_of_not_mem (h : s ∉ seen) :
    innerStructs (s :: seen) = fieldOuterStructs s.fields ++ innerStructs seen := by
  rw [innerStructs, List.dedup_cons_of_notMem h, List.flatMap_cons, innerStructs]

/-! ### What a walk adds to the count -/

variable (s)

mutual

/-- A walk through a type counts its outer structs, and those inside each struct that it is the
first to see. -/
theorem count_sightings : ∀ (type : TypeExpr) (seen : List StructType),
    (sightings seen type).count s + (innerStructs seen).count s =
      seen.count s + (outerStructs type).count s + (innerStructs (sightings seen type)).count s
  | .scalar _, seen => by simp [sightings, outerStructs]
  | .enum _, seen => by simp [sightings, outerStructs]
  | .array items, seen => by
    rw [sightings, outerStructs]
    exact count_sightings items seen
  | .map values, seen => by
    rw [sightings, outerStructs]
    exact count_sightings values seen
  | .struct ⟨some _, _, fields⟩, seen => by
    rw [sightings, outerStructs]
    exact count_fieldSightings fields seen
  | .struct ⟨none, docs, fields⟩, seen => by
    rw [sightings, outerStructs]
    by_cases hseen : ⟨none, docs, fields⟩ ∈ seen
    · rw [if_pos hseen, innerStructs_cons_of_mem hseen]
      simp only [List.count_cons, List.count_nil]
      omega
    · rw [if_neg hseen]
      -- The fields are walked through with the struct among those that have been seen.
      have hfields := count_fieldSightings fields (⟨none, docs, fields⟩ :: seen)
      rw [innerStructs_cons_of_not_mem hseen, List.count_append, List.count_cons] at hfields
      simp only [List.count_cons, List.count_nil] at hfields ⊢
      omega
  | .reference _, seen => by simp [sightings, outerStructs]

theorem count_fieldSightings : ∀ (fields : List (Field TypeExpr)) (seen : List StructType),
    (fieldSightings seen fields).count s + (innerStructs seen).count s =
      seen.count s + (fieldOuterStructs fields).count s +
        (innerStructs (fieldSightings seen fields)).count s
  | [], seen => by simp [fieldSightings, fieldOuterStructs]
  | ⟨_, type, _, _⟩ :: fields, seen => by
    have htype := count_sightings type seen
    have hfields := count_fieldSightings fields (sightings seen type)
    rw [fieldSightings, fieldOuterStructs, List.count_append]
    omega

end

private theorem count_rootSightings (type : TypeExpr) (seen : List StructType) :
    (rootSightings seen type).count s + (innerStructs seen).count s =
      seen.count s + (rootOuterStructs type).count s +
        (innerStructs (rootSightings seen type)).count s := by
  cases type with
  | struct t => exact count_fieldSightings s t.fields seen
  | _ => exact count_sightings s _ seen

/-- A walk through definitions counts what walks through their types count. -/
private theorem count_definitionSightings (definitions : List Definition) (seen : List StructType) :
    (definitions.foldl (fun seen d => d.type.rootSightings seen) seen).count s +
        (innerStructs seen).count s =
      seen.count s + (definitions.flatMap (·.type.rootOuterStructs)).count s +
        (innerStructs (definitions.foldl (fun seen d => d.type.rootSightings seen) seen)).count
          s := by
  induction definitions generalizing seen with
  | nil => simp
  | cons d definitions ih =>
    have htype := count_rootSightings s d.type seen
    have hdefinitions := ih (d.type.rootSightings seen)
    rw [List.foldl_cons, List.flatMap_cons, List.count_append]
    omega

end TypeExpr

namespace Kind

/-- The outer structs of the sections of `k`. -/
def sectionOuterStructs (k : Kind) : List StructType :=
  k.metadata.type.rootOuterStructs ++
    (TypeExpr.fieldOuterStructs k.spec.fields ++ TypeExpr.fieldOuterStructs k.status.fields)

/-- The struct `s` is counted as often as it is outer in a section of `k`, in a definition or in the
fields of one of the different structs that are counted. -/
theorem count_sightings (k : Kind) (s : StructType) : k.sightings.count s =
    k.sectionOuterStructs.count s + (k.definitions.flatMap (·.type.rootOuterStructs)).count s +
      (TypeExpr.innerStructs k.sightings).count s := by
  have hmetadata := TypeExpr.count_rootSightings s k.metadata.type []
  have hspec := TypeExpr.count_fieldSightings s k.spec.fields
    (TypeExpr.rootSightings [] k.metadata.type)
  have hstatus := TypeExpr.count_fieldSightings s k.status.fields
    (TypeExpr.fieldSightings (TypeExpr.rootSightings [] k.metadata.type) k.spec.fields)
  have hdefinitions := TypeExpr.count_definitionSightings s k.definitions
    (TypeExpr.fieldSightings
      (TypeExpr.fieldSightings (TypeExpr.rootSightings [] k.metadata.type) k.spec.fields)
      k.status.fields)
  have hnone : (TypeExpr.innerStructs []).count s = 0 := rfl
  rw [List.count_nil] at hmetadata
  rw [sectionOuterStructs, List.count_append, List.count_append, sightings]
  omega

end Kind

end KindSchema
