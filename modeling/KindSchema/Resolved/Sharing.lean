import KindSchema.Kind.Basic

/-!
# Shared structs

A struct without a name annotation that is written at several places of a kind is one type, and
gets one declaration. `Kind.sightings` lists the anonymous structs of a kind, each as often as it
is met; a struct is shared if it is met twice.

Inside a struct that has been met before nothing is counted again, so that a struct that occurs
only inside a shared one is not itself shared. The sections and the types of definitions are no
structs to be shared, but what they contain is.
-/

namespace KindSchema

namespace TypeExpr

mutual

/-- Adds the anonymous structs of a type to `seen`, those met before. -/
def sightings (seen : List StructType) : TypeExpr → List StructType
  | .scalar _ => seen
  | .enum _ => seen
  | .array items => sightings seen items
  | .map values => sightings seen values
  | .struct ⟨some _, _, fields⟩ => fieldSightings seen fields
  | .struct ⟨none, docs, fields⟩ =>
    -- The second sight of a struct counts, but what is inside it has been counted at the first.
    if ⟨none, docs, fields⟩ ∈ seen then ⟨none, docs, fields⟩ :: seen
    else fieldSightings (⟨none, docs, fields⟩ :: seen) fields
  | .reference _ => seen

/-- Adds the anonymous structs in the types of fields to `seen`, those met before. -/
def fieldSightings (seen : List StructType) : List (Field TypeExpr) → List StructType
  | [] => seen
  | ⟨_, type, _, _⟩ :: fields => fieldSightings (sightings seen type) fields

end

/-- Adds the anonymous structs of a section or a definition to `seen`, those met before, except the
type itself. -/
def rootSightings (seen : List StructType) : TypeExpr → List StructType
  | .struct s => fieldSightings seen s.fields
  | type => sightings seen type

end TypeExpr

namespace Kind

/-- The anonymous structs of `k`, each as often as it is met. -/
def sightings (k : Kind) : List StructType :=
  let metadata := TypeExpr.rootSightings [] k.metadata.type
  let spec := TypeExpr.fieldSightings metadata k.spec.fields
  let status := TypeExpr.fieldSightings spec k.status.fields
  k.definitions.foldl (fun seen d => d.type.rootSightings seen) status

end Kind

end KindSchema
