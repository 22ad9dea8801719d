import KindSchema.Output.Params
import KindSchema.Resolved.Basic

/-!
# Arrangement

What the parameters do to a resolved kind before it is rendered, whatever the target: the members
of structs are put in order at every depth, and a `metadata` section that refers to a struct may
be given that struct in place. The three sections keep their order.
-/

namespace KindSchema

/-- What is sorted by `key` is in the order of the keys. -/
theorem pairwise_mergeSort_key {α : Type} (key : α → String) (xs : List α) :
    (xs.mergeSort fun a b => decide (key a ≤ key b)).Pairwise fun a b => key a ≤ key b := by
  have hsorted : (xs.mergeSort fun a b => decide (key a ≤ key b)).Pairwise fun a b =>
      decide (key a ≤ key b) = true := by
    refine List.pairwise_mergeSort (fun a b c hab hbc => ?_) (fun a b => ?_) xs
    · exact decide_eq_true (String.le_trans (of_decide_eq_true hab) (of_decide_eq_true hbc))
    · simpa using String.le_total (key a) (key b)
  exact hsorted.imp fun h => of_decide_eq_true h

/-- The fields in `order`; those of equal names stay in the order they have. -/
def MemberOrder.sort (order : MemberOrder) (fields : List (Field Shape)) : List (Field Shape) :=
  match order with
  | .declared => fields
  | .alphabetical => fields.mergeSort fun f g => decide (f.name ≤ g.name)

/-- Sorting by `order` neither loses nor adds a field. -/
theorem MemberOrder.sort_perm (order : MemberOrder) (fields : List (Field Shape)) :
    (order.sort fields).Perm fields := by
  cases order with
  | declared => exact .refl _
  | alphabetical => exact List.mergeSort_perm _ _

namespace Shape

mutual

/-- The shape with the members of its structs in `order`, at every depth. -/
def arrange (order : MemberOrder) : Shape → Shape
  | .scalar kind => .scalar kind
  | .enum values => .enum values
  | .array items => .array (arrange order items)
  | .map values => .map (arrange order values)
  | .struct fields => .struct (order.sort (arrangeTypes order fields))
  | .named name => .named name

/-- The fields in the order they have, each with its type arranged by `order`. -/
def arrangeTypes (order : MemberOrder) : List (Field Shape) → List (Field Shape)
  | [] => []
  | ⟨name, type, optional, docs⟩ :: fields =>
    ⟨name, arrange order type, optional, docs⟩ :: arrangeTypes order fields

end

theorem arrangeTypes_eq_map (order : MemberOrder) (fields : List (Field Shape)) :
    arrangeTypes order fields = fields.map fun f => f.withType (f.type.arrange order) := by
  induction fields with
  | nil => rfl
  | cons f fields ih => cases f; simp [arrangeTypes, Field.withType, ih]

end Shape

/-- The body with the members of its structs in `order`. -/
def Body.arrange (order : MemberOrder) : Body → Body
  | .struct fields => .struct (order.sort (Shape.arrangeTypes order fields))
  | .enum values => .enum values
  | .synonym shape => .synonym (shape.arrange order)

namespace ResolvedKind

/-- The kind `k` with the members of all structs in `order`. -/
def arrange (order : MemberOrder) (k : ResolvedKind) : ResolvedKind :=
  let arranged (f : Field Shape) := f.withType (f.type.arrange order)
  { k with
    metadata := arranged k.metadata
    spec := arranged k.spec
    status := arranged k.status
    declarations := k.declarations.map fun d => { d with body := d.body.arrange order } }

/-- The kind `k` with a metadata section that refers to a struct expanded, if `mode` says so. -/
def expandMetadata (mode : MetadataMode) (k : ResolvedKind) : ResolvedKind :=
  match mode, k.metadata.type with
  | .expanded, .named name =>
    match (k.declaration? name).map Declaration.body with
    | some (.struct fields) => { k with metadata := k.metadata.withType (.struct fields) }
    | _ => k
  | _, _ => k

/-- The kind `k` as it is rendered under `params`. -/
def presented (params : Params) (k : ResolvedKind) : ResolvedKind :=
  (k.expandMetadata params.metadata).arrange params.memberOrder

/-- The declarations that the sections of `k` depend on. -/
def reachableDeclarations (k : ResolvedKind) : List Declaration :=
  k.reachable (k.envelope.map (·.type))

/-- The members of the standalone declaration of the spec of `k`: in an order of its own, their
types in the order of members. -/
def standaloneSpec (params : Params) (k : ResolvedKind) : List (Field Shape) :=
  params.specDeclarationOrder.sort (Shape.arrangeTypes params.memberOrder k.specFields)

end ResolvedKind

end KindSchema
