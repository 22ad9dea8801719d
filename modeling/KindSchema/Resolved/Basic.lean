import KindSchema.Resolved.Shape

/-!
# Resolved kinds

A resolved kind is a kind in which every nested struct has either been kept where it stands or been
lifted to a named declaration, and in which every reference has been checked.

`ResolvedKind.reachable` gives the declarations that some shapes depend on. It is computed by
`gather`, which follows an edge relation from a list of seeds inside a finite domain; each round
removes a node from the domain, so cycles do no harm.
-/

namespace KindSchema

/-- What a declared name stands for. -/
inductive Body
  | struct (fields : List (Field Shape))
  | enum (values : List String)
  /-- Another name for a shape. -/
  | synonym (shape : Shape)
deriving Repr, Inhabited

/-- The names that a body mentions. -/
def Body.names : Body → List String
  | .struct fields => Shape.fieldNames fields
  | .enum _ => []
  | .synonym shape => shape.names

/-- Why there is a declaration. -/
inductive Origin
  /-- It stands for a definition of that name, of the kind or built in. -/
  | defined
  /-- It was lifted from its first place of use, the field at a path. -/
  | lifted (path : List String)
deriving DecidableEq, Repr

/-- A named type of a resolved kind. -/
structure Declaration where
  name : String
  docs : List String
  body : Body
  origin : Origin
deriving Repr

/-- A kind after resolution. -/
structure ResolvedKind where
  name : String
  machineName : String
  description : List String
  metadata : Field Shape
  spec : Field Shape
  status : Field Shape
  /-- The declarations, in the order in which the sections first mention them. -/
  declarations : List Declaration
deriving Repr

/-- The nodes of `remaining` that can be reached from `pending` inside `remaining` along the edges
`next`, the seeds included. -/
def gather {α : Type} [DecidableEq α] (next : α → List α) (remaining pending : List α) : List α :=
  match _found : pending.find? remaining.contains with
  | none => []
  | some selected => selected :: gather next (remaining.erase selected) (next selected ++ pending)
termination_by remaining.length
decreasing_by
  -- The selected node leaves the domain.
  have member : selected ∈ remaining := List.contains_iff_mem.mp (List.find?_some _found)
  have smaller := List.length_erase_of_mem member
  have positive := List.length_pos_of_mem member
  omega

namespace ResolvedKind

/-- The three sections of `k`, in the order in which they are written. -/
def envelope (k : ResolvedKind) : List (Field Shape) :=
  [k.metadata, k.spec, k.status]

/-- The fields of the spec of `k`. -/
def specFields (k : ResolvedKind) : List (Field Shape) :=
  match k.spec.type with
  | .struct fields => fields
  | _ => []

/-- The declaration of `name` in `k`. -/
def declaration? (k : ResolvedKind) (name : String) : Option Declaration :=
  k.declarations.find? (·.name == name)

/-- The names that the declaration of `name` mentions; none if there is no declaration. -/
def mentions (k : ResolvedKind) (name : String) : List String :=
  match k.declaration? name with
  | some d => d.body.names
  | none => []

/-- The declarations that `roots` mention, directly or through other declarations, in the order of
the declarations. -/
def reachable (k : ResolvedKind) (roots : List Shape) : List Declaration :=
  let names := gather k.mentions (k.declarations.map (·.name)) (roots.flatMap (·.names))
  k.declarations.filter (names.contains ·.name)

end ResolvedKind

end KindSchema
