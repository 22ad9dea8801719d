import KindSchema.Kind.TypeExpr

/-!
# Shapes

A shape is a type after resolution. It differs from a type expression in two ways: a struct in it is
anonymous and stands where it is used, and a name in it means a declaration of the resolved kind.
`Shape.names` lists the names that a shape mentions, from left to right and with repetitions.
-/

namespace KindSchema

/-- A type after resolution. -/
inductive Shape
  | scalar (kind : Scalar)
  /-- A closed set of string literals. -/
  | enum (values : List String)
  | array (items : Shape)
  /-- A mapping from strings to values of one shape. -/
  | map (values : Shape)
  /-- A struct without a name. -/
  | struct (fields : List (Field Shape))
  /-- A declaration of the resolved kind. -/
  | named (name : String)
deriving Repr, Inhabited

namespace Shape

mutual

/-- The names that a shape mentions. -/
def names : Shape → List String
  | .scalar _ => []
  | .enum _ => []
  | .array items => names items
  | .map values => names values
  | .struct fields => fieldNames fields
  | .named name => [name]

/-- The names that the types of some fields mention. -/
def fieldNames : List (Field Shape) → List String
  | [] => []
  | ⟨_, type, _, _⟩ :: fields => names type ++ fieldNames fields

end

/-- The names that the types of `fields` mention are those of the fields, in order. -/
theorem fieldNames_eq_flatMap (fields : List (Field Shape)) :
    fieldNames fields = fields.flatMap (·.type.names) := by
  induction fields with
  | nil => rfl
  | cons f fields ih => cases f; simp [fieldNames, ih]

end Shape

end KindSchema
