/-!
# Type expressions

The closed set of types a schema is written in: scalars, enumerations of string literals, arrays,
maps with string keys, structs, and references to named definitions. The order of fields and of
literals matters.

Two type expressions are equal when they are written the same, name annotations and documentation
included; `TypeExpr.beq` decides this, and is lawful.
-/

namespace KindSchema

/-- The leaf types. -/
inductive Scalar
  | string
  /-- A string that holds an RFC 3339 timestamp. -/
  | dateTime
  | boolean
  | int64
  | float64
  /-- A value of any form. -/
  | any
deriving DecidableEq, Repr

/-- All leaf types, in the order in which they are listed to the user. -/
def Scalar.all : List Scalar := [.string, .dateTime, .boolean, .int64, .float64, .any]

/-- The name of a leaf type in a schema. -/
def Scalar.name : Scalar → String
  | .string => "string"
  | .dateTime => "dateTime"
  | .boolean => "boolean"
  | .int64 => "int64"
  | .float64 => "float64"
  | .any => "any"

/-- A named member of a struct, with a type of the sort `τ`. Documentation is a list of lines. -/
structure Field (τ : Type) where
  name : String
  type : τ
  optional : Bool := false
  docs : List String := []
deriving DecidableEq, Repr

/-- The field `f` with `type` in place of its own type. -/
def Field.withType {τ υ : Type} (f : Field τ) (type : υ) : Field υ :=
  { name := f.name, type, optional := f.optional, docs := f.docs }

/-- A struct over types of the sort `τ`: an optional name annotation, the documentation of the
struct as a concept of its own, and its fields in order. -/
structure Struct (τ : Type) where
  name : Option String := none
  docs : List String := []
  fields : List (Field τ)
deriving DecidableEq, Repr

/-- Whether `s` has no name annotation. -/
def Struct.isAnonymous {τ : Type} (s : Struct τ) : Bool :=
  s.name.isNone

/-- A type as a schema writes it. -/
inductive TypeExpr
  | scalar (kind : Scalar)
  /-- A closed set of string literals. -/
  | enum (values : List String)
  | array (items : TypeExpr)
  /-- A mapping from strings to values of one type. -/
  | map (values : TypeExpr)
  | struct (type : Struct TypeExpr)
  /-- A definition, local to the kind or built in. -/
  | reference (name : String)
deriving Repr, Inhabited

/-- A struct as a schema writes it. -/
abbrev StructType := Struct TypeExpr

namespace TypeExpr

/-- The type of texts. -/
def string : TypeExpr := .scalar .string

/-- The type of timestamps. -/
def dateTime : TypeExpr := .scalar .dateTime

/-- The type of truth values. -/
def boolean : TypeExpr := .scalar .boolean

/-- The type of arbitrary values. -/
def any : TypeExpr := .scalar .any

mutual

/-- Equality of type expressions. -/
def beq : TypeExpr → TypeExpr → Bool
  | .scalar a, .scalar b => a == b
  | .enum a, .enum b => a == b
  | .array a, .array b => beq a b
  | .map a, .map b => beq a b
  | .struct ⟨n, d, fs⟩, .struct ⟨m, e, gs⟩ => n == m && d == e && beqFields fs gs
  | .reference a, .reference b => a == b
  | _, _ => false

/-- Equality of lists of fields. -/
def beqFields : List (Field TypeExpr) → List (Field TypeExpr) → Bool
  | [], [] => true
  | ⟨n, t, o, d⟩ :: fs, ⟨m, u, p, e⟩ :: gs =>
    n == m && beq t u && o == p && d == e && beqFields fs gs
  | _, _ => false

end

mutual

theorem beq_eq_true_iff : ∀ a b : TypeExpr, beq a b = true ↔ a = b
  | .scalar a, b => by cases b <;> simp [beq]
  | .enum a, b => by cases b <;> simp [beq]
  | .array a, b => by cases b <;> simp [beq, beq_eq_true_iff a]
  | .map a, b => by cases b <;> simp [beq, beq_eq_true_iff a]
  | .struct ⟨n, d, fs⟩, b => by
    cases b with
    | struct s => cases s; simp [beq, beqFields_eq_true_iff fs, and_assoc]
    | _ => simp [beq]
  | .reference a, b => by cases b <;> simp [beq]

theorem beqFields_eq_true_iff :
    ∀ fs gs : List (Field TypeExpr), beqFields fs gs = true ↔ fs = gs
  | [], gs => by cases gs <;> simp [beqFields]
  | ⟨n, t, o, d⟩ :: fs, gs => by
    cases gs with
    | nil => simp [beqFields]
    | cons g gs => cases g; simp [beqFields, beq_eq_true_iff t, beqFields_eq_true_iff fs, and_assoc]

end

instance : DecidableEq TypeExpr := fun a b =>
  decidable_of_iff (beq a b = true) (beq_eq_true_iff a b)

end TypeExpr

end KindSchema
