import KindSchema.Kind.Basic
import KindSchema.Kind.Error
import KindSchema.Text.Blank

/-!
# Well-formedness of kinds

`Kind.validate` checks the rules that need no look at what references mean: the names of the kind
and of its definitions, and everywhere in its types the names of fields, the literals of
enumerations and the names in references. It finds the first violation in the order name, machine
name, definitions, `metadata`, `spec`, `status`.
-/

namespace KindSchema

/-- The first element of a list that occurs in `seen` or earlier in the list. -/
def firstRepeated? (seen : List String) : List String → Option String
  | [] => none
  | a :: as => if a ∈ seen then some a else firstRepeated? (a :: seen) as

namespace TypeExpr

mutual

/-- Checks a type at the field path `path`. The element type of an array or a map has the path of
the whole. -/
def validate (path : String) : TypeExpr → Except SchemaError Unit
  | .scalar _ => .ok ()
  | .enum values =>
    if values = [] then .error (.emptyEnum path)
    else match firstRepeated? [] values with
      | some value => .error (.duplicateEnumValue path value)
      | none => .ok ()
  | .array items => validate path items
  | .map values => validate path values
  | .struct ⟨_, _, fields⟩ => validateFields path [] fields
  | .reference name => if name = "" then .error (.emptyName path) else .ok ()

/-- Checks the fields of the struct at a path; `seen` holds the names of the fields before them. -/
def validateFields (path : String) (seen : List String) :
    List (Field TypeExpr) → Except SchemaError Unit
  | [] => .ok ()
  | ⟨name, type, _, _⟩ :: fields =>
    if name = "" then .error (.emptyName path)
    else if name ∈ seen then .error (.duplicateField path name)
    else do
      validate (path ++ "." ++ name) type
      validateFields path (name :: seen) fields

end

end TypeExpr

namespace Kind

/-- Checks definitions of a kind; `seen` holds the names of those before them. -/
def validateDefinitions (kindName : String) (seen : List String) :
    List Definition → Except SchemaError Unit
  | [] => .ok ()
  | d :: definitions =>
    if d.name = "" then .error (.emptyName "definitions")
    else if d.name = kindName then .error (.definitionShadowsKind d.name)
    else if d.name ∈ seen then .error (.duplicateDefinition d.name)
    else do
      d.type.validate d.name
      validateDefinitions kindName (d.name :: seen) definitions

/-- Checks the names of `k`. -/
def validateNames (k : Kind) : Except SchemaError Unit :=
  if isBlankText k.name then .error .emptyKindName
  else if !Naming.isPascalIdentifier k.name then .error (.invalidKindName k.name)
  else if !Naming.isMachineName k.machineName then .error (.invalidMachineName k.machineName)
  else if (builtinDefinition? k.name).isSome then .error (.definitionShadowsKind k.name)
  else .ok ()

/-- Checks `k`: the first rule it violates, if there is one. -/
def validate (k : Kind) : Except SchemaError Unit := do
  k.validateNames
  validateDefinitions k.name [] k.definitions
  k.metadata.type.validate "metadata"
  TypeExpr.validateFields "spec" [] k.spec.fields
  TypeExpr.validateFields "status" [] k.status.fields

end Kind

end KindSchema
