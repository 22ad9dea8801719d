import KindSchema.Go.Basic
import KindSchema.Naming
import KindSchema.Output.Unsupported
import KindSchema.Resolved.Basic

/-!
# Shapes in Go

How the shapes and declarations of a resolved kind become Go. The name of a field is an identifier
made of its key, and no two fields of a struct may have the same one. An optional field is a
pointer, unless its type has a nil value of its own: an array, a map or a value of any form. An
enumeration must be declared, and its constants are named for its literals; again no two may have
the same name.

Whether a file needs the package of times is told from its shapes, not from the Go types that are
made of them.
-/

namespace KindSchema.Go

/-- Whether an optional field of a shape is a pointer. -/
def needsPointer : Shape → Bool
  | .array _ => false
  | .map _ => false
  | .scalar kind => kind != .any
  | _ => true

mutual

/-- The Go type of a shape at the field path `path`. -/
def typeOf (path : String) : Shape → Except Unsupported GoType
  | .scalar kind => .ok (.scalar kind)
  | .enum _ => .error (.inlineEnum path)
  | .array items => do return .slice (← typeOf path items)
  | .map values => do return .map (← typeOf path values)
  | .struct fields => do return .struct (← membersOf path [] fields)
  | .named name => .ok (.named name)

/-- The members for the fields of the struct at a path; `earlier` holds the Go names and the keys of
the members before them. -/
def membersOf (path : String) (earlier : List (String × String)) :
    List (Field Shape) → Except Unsupported (List (Member GoType))
  | [] => .ok []
  | ⟨key, type, optional, docs⟩ :: fields =>
    match Naming.identifier? key with
    | none => .error (.fieldName key path)
    | some name => do
      let goType ← typeOf (path ++ "." ++ key) type
      match earlier.lookup name with
      | some other => .error (.sameFieldName other key path name)
      | none =>
        let rest ← membersOf path (earlier ++ [(name, key)]) fields
        return {
          docs, key, name
          type := if optional && needsPointer type then .pointer goType else goType
          omitEmpty := optional } :: rest

end

/-- The declaration of `name` as a struct with `fields`. -/
def structDeclaration (name : String) (docs : List String) (fields : List (Field Shape)) :
    Except Unsupported TypeDeclaration := do
  return { name, docs, underlying := .struct (← membersOf name [] fields) }

/-- The declaration of `name` as a type for `shape`. -/
def shapeDeclaration (name : String) (docs : List String) (shape : Shape) :
    Except Unsupported TypeDeclaration := do
  return { name, docs, underlying := .type (← typeOf name shape) }

/-- The Go declaration of `d`. -/
def typeDeclaration (d : Declaration) : Except Unsupported TypeDeclaration :=
  match d.body with
  | .struct fields => structDeclaration d.name d.docs fields
  | .enum _ => .ok { name := d.name, docs := d.docs, underlying := .enum }
  | .synonym shape => shapeDeclaration d.name d.docs shape

/-- The constants for the literals of an enumeration; `earlier` holds the constants before them. -/
def constantsOf (type : String) (earlier : List (String × String)) :
    List String → Except Unsupported (List (String × String))
  | [] => .ok []
  | value :: values =>
    match Naming.identifier? value with
    | none => .error (.enumLiteral value type)
    | some word =>
      match earlier.lookup (type ++ word) with
      | some other => .error (.sameConstant other value (type ++ word))
      | none => do
        let rest ← constantsOf type (earlier ++ [(type ++ word, value)]) values
        return (type ++ word, value) :: rest

/-- The constants of the enumerations among some declarations. -/
def constantBlocks : List Declaration → Except Unsupported (List ConstantBlock)
  | [] => .ok []
  | d :: declarations =>
    match d.body with
    | .enum values => do
      let constants ← constantsOf d.name [] values
      let rest ← constantBlocks declarations
      return { type := d.name, constants } :: rest
    | _ => constantBlocks declarations

/-! ### Times -/

mutual

/-- Whether a shape has a time in it, at any depth. -/
def usesTime : Shape → Bool
  | .scalar kind => kind == .dateTime
  | .enum _ => false
  | .named _ => false
  | .array items => usesTime items
  | .map values => usesTime values
  | .struct fields => fieldsUseTime fields

/-- Whether one of the fields has a time in its type. -/
def fieldsUseTime : List (Field Shape) → Bool
  | [] => false
  | ⟨_, type, _, _⟩ :: fields => usesTime type || fieldsUseTime fields

end

/-- Whether one of `declarations` has a time in it. -/
def declarationsUseTime (declarations : List Declaration) : Bool :=
  declarations.any fun d =>
    match d.body with
    | .struct fields => fieldsUseTime fields
    | .enum _ => false
    | .synonym shape => usesTime shape

/-! ### Files -/

/-- The file of `package` that declares a type `root` and some declarations. Types and blocks of
constants are sorted by name. What cannot be expressed is looked for in the root, then in the
declarations as they come, then in the constants. -/
def fileOf (package : String) (usesTime : Bool) (root : Except Unsupported TypeDeclaration)
    (declarations : List Declaration) : Except Unsupported File := do
  let root ← root
  let types ← declarations.mapM typeDeclaration
  let blocks ← constantBlocks (declarations.mergeSort fun a b => decide (a.name ≤ b.name))
  return {
    package, usesTime, blocks
    types := (root :: types).mergeSort fun a b => decide (a.name ≤ b.name) }

end KindSchema.Go
