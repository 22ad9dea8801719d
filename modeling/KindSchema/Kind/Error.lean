/-!
# What can be wrong with a kind

The errors of a single kind: in its own structure, in its references, in the document it was read
from, and in the place where its files would go.
-/

namespace KindSchema

/-- An error of a kind. A `path` is a field path, its segments joined by dots. -/
inductive SchemaError
  | emptyKindName
  /-- The name of the kind is no identifier in pascal case. -/
  | invalidKindName (name : String)
  /-- The machine name cannot be a directory and a package name. -/
  | invalidMachineName (name : String)
  /-- A definition has the name of the kind. -/
  | definitionShadowsKind (name : String)
  /-- A field, a definition or a reference has no name. -/
  | emptyName (path : String)
  | duplicateField (path field : String)
  | duplicateDefinition (name : String)
  /-- An enumeration without literals. -/
  | emptyEnum (path : String)
  | duplicateEnumValue (path value : String)
  /-- A reference to a name that is defined nowhere. -/
  | unresolvedReference (path name : String)
  /-- A definition refers to itself along the chain of names. -/
  | cycle (chain : List String)
  /-- The document of the kind cannot be used. -/
  | malformed (source message : String)
  /-- Several kinds claim one path. -/
  | duplicateOutputPath (path : String) (kinds : List String)
deriving DecidableEq, Repr

namespace SchemaError

/-- A short label for reports. -/
def code : SchemaError → String
  | .emptyKindName => "empty_kind_name"
  | .invalidKindName _ => "invalid_kind_name"
  | .invalidMachineName _ => "invalid_machine_name"
  | .definitionShadowsKind _ => "definition_shadows_kind"
  | .emptyName _ => "empty_name"
  | .duplicateField _ _ => "duplicate_field"
  | .duplicateDefinition _ => "duplicate_definition"
  | .emptyEnum _ => "empty_enum"
  | .duplicateEnumValue _ _ => "duplicate_enum_value"
  | .unresolvedReference _ _ => "unresolved_reference"
  | .cycle _ => "cycle"
  | .malformed _ _ => "malformed"
  | .duplicateOutputPath _ _ => "duplicate_output_path"

/-- The text of an error. -/
def message : SchemaError → String
  | .emptyKindName => "kind name cannot be empty"
  | .invalidKindName name =>
    "invalid kind name '" ++ name ++ "' (expected a PascalCase identifier)"
  | .invalidMachineName name =>
    "invalid machine name '" ++ name ++ "' (expected [a-z][a-z0-9_]*)"
  | .definitionShadowsKind name => "definition '" ++ name ++ "' has the same name as its kind"
  | .emptyName path => "empty name at " ++ path
  | .duplicateField path field => "duplicate field '" ++ field ++ "' in " ++ path
  | .duplicateDefinition name => "duplicate definition '" ++ name ++ "'"
  | .emptyEnum path => "enum at " ++ path ++ " has no values"
  | .duplicateEnumValue path value => "duplicate enum value '" ++ value ++ "' at " ++ path
  | .unresolvedReference path name => "unresolved reference '" ++ name ++ "' at " ++ path
  | .cycle chain => "cyclic reference: " ++ " -> ".intercalate chain
  | .malformed source message => "malformed kind " ++ source ++ ": " ++ message
  | .duplicateOutputPath path kinds =>
    "output path " ++ path ++ " is claimed by " ++ ", ".intercalate kinds

end SchemaError

end KindSchema
