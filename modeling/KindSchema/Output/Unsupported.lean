/-!
# What a target cannot express

A kind may be sound and still have no form in a target language: a name that is no identifier there,
two names that become one, a type without a name of its own.
-/

namespace KindSchema

/-- Why a kind cannot be rendered. -/
inductive Unsupported
  /-- The name of a field of the struct at a path is no Go identifier. -/
  | fieldName (name path : String)
  /-- Two fields of the struct at a path have the same Go name. -/
  | sameFieldName (first second path goName : String)
  /-- An enumeration without a name in Go. -/
  | inlineEnum (path : String)
  /-- A literal of an enumeration is no Go identifier. -/
  | enumLiteral (literal declaration : String)
  /-- Two literals of an enumeration have the same Go constant. -/
  | sameConstant (first second constant : String)
  /-- The name of a section is no Go identifier. -/
  | sectionName (name : String)
  /-- A declaration has the name of the Go type of a section. -/
  | sectionShadowed (declaration : String)
  /-- Two kinds of one name in a TypeScript index. -/
  | kindTwice (name : String)
  /-- Two kinds of one machine name in a TypeScript index. -/
  | moduleTwice (machineName : String)
deriving DecidableEq, Repr

namespace Unsupported

/-- What cannot be expressed. -/
def construct : Unsupported → String
  | .fieldName name path => "field name '" ++ name ++ "' at " ++ path
  | .sameFieldName first second path goName =>
    "fields '" ++ first ++ "' and '" ++ second ++ "' at " ++ path ++ " both map to Go field '" ++
      goName ++ "'"
  | .inlineEnum path => "inline enum at " ++ path
  | .enumLiteral literal declaration => "enum literal '" ++ literal ++ "' in " ++ declaration
  | .sameConstant first second constant =>
    "enum literals '" ++ first ++ "' and '" ++ second ++ "' both map to Go constant '" ++
      constant ++ "'"
  | .sectionName name => "section name '" ++ name ++ "'"
  | .sectionShadowed declaration =>
    "declaration '" ++ declaration ++ "' shadows the section type of the same name"
  | .kindTwice name => "kind '" ++ name ++ "' exported twice"
  | .moduleTwice machineName =>
    "module './" ++ machineName ++ "/" ++ machineName ++ "_types.gen' exported twice"

/-- The language that cannot express it. -/
def language : Unsupported → String
  | .kindTwice _ | .moduleTwice _ => "typescript"
  | _ => "go"

/-- The text of `u`. -/
def message (u : Unsupported) : String :=
  "unsupported construct " ++ u.construct ++ " for target language " ++ u.language

end Unsupported

end KindSchema
