import KindSchema.Output.Arrangement
import KindSchema.Text.Pieces

/-!
# TypeScript interfaces

The module of a kind: a standalone interface `spec`, an interface of the kind with its sections as
members, and a declaration for everything that these depend on.

The members of a struct stand one level deeper than the struct, each ended by a semicolon. Where a
struct is an argument of `Array` or `Record` it is written flush instead, whatever its level:
members at the first level, each ended by a comma, and the closing brace at the margin.
-/

namespace KindSchema.TypeScript

/-- The indentation of `level`: two blanks for each. -/
def indent (level : Nat) : String :=
  repeated level "  "

/-- How `c` is written inside single quotes. -/
def escapeChar (c : Char) : List Char :=
  if c = '\\' ∨ c = '\'' then ['\\', c] else [c]

/-- The string literal of `s` in single quotes. -/
def stringLiteral (s : String) : String :=
  String.ofList ('\'' :: s.toList.flatMap escapeChar ++ ['\''])

/-- Whether `c` can start a property name without quotes. -/
def isNameStart (c : Char) : Bool :=
  c.isAlpha || c == '_' || c == '$'

/-- Whether `s` can be a property name without quotes. -/
def isName (s : String) : Bool :=
  match s.toList with
  | [] => false
  | c :: cs => isNameStart c && cs.all fun c => isNameStart c || c.isDigit

/-- The name of the property `s`, in quotes unless it is a name as it stands. -/
def propertyName (s : String) : String :=
  if isName s then s else stringLiteral s

/-- The line `line` of documentation inside a comment, where it must not end the comment. -/
def docLine (level : Nat) (line : String) : String :=
  if line = "" then indent level ++ " *\n"
  else
    indent level ++ " * " ++
      String.ofList (replaceAll ['*', '/'] ['*', '\\', '/'] line.toList) ++ "\n"

/-- The documentation `docs` as a comment at `level`; nothing if there is none. -/
def docComment (level : Nat) (docs : List String) : String :=
  if docs.isEmpty then ""
  else
    indent level ++ "/**\n" ++ String.join (docs.map (docLine level)) ++ indent level ++ " */\n"

/-- The name of a leaf type. -/
def scalarName : Scalar → String
  | .string | .dateTime => "string"
  | .int64 | .float64 => "number"
  | .boolean => "boolean"
  | .any => "unknown"

/-- The union of the literals of `values`. -/
def union (values : List String) : String :=
  "(" ++ " | ".intercalate (values.map stringLiteral) ++ ")"

mutual

/-- The text of a type that stands at a level; `argument` tells whether it is an argument of
`Array` or `Record`. -/
def typeText (argument : Bool) (level : Nat) : Shape → String
  | .scalar kind => scalarName kind
  | .enum values => union values
  | .array items => "Array<" ++ typeText true level items ++ ">"
  | .map values => "Record<string, " ++ typeText true level values ++ ">"
  | .struct [] => "\x7b\x7d"
  | .struct (field :: fields) =>
    if argument then "\x7b\n" ++ membersText 1 "," (field :: fields) ++ "\x7d"
    else
      "\x7b\n" ++ membersText (level + 1) ";" (field :: fields) ++ indent level ++ "\x7d"
  | .named name => name

/-- The lines of some members at `level`, each ended by `mark`. -/
def membersText (level : Nat) (mark : String) : List (Field Shape) → String
  | [] => ""
  | ⟨name, type, optional, docs⟩ :: fields =>
    docComment level docs ++ indent level ++ propertyName name ++ (if optional then "?" else "") ++
      ": " ++ typeText false level type ++ mark ++ "\n" ++ membersText level mark fields

end

/-- The exported interface `name` with `members`. -/
def interfaceText (name : String) (members : List (Field Shape)) : String :=
  "export interface " ++ name ++ " \x7b\n" ++ membersText 1 ";" members ++ "\x7d\n"

/-- The text of `d`. -/
def declarationText (d : Declaration) : String :=
  docComment 0 d.docs ++
    match d.body with
    | .struct fields => interfaceText d.name fields
    | .enum values => "export type " ++ d.name ++ " = " ++ union values ++ ";\n"
    | .synonym shape => "export type " ++ d.name ++ " = " ++ typeText false 0 shape ++ ";\n"

/-- The module of `k`. -/
def moduleText (params : Params) (k : ResolvedKind) : String :=
  let presented := k.presented params
  interfaceText "spec" (k.standaloneSpec params) ++ "\n" ++
    docComment 0 k.description ++ interfaceText k.name presented.envelope ++
    String.join (presented.reachableDeclarations.map fun d => "\n" ++ declarationText d)

end KindSchema.TypeScript
