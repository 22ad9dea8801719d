import KindSchema.Go.Basic
import KindSchema.Text.Pieces

/-!
# The text of Go files

A member is written in three columns: name, type, and the tag with its key in JSON. Columns are
aligned within a run of members. A run ends before a member that has documentation, and before and
after a member whose type takes several lines. A blank line stands before the documentation of a
member, unless it is the first.

The width of a column is the greatest number of bytes of an entry, while an entry is filled up by
its number of characters.
-/

namespace KindSchema.Go

/-- The indentation of `level`: a tab for each. -/
def tabs (level : Nat) : String :=
  repeated level "\t"

/-- The text `s` filled up with blanks to `width` characters. -/
def padTo (width : Nat) (s : String) : String :=
  s ++ repeated (width - s.length) " "

/-- The width of the column of `entries`: the greatest number of bytes of an entry. -/
def columnWidth (entries : List String) : Nat :=
  (entries.map String.utf8ByteSize).foldl max 0

/-- The comment line for `line` at `level`. -/
def commentLine (level : Nat) (line : String) : String :=
  if line = "" then tabs level ++ "//\n" else tabs level ++ "// " ++ line ++ "\n"

/-- How `c` is written inside double quotes. -/
def escapeChar (c : Char) : List Char :=
  if c = '\\' ∨ c = '"' then ['\\', c] else [c]

/-- The string literal of `s` in double quotes. -/
def stringLiteral (s : String) : String :=
  String.ofList ('"' :: s.toList.flatMap escapeChar ++ ['"'])

/-- The name of a leaf type. -/
def scalarName : Scalar → String
  | .string => "string"
  | .dateTime => "time.Time"
  | .boolean => "bool"
  | .int64 => "int64"
  | .float64 => "float64"
  | .any => "any"

/-- The tag of a member: its `key` in JSON, and whether it is left out when empty. -/
def tagText (key : String) (omitEmpty : Bool) : String :=
  "`json:\"" ++ key ++ (if omitEmpty then ",omitempty" else "") ++ "\"`"

/-! ### Rows -/

/-- A member before alignment. -/
structure Row where
  docs : List String
  name : String
  type : String
  tag : String
deriving Repr

namespace Row

/-- Whether the type of `r` takes several lines. -/
def isMultiline (r : Row) : Bool :=
  r.type.toList.contains '\n'

/-- Whether `r` continues the run of the row before it, `previous`. -/
def continues (previous r : Row) : Bool :=
  r.docs.isEmpty && !r.isMultiline && !previous.isMultiline

/-- The text of `r` at `level`, in columns of the widths `nameWidth` and `typeWidth`. -/
def text (level nameWidth typeWidth : Nat) (r : Row) : String :=
  String.join (r.docs.map (commentLine level)) ++ tabs level ++
    -- A type of several lines stands alone in its run, so there is nothing to align it with.
    if r.isMultiline then r.name ++ " " ++ r.type ++ " " ++ r.tag ++ "\n"
    else padTo nameWidth r.name ++ " " ++ padTo typeWidth r.type ++ " " ++ r.tag ++ "\n"

end Row

/-- The text of the rows of `run` at `level`, aligned. -/
def runText (level : Nat) (run : List Row) : String :=
  let nameWidth := columnWidth (run.map (·.name))
  let typeWidth := columnWidth (run.map (·.type))
  String.join (run.map (·.text level nameWidth typeWidth))

/-- Whether the first row of `run` has documentation. -/
def opensWithDocs (run : List Row) : Bool :=
  run.head?.any fun r => !r.docs.isEmpty

/-- The text of the runs after the first, at `level`. -/
def furtherRunsText (level : Nat) : List (List Row) → String
  | [] => ""
  | run :: runs =>
    (if opensWithDocs run then "\n" else "") ++ runText level run ++ furtherRunsText level runs

/-- The text of `rows` at `level`. -/
def rowsText (level : Nat) (rows : List Row) : String :=
  match rows.splitBy Row.continues with
  | [] => ""
  | run :: runs => runText level run ++ furtherRunsText level runs

/-! ### Types -/

mutual

/-- The text of a type that stands at `level`. -/
def typeText (level : Nat) : GoType → String
  | .scalar kind => scalarName kind
  | .named name => name
  | .pointer target => "*" ++ typeText level target
  | .slice items => "[]" ++ typeText level items
  | .map values => "map[string]" ++ typeText level values
  | .struct [] => "struct\x7b\x7d"
  | .struct (member :: members) =>
    "struct \x7b\n" ++ rowsText (level + 1) (rowsOf (level + 1) (member :: members)) ++
      tabs level ++ "\x7d"

/-- The rows of the members of a struct at `level`. -/
def rowsOf (level : Nat) : List (Member GoType) → List Row
  | [] => []
  | ⟨docs, key, name, type, omitEmpty⟩ :: members =>
    { docs, name, type := typeText level type, tag := tagText key omitEmpty } ::
      rowsOf level members

end

/-! ### Files -/

/-- The comment of the type `name`. Its first line starts with `name`, which is put there unless the
documentation starts with it. -/
def typeComment (name : String) : List String → String
  | [] => "// " ++ name ++ " defines model for " ++ name ++ ".\n"
  | first :: rest =>
    (if first = name ∨ (name ++ " ").isPrefixOf first then "// " ++ first ++ "\n"
      else "// " ++ name ++ " " ++ first ++ "\n") ++
    String.join (rest.map (commentLine 0))

/-- What follows the name in the declaration of a type. -/
def underlyingText : Underlying → String
  | .struct members => "struct \x7b\n" ++ rowsText 1 (rowsOf 1 members) ++ "\x7d"
  | .enum => "string"
  | .type type => typeText 0 type

/-- The text of `d`. -/
def declarationText (d : TypeDeclaration) : String :=
  typeComment d.name d.docs ++ "type " ++ d.name ++ " " ++ underlyingText d.underlying ++ "\n"

/-- The text of the block `b`, aligned. -/
def blockText (b : ConstantBlock) : String :=
  let width := columnWidth (b.constants.map (·.1))
  let line (constant : String × String) :=
    "\t" ++ padTo width constant.1 ++ " " ++ b.type ++ " = " ++ stringLiteral constant.2 ++ "\n"
  "// Defines values for " ++ b.type ++ ".\nconst (\n" ++
    String.join (b.constants.map line) ++ ")\n"

/-- The text of the file `f`. -/
def fileText (f : File) : String :=
  "package " ++ f.package ++ "\n" ++
    (if f.usesTime then "\nimport (\n\t\"time\"\n)\n" else "") ++
    String.join (f.blocks.map fun b => "\n" ++ blockText b) ++
    String.join (f.types.map fun d => "\n" ++ declarationText d)

end KindSchema.Go
