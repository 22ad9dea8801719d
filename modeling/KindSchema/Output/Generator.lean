import KindSchema.Resolved.Resolution

/-!
# Generators

The targets that kinds are rendered to. A generator has a name for configurations, a name for the
directories it writes to, and a suffix for the names of its files. One that is aggregate renders all
kinds to a single file, whose name is the suffix; the others render every kind on its own.
-/

namespace KindSchema

/-- What kinds are rendered to. -/
inductive Generator
  /-- TypeScript interfaces. -/
  | tsTypes
  /-- Go types in one file. -/
  | goTypes
  /-- A JSON Schema. -/
  | jsonSchema
  /-- Go types in a file for each section. -/
  | goSectionTypes
  /-- A TypeScript module that exports all kinds again. -/
  | tsIndex
deriving DecidableEq, Repr

namespace Generator

/-- All generators, in order. -/
def all : List Generator := [.tsTypes, .goTypes, .jsonSchema, .goSectionTypes, .tsIndex]

/-- The generators of a configuration that lists none. -/
def defaults : List Generator := [.tsTypes, .goTypes, .jsonSchema]

/-- The name of a generator. -/
def name : Generator → String
  | .tsTypes => "ts-types"
  | .goTypes => "go-types"
  | .jsonSchema => "json-schema"
  | .goSectionTypes => "go-section-types"
  | .tsIndex => "ts-index"

/-- Reads `name` as that of a generator. -/
def ofName? (name : String) : Option Generator :=
  all.find? (·.name == name)

/-- A generator is read back from its name. -/
@[simp] theorem ofName?_name (g : Generator) : ofName? g.name = some g := by
  cases g <;> decide

/-- Only the names of generators are read. -/
theorem name_of_ofName? {name : String} {g : Generator} (h : ofName? name = some g) :
    g.name = name := by
  simpa using List.find?_some h

/-- The place of a generator in the order. -/
def rank : Generator → Nat
  | .tsTypes => 0
  | .goTypes => 1
  | .jsonSchema => 2
  | .goSectionTypes => 3
  | .tsIndex => 4

/-- The name of a generator in the names of directories. -/
def layoutName : Generator → String
  | .tsTypes => "TSTypesJenny"
  | .goTypes => "GoTypesJenny"
  | .jsonSchema => "JsonSchemaJenny"
  | .goSectionTypes => "GoResourceTypes"
  | .tsIndex => "TSVeneerIndex"

/-- How the name of the main file ends; of an aggregate generator, the whole name. -/
def suffix : Generator → String
  | .tsTypes => "types.gen.ts"
  | .goTypes => "types_gen.go"
  | .jsonSchema => "types_gen.json"
  | .goSectionTypes => "gen.go"
  | .tsIndex => "index.gen.ts"

/-- Whether `g` renders all kinds to a single file. -/
def isAggregate (g : Generator) : Bool :=
  g == .tsIndex

/-- What the target cannot write inline: for Go, enumerations and structs inside containers. -/
def policy : Generator → Policy
  | .tsTypes | .jsonSchema | .tsIndex => .inline
  | .goTypes | .goSectionTypes => .nominal

/-- The name of the main file that `g` makes of a kind with the given machine name. -/
def mainFileName (g : Generator) (machineName : String) : String :=
  machineName ++ "_" ++ g.suffix

end Generator

end KindSchema
