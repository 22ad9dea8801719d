import KindSchema.Kind.TypeExpr

/-!
# Go declarations

The part of Go that generated files are made of: types, declarations of types, blocks of
constants, and files that hold them.
-/

namespace KindSchema.Go

/-- A field of a Go struct over types of the sort `τ`, with the key it has in JSON. -/
structure Member (τ : Type) where
  docs : List String
  key : String
  name : String
  type : τ
  /-- Whether the key may be missing in JSON. -/
  omitEmpty : Bool
deriving Repr

/-- A Go type. -/
inductive GoType
  | scalar (kind : Scalar)
  /-- A declared type. -/
  | named (name : String)
  | pointer (target : GoType)
  | slice (items : GoType)
  /-- A map with string keys. -/
  | map (values : GoType)
  | struct (members : List (Member GoType))
deriving Repr, Inhabited

/-- What a declared type is. -/
inductive Underlying
  /-- A struct, written as a block even if it is empty. -/
  | struct (members : List (Member GoType))
  /-- A string with a block of constants. -/
  | enum
  /-- Another type. -/
  | type (type : GoType)
deriving Repr

/-- The declaration of a type. -/
structure TypeDeclaration where
  name : String
  docs : List String
  underlying : Underlying
deriving Repr

/-- The constants of an enumeration. -/
structure ConstantBlock where
  /-- The type of the constants. -/
  type : String
  /-- The names of the constants with their values, in order. -/
  constants : List (String × String)
deriving Repr

/-- A Go file. -/
structure File where
  package : String
  /-- Whether the file imports the package of times. -/
  usesTime : Bool
  blocks : List ConstantBlock
  types : List TypeDeclaration
deriving Repr

end KindSchema.Go
