import KindSchema.Config.Basic
import KindSchema.Toml.Document

/-!
# Configurations from TOML

`Config.ofText?` reads a configuration from the text of a TOML document, and `Params.ofToml?` reads
the parameters that a document of their own holds. Keys that are not known are ignored. The
parameters may also be an array of their values in the order of declaration, and a word of a
closed set may also be the only key of a table, with an empty table or array as its value.
-/

namespace KindSchema

open Toml

/-- A text. -/
def Toml.Value.string? : Value → Option String
  | .string s => some s
  | _ => none

/-- A list of texts. -/
def Toml.Value.strings? : Value → Option (List String)
  | .array items => items.mapM Value.string?
  | _ => none

/-- A table of texts, in the order of the keys. -/
def Toml.Value.stringTable? : Value → Option (List (String × String))
  | .table members => do
    let members ← members.mapM fun (key, value) => do return (key, ← value.string?)
    return members.mergeSort fun a b => decide (a.1 ≤ b.1)
  | _ => none

/-- A word of the closed set `choices`. -/
def Toml.Value.choice? {α : Type} (choices : List (String × α)) : Value → Option α
  | .string word => choices.lookup word
  | .table [(word, .table [])] | .table [(word, .array [])] => choices.lookup word
  | _ => none

/-- The member of `key`, read by `read`, or `default` if there is no such member. -/
def memberOr? {α : Type} (members : List (String × Value)) (key : String) (default : α)
    (read : Value → Option α) : Option α :=
  match members.lookup key with
  | none => some default
  | some value => read value

/-- The parameters that the `members` of a table stand for. -/
def Params.ofMembers? (members : List (String × Value)) : Option Params := do
  let standard : Params := {}
  return {
    metadata := ← memberOr? members "metadata" standard.metadata
      (Value.choice? MetadataMode.words)
    memberOrder := ← memberOr? members "memberOrder" standard.memberOrder
      (Value.choice? MemberOrder.words)
    specDeclarationOrder := ← memberOr? members "specDeclarationOrder"
      standard.specDeclarationOrder (Value.choice? MemberOrder.words)
    header := ← memberOr? members "header" standard.header (·.string?.map some)
    package := ← memberOr? members "package" standard.package (·.string?.map some) }

/-- The keys of the parameters, in the order of declaration. -/
def Params.keys : List String :=
  ["metadata", "memberOrder", "specDeclarationOrder", "header", "package"]

/-- The parameters that a value stands for. Values of an array beyond those of the keys are
ignored. -/
def Params.ofValue? : Value → Option Params
  | .table members => ofMembers? members
  | .array items => ofMembers? (keys.zip items)
  | _ => none

/-- The parameters that the document `text` stands for. -/
def Params.ofToml? (text : String) : Option Params :=
  (Toml.read? text).bind Params.ofMembers?

/-- The configuration that the `members` of a table stand for. -/
def Config.ofMembers? (members : List (String × Value)) : Option Config := do
  let standard : Config := { kinds := [] }
  return {
    kinds := ← (← members.lookup "kinds").strings?
    generators := ← memberOr? members "generators" standard.generators Value.strings?
    variant := ← memberOr? members "variant" standard.variant (·.string?.map some)
    variants := ← memberOr? members "variants" standard.variants Value.strings?
    outputDirectory := ← memberOr? members "output_dir" standard.outputDirectory Value.string?
    logLevelText := ← memberOr? members "log_level" standard.logLevelText (·.string?.map some)
    subdirectories := ← memberOr? members "prefixes" standard.subdirectories Value.stringTable?
    params := ← memberOr? members "params" standard.params Params.ofValue? }

/-- The configuration that the document `text` stands for. -/
def Config.ofText? (text : String) : Option Config :=
  (Toml.read? text).bind Config.ofMembers?

end KindSchema
