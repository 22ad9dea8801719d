import KindSchema.Go.Files
import KindSchema.Go.Printing
import KindSchema.JsonSchema.Document
import KindSchema.Output.Generator
import KindSchema.TypeScript.Index
import KindSchema.TypeScript.Types

/-!
# Rendering

What each generator makes of resolved kinds: of one kind a list of files, the main file first, or
of all kinds a single text.
-/

namespace KindSchema

/-- A file of a kind, named from the directory of the kind. -/
structure RenderedFile where
  name : String
  content : String
deriving DecidableEq, Repr

/-- The files that `g` makes of `k`. An aggregate generator takes `k` for all kinds. -/
def Generator.render (g : Generator) (params : Params) (k : ResolvedKind) :
    Except Unsupported (List RenderedFile) :=
  let main (content : String) : List RenderedFile :=
    [{ name := g.mainFileName k.machineName, content }]
  match g with
  | .tsTypes => .ok (main (TypeScript.moduleText params k))
  | .goTypes => do return main (Go.fileText (← Go.typesFile params k))
  | .jsonSchema => .ok (main (JsonSchema.text params k))
  | .goSectionTypes => do
    let files ← Go.sectionFiles params k
    return files.map fun f => { name := f.name, content := Go.fileText f.file }
  | .tsIndex => do return [{ name := g.suffix, content := ← TypeScript.indexText [k] }]

/-- The text that an aggregate generator makes of all `kinds`. Only the index is aggregate. -/
def Generator.renderAll (_ : Generator) (kinds : List ResolvedKind) : Except Unsupported String :=
  TypeScript.indexText kinds

end KindSchema
