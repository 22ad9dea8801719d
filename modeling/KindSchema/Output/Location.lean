import KindSchema.Files.Path
import KindSchema.Output.Generator

/-!
# Where files go

The files of a kind lie in a directory that is named for the kind, the generator and the variant,
below it in the subdirectory that may be configured for the generator, and below that in a
directory named for the kind. The file of an aggregate generator lies in a directory named for the
generator and the variant, below the same subdirectory. All paths are relative to the output
directory.
-/

namespace KindSchema

/-- The path `path` below `subdirectory`, if one is given that is not empty. -/
def belowSubdirectory (path : Path) (subdirectory : Option String) : Path :=
  match subdirectory with
  | none => path
  | some s => if s = "" then path else path.join ⟨s⟩

/-- The directory of the files that `g` makes of a kind with the given machine name in the variant
`v`. -/
def kindDirectory (machineName : String) (g : Generator) (v : VariantId)
    (subdirectory : Option String) : Path :=
  (belowSubdirectory ⟨machineName ++ "_" ++ g.layoutName ++ "_" ++ v.name⟩ subdirectory).join
    ⟨machineName⟩

/-- The main file that `g` makes of a kind with the given machine name in the variant `v`. -/
def mainFilePath (machineName : String) (g : Generator) (v : VariantId)
    (subdirectory : Option String) : Path :=
  (kindDirectory machineName g v subdirectory).join ⟨g.mainFileName machineName⟩

/-- The file `fileName` of an aggregate generator `g` in the variant `v`. -/
def aggregatePath (fileName : String) (g : Generator) (v : VariantId)
    (subdirectory : Option String) : Path :=
  (belowSubdirectory ⟨g.layoutName ++ "_" ++ v.name⟩ subdirectory).join ⟨fileName⟩

end KindSchema
