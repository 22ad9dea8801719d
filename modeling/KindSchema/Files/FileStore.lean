import KindSchema.Files.Path

/-!
# File stores

What a run needs of a file system. Everything that reads or writes files is written over a monad
with these operations, so that it can run on a tree of files in memory as well as on a disk.
-/

namespace KindSchema

/-- Why a file operation failed. -/
inductive FileError
  /-- There is nothing at the path. -/
  | notFound
  /-- Any other cause. -/
  | other (reason : String)
deriving DecidableEq, Repr

/-- The text of a file error. -/
def FileError.reason : FileError → String
  | .notFound => "no such file or directory"
  | .other reason => reason

/-- The monad `m` can read and write files. -/
class FileStore (m : Type → Type) where
  /-- The text of the file at a path. It is an error if the file is not text. -/
  readText : Path → m (Except FileError String)
  /-- Whether there is a directory at a path. -/
  isDirectory : Path → m Bool
  /-- The names of the entries of the directory at a path. -/
  entryNames : Path → m (Except FileError (List String))
  /-- Makes the directory at a path and those above it, as far as they are missing. -/
  makeDirectories : Path → m (Except FileError Unit)
  /-- Makes a text the content of the file at a path. The directory of the file must be there. -/
  writeText : Path → String → m (Except FileError Unit)

end KindSchema
