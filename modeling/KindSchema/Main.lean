import KindSchema.Command.Program

/-!
# The executable

The program over the files of the computer.
-/

namespace KindSchema

/-- The file error for an error of the system. -/
def fileErrorOf : IO.Error → FileError
  | .noFileOrDirectory .. => .notFound
  | e => .other (toString e)

/-- Runs `action`, with its error as a file error. -/
def catching {α : Type} (action : IO α) : IO (Except FileError α) := do
  try
    return .ok (← action)
  catch e =>
    return .error (fileErrorOf e)

/-- The files of the computer. -/
instance : FileStore IO where
  readText path := catching (IO.FS.readFile path.text)
  isDirectory path := do
    let located ← IO.FS.realPath path.text
    located.isDir
  entryNames path := catching do
    let located ← IO.FS.realPath path.text
    return (← located.readDir).toList.map (·.fileName)
  makeDirectories path := catching do
    if path.text ≠ "" then IO.FS.createDirAll path.text
  writeText path content := catching (IO.FS.writeFile path.text content)

end KindSchema

/-- Runs the program on `arguments`, those of the command line. -/
def main (arguments : List String) : IO UInt32 := do
  let exit ← (KindSchema.runProgram arguments : IO KindSchema.Exit)
  IO.print exit.console.out
  IO.eprint exit.console.err
  return exit.code.toUInt32
