import KindSchema.Command.Arguments

/-!
# The program

Doing what the arguments ask for, and telling of a failure: its text, and below it the texts of its
causes, numbered if there are several.
-/

namespace KindSchema

/-- The name and version of the program. -/
def versionText : String := "kindgen 0.3.0"

/-- The text `s` with `indentation` in front of its further lines. -/
def indentFurtherLines (indentation : String) (s : String) : String :=
  ("\n" ++ indentation).intercalate (linesOf s)

/-- The causes of a failure, each on lines of its own. -/
def causesText : List String → String
  | [] => ""
  | [cause] => "\n\nCaused by:\n    " ++ indentFurtherLines "    " cause
  | causes =>
    "\n\nCaused by:" ++ String.join (causes.zipIdx.map fun (cause, i) =>
      "\n    " ++ toString i ++ ": " ++ indentFurtherLines "       " cause)

/-- How the program tells of the failure `f`. -/
def Failure.report (f : Failure) : String :=
  match f.chain with
  | [] => "Error: \n"
  | first :: causes => "Error: " ++ first ++ causesText causes ++ "\n"

/-- What the program leaves behind: its exit code and what it has told. -/
structure Exit where
  code : Nat
  console : Console
deriving DecidableEq, Repr

section

variable {m : Type → Type} [Monad m] [FileStore m]

/-- Does what is asked for. -/
def Request.session : Request → Session m Unit
  | .version => Session.say versionText
  | .generate options => Session.generate options
  | .check config logLevel => Session.check config logLevel
  | .render options logLevel => do
    if let some text := logLevel then
      if (LogLevel.ofText? text).isNone then throw (.invalidLogLevel text)
    Session.render options

/-- Runs the program on `arguments`. Arguments that are not understood give the exit code 2, a
failure the exit code 1. -/
def runProgram (arguments : List String) : m Exit := do
  match Request.ofArguments? arguments with
  | none => return { code := 2, console := { err := "error: the arguments are not understood\n" } }
  | some request =>
    match ← Session.run request.session with
    | (.ok (), console) => return { code := 0, console }
    | (.error f, console) =>
      return { code := 1, console := { console with err := console.err ++ f.report } }

end

end KindSchema
