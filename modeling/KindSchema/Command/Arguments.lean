import KindSchema.Command.Generate
import KindSchema.Command.Render

/-!
# Command lines

What the arguments of the program ask for. An option with a value may be written as `--name value`
or `--name=value`, and if it has a letter as `-n value`, `-nvalue` or `-n=value`. A value that is
an argument of its own must not look like an option. No option may be given twice.

`--log-level` may stand before or after the name of the command; the one after it counts.
`--version` may only stand before it, and is answered at once.
-/

namespace KindSchema

/-- What the program is asked to do. -/
inductive Request
  | version
  | generate (options : GenerateOptions)
  | check (config logLevel : Option String)
  | render (options : RenderOptions) (logLevel : Option String)
deriving DecidableEq, Repr

namespace Arguments

/-- An option of a command. -/
structure OptionForm where
  name : String
  letter : Option Char := none
  /-- Whether the option stands alone, without a value. -/
  isFlag : Bool := false
  /-- Whether the value may be empty. -/
  allowsEmpty : Bool := true
deriving Repr

/-- The options that are given, by name. A flag has an empty value. -/
abbrev Given := List (String × String)

/-- How an argument gives an option: the form, and the value written in the same argument. -/
structure Mention where
  form : OptionForm
  attached : Option String
deriving Repr

/-- The value attached to an option, after an equals sign. -/
def attachedValue? : List Char → Option String
  | '=' :: cs => some (String.ofList cs)
  | _ => none

/-- The value attached to the letter of an option, with or without an equals sign. -/
def attachedToLetter? : List Char → Option String
  | [] => none
  | '=' :: cs => some (String.ofList cs)
  | cs => some (String.ofList cs)

/-- The option that `argument` gives, if it is one of `forms`. -/
def mention? (forms : List OptionForm) (argument : String) : Option Mention :=
  match argument.toList with
  | '-' :: '-' :: cs =>
    let name := String.ofList (cs.takeWhile (· != '='))
    (forms.find? (·.name == name)).map fun form =>
      { form, attached := attachedValue? (cs.dropWhile (· != '=')) }
  | '-' :: letter :: cs =>
    (forms.find? (·.letter == some letter)).map fun form =>
      { form, attached := attachedToLetter? cs }
  | _ => none

/-- Whether `argument` looks like an option. A single dash does not. -/
def looksLikeOption (argument : String) : Bool :=
  match argument.toList with
  | '-' :: _ :: _ => true
  | _ => false

/-- Whether the option of `form` may have the value `value`. -/
def accepts (form : OptionForm) (value : String) : Bool :=
  form.allowsEmpty || value != ""

/-- Adds the option of `form` with its `value` to those given before. -/
def give (form : OptionForm) (value : String) (given : Given) : Option Given :=
  if (given.lookup form.name).isSome ∨ !accepts form value then none
  else some (given ++ [(form.name, value)])

/-- The options that the arguments give on top of those in `given`. Two dashes may stand at the
end. -/
def options? (forms : List OptionForm) (given : Given) : List String → Option Given
  | [] => some given
  | argument :: rest =>
    if argument = "--" then if rest.isEmpty then some given else none
    else
      match mention? forms argument with
      | none => none
      | some ⟨form, attached⟩ =>
        match form.isFlag, attached, rest with
        | true, none, rest => (give form "" given).bind fun given => options? forms given rest
        -- A flag takes no value.
        | true, some _, _ => none
        | false, some value, rest =>
          (give form value given).bind fun given => options? forms given rest
        | false, none, value :: rest =>
          if looksLikeOption value then none
          else (give form value given).bind fun given => options? forms given rest
        | false, none, [] => none

/-! ### The commands -/

/-- The option of the log level. -/
def logLevelForm : OptionForm := { name := "log-level" }

/-- The option of the configuration file. -/
def configForm : OptionForm := { name := "config", letter := some 'c' }

/-- What the command `generate` is asked to do; `logLevel` is the level given before its name. -/
def generate? (logLevel : Option String) (arguments : List String) : Option Request := do
  let given ← options?
    [logLevelForm, configForm, { name := "output", letter := some 'o' }, { name := "variant" },
      { name := "check", isFlag := true }] [] arguments
  return .generate {
    config := given.lookup "config"
    output := given.lookup "output"
    variant := given.lookup "variant"
    logLevel := (given.lookup "log-level").or logLevel
    check := (given.lookup "check").isSome }

/-- What the command `check` is asked to do. -/
def check? (logLevel : Option String) (arguments : List String) : Option Request := do
  let given ← options? [logLevelForm, configForm] [] arguments
  return .check (given.lookup "config") ((given.lookup "log-level").or logLevel)

/-- What the command `render` is asked to do. -/
def render? (logLevel : Option String) (arguments : List String) : Option Request := do
  let given ← options?
    [logLevelForm, { name := "kind", letter := some 'k', allowsEmpty := false },
      { name := "generator", letter := some 'g' }, { name := "variant" },
      { name := "params", letter := some 'p', allowsEmpty := false }] [] arguments
  let options : RenderOptions := {
    kind := ⟨← given.lookup "kind"⟩
    generator := ← given.lookup "generator"
    params := (given.lookup "params").map Path.mk }
  let options :=
    match given.lookup "variant" with
    | some variant => { options with variant }
    | none => options
  return .render options ((given.lookup "log-level").or logLevel)

/-- The options that may stand before the name of a command. -/
def leadingForms : List OptionForm :=
  [logLevelForm, { name := "version", letter := some 'V', isFlag := true }]

/-- What the command `name` is asked to do by its `arguments`. -/
def command? (logLevel : Option String) (name : String) (arguments : List String) :
    Option Request :=
  match name with
  | "generate" => generate? logLevel arguments
  | "check" => check? logLevel arguments
  | "render" => render? logLevel arguments
  | _ => none

/-- What the arguments after the options before the name of the command ask for; `logLevel` is the
level given so far. -/
def requestAfter? (logLevel : Option String) : List String → Option Request
  | [] => none
  | argument :: rest =>
    if !looksLikeOption argument then command? logLevel argument rest
    else
      match mention? leadingForms argument, rest with
      | none, _ => none
      | some ⟨form, attached⟩, rest =>
        if form.isFlag then
          -- Other letters may follow that of a flag; it is answered before they are read.
          if attached.isSome && argument.startsWith "--" then none else some .version
        else if logLevel.isSome then none
        else
          match attached, rest with
          | some value, rest => requestAfter? (some value) rest
          | none, value :: rest =>
            if looksLikeOption value then none else requestAfter? (some value) rest
          | none, [] => none

end Arguments

/-- What the `arguments` of the program ask for; nothing if they are not understood. -/
def Request.ofArguments? (arguments : List String) : Option Request :=
  Arguments.requestAfter? none arguments

end KindSchema
