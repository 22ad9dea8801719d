import KindSchema.Text.Blank

/-!
# Log levels

How much a command tells about its work, and how a level is read: white space around it and the
case of ASCII letters make no difference, and two levels have a second name.
-/

namespace KindSchema

/-- How much is logged, from everything to nothing. -/
inductive LogLevel
  | trace
  | debug
  | info
  | warn
  | error
  | off
deriving DecidableEq, Repr

namespace LogLevel

/-- The name of a level. -/
def name : LogLevel → String
  | .trace => "trace"
  | .debug => "debug"
  | .info => "info"
  | .warn => "warn"
  | .error => "error"
  | .off => "off"

/-- The name of a level as it is shown. -/
def label : LogLevel → String
  | .trace => "TRACE"
  | .debug => "DEBUG"
  | .info => "INFO"
  | .warn => "WARN"
  | .error => "ERROR"
  | .off => "OFF"

/-- The level of a command for which none is given. -/
def standard : LogLevel := .info

/-- The place of a level in the order. -/
def rank : LogLevel → Nat
  | .trace => 0
  | .debug => 1
  | .info => 2
  | .warn => 3
  | .error => 4
  | .off => 5

/-- Levels compare by their rank. -/
instance : Ord LogLevel := ⟨fun a b => compare a.rank b.rank⟩

/-- Reads `text` as a level. -/
def ofText? (text : String) : Option LogLevel :=
  match (trimBlank text).map Char.toLower with
  | "trace" => some .trace
  | "debug" => some .debug
  | "info" => some .info
  | "warn" | "warning" => some .warn
  | "error" => some .error
  | "off" | "none" => some .off
  | _ => none

/-- The name of `level` is read back as `level`. -/
@[simp] theorem ofText?_name (level : LogLevel) : ofText? level.name = some level := by
  cases level <;> decide +kernel

/-- The text of the error for `text`, a level that cannot be read. -/
def unreadable (text : String) : String :=
  "invalid log level '" ++ text ++ "' (expected trace, debug, info, warn, error or off)"

end LogLevel

end KindSchema
