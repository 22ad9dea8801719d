import KindSchema.Json.Basic
import KindSchema.Json.Reading
import KindSchema.Text.Quoted

/-!
# Decoding values from JSON text

What a reading means as a value of a given type, or the first problem on the way: a flaw of the
text, or a value that does not fit (`Misfit`). Every decoder looks at its reading in the order of
the text and no further than the first problem.

Structs are decoded by a `RecordFormat`, from an object or from an array of the values in the order
of declaration. A value inside a tagged union has been read in full before it is decoded; `inside`
tells so, and it matters to a struct that is given too many values.

Every bracket that is opened takes one from the `budget` of brackets that may be nested.
-/

namespace KindSchema.Json

/-- The kinds of values, as a message names them. -/
inductive Found
  | null
  | bool (b : Bool)
  | number (n : Number)
  | string (s : String)
  | sequence
  | map

/-- How a message names a value. -/
def Found.describe : Found → String
  | .null => "null"
  | .bool b => "boolean `" ++ String.ofList (boolChars b) ++ "`"
  | .number (.natural n) => "integer `" ++ toString n ++ "`"
  | .number (.negative n) => "integer `-" ++ toString n ++ "`"
  | .number (.double negative x) => "floating point `" ++ x.text negative ++ "`"
  | .string s => "string " ++ quoted s
  | .sequence => "sequence"
  | .map => "map"

/-- How a value fails to fit the type it is read at. -/
inductive Misfit
  | missingField (name : String)
  | duplicateField (name : String)
  | unknownVariant (name : String) (choices : List String)
  | invalidType (found : Found) (expected : String)
  | invalidValue (found : Found) (expected : String)
  | invalidLength (length : Nat) (expected : String)

/-- A list of choices as a message shows it. -/
def describeChoices : List String → String
  | [] => "there are no variants"
  | [a] => "expected `" ++ a ++ "`"
  | [a, b] => "expected `" ++ a ++ "` or `" ++ b ++ "`"
  | choices => "expected one of " ++ ", ".intercalate (choices.map fun a => "`" ++ a ++ "`")

/-- The text of a misfit. -/
def Misfit.message : Misfit → String
  | .missingField name => "missing field `" ++ name ++ "`"
  | .duplicateField name => "duplicate field `" ++ name ++ "`"
  | .unknownVariant name choices => "unknown variant `" ++ name ++ "`, " ++ describeChoices choices
  | .invalidType found expected => "invalid type: " ++ found.describe ++ ", expected " ++ expected
  | .invalidValue found expected => "invalid value: " ++ found.describe ++ ", expected " ++ expected
  | .invalidLength length expected =>
    "invalid length " ++ toString length ++ ", expected " ++ expected

/-- The first problem of a text. -/
inductive Problem
  | flaw (cause : Flaw)
  | misfit (cause : Misfit)

/-- The text of a problem. -/
def Problem.message : Problem → String
  | .flaw .unfinished => "the text ends too early"
  | .flaw .malformed => "the text is not well-formed JSON"
  | .misfit cause => cause.message

/-- How many brackets may be nested in the values that are read. -/
def nestingLimit : Nat := 127

/-- A value, or the first problem. -/
abbrev Decoded := Except Problem

/-- Fails with `flaw`, a flaw of the text. -/
def flawed {α : Type} (flaw : Flaw) : Decoded α := .error (.flaw flaw)

/-- Fails with `misfit`, a value that does not fit. -/
def unfit {α : Type} (misfit : Misfit) : Decoded α := .error (.misfit misfit)

/-- The outcome of a step that can only meet flaws of the text. -/
def ofFlaw {α : Type} : Except Flaw α → Decoded α
  | .ok a => .ok a
  | .error flaw => flawed flaw

/-- Goes on unless there is a flaw. -/
def proceed : Option Flaw → Decoded Unit
  | none => .ok ()
  | some flaw => flawed flaw

/-- What a value is, for a message; reading so far can meet a flaw. -/
def Reading.found : Reading → Decoded Found
  | .null => .ok .null
  | .bool b => .ok (.bool b)
  | .number numeral =>
    match numeral.number? with
    | some n => .ok (.number n)
    | none => flawed .malformed
  | .string token => ofFlaw (token.text.map .string)
  | .array .. => .ok .sequence
  | .object .. => .ok .map
  | .absent flaw => flawed flaw
  | .broken wanted _ => flawed wanted

/-- Fails because `r` is not of the `expected` sort. -/
def unexpected {α : Type} (expected : String) (r : Reading) : Decoded α := do
  unfit (.invalidType (← r.found) expected)

/-! ### Simple values -/

/-- A text. -/
def decodeString : Reading → Decoded String
  | .string token => ofFlaw token.text
  | r => unexpected "a string" r

/-- A text, or nothing for a null. -/
def decodeOptionalString : Reading → Decoded (Option String)
  | .null => .ok none
  | r => do return some (← decodeString r)

/-- A truth value. -/
def decodeBool : Reading → Decoded Bool
  | .bool b => .ok b
  | r => unexpected "a boolean" r

/-- The items of an array, decoded one by one with `decode`. -/
def decodeItems {α : Type} (decode : Reading → Decoded α) : List Reading → Decoded (List α)
  | [] => .ok []
  | item :: items => do
    let a ← decode item
    let rest ← decodeItems decode items
    return a :: rest

/-- A list within `budget`. The decoder of the items gets the budget that is left inside the
brackets. -/
def decodeList {α : Type} (budget : Nat) (decode : Nat → Reading → Decoded α) :
    Reading → Decoded (List α)
  | .array items finish =>
    match budget with
    | 0 => flawed .malformed
    | budget + 1 => do
      let values ← decodeItems (decode budget) items
      proceed finish
      return values
  | r => unexpected "a sequence" r

/-- A list of texts, read from `r` within `budget`. -/
def decodeStrings (budget : Nat) (r : Reading) : Decoded (List String) :=
  decodeList budget (fun _ => decodeString) r

/-! ### Words of a closed set -/

/-- The value that `word` names among `choices`. -/
def decodeWord {α : Type} (choices : List (String × α)) (word : String) : Decoded α :=
  match choices.lookup word with
  | some a => .ok a
  | none => unfit (.unknownVariant word (choices.map (·.1)))

/-- The value among `choices` that is named by a word standing as a string. -/
def decodeIdentifier {α : Type} (choices : List (String × α)) : Reading → Decoded α
  | .string token => do decodeWord choices (← ofFlaw token.text)
  | r => unexpected "variant identifier" r

/-- A word of the closed set `choices`, as a string or as the only key of an object whose value is
null. -/
def decodeChoice {α : Type} (budget : Nat) (choices : List (String × α)) : Reading → Decoded α
  | .string token => do decodeWord choices (← ofFlaw token.text)
  | .object members finish =>
    match budget, members with
    | 0, _ => flawed .malformed
    | _, [] => flawed (finish.getD .malformed)
    | _, (key, value) :: more => do
      let a ← decodeIdentifier choices key
      match value with
      | .null =>
        if more.isEmpty then proceed finish else flawed .malformed
        return a
      | value => unexpected "unit" value
  | .absent flaw => flawed flaw
  | _ => flawed .malformed

/-- A word of the closed set `choices` inside a value that has been read in full: a string, or an
object with one key whose value is null or an empty object. -/
def decodeChoiceInside {α : Type} (choices : List (String × α)) : Reading → Decoded α
  | .string token => do decodeWord choices (← ofFlaw token.text)
  | .object [(key, value)] _ => do
    let a ← decodeWord choices (← ofFlaw key.key)
    match value with
    | .null | .object [] _ => return a
    | value => unexpected "unit" value
  | .object .. => unfit (.invalidValue .map "map with a single key")
  | r => unexpected "string or map" r

/-! ### Structs -/

/-- How a struct of type `α` is read. Values are put into a draft of type `δ` one by one, by the
name of their key; `finish` completes the draft, with an error for the first required key that is
missing. A key put twice is refused before its second value is looked at. -/
structure RecordFormat (δ α : Type) where
  /-- The name of the struct in messages. -/
  title : String
  /-- The keys in the order of declaration. -/
  keys : List String
  empty : δ
  put : δ → String → Reading → Decoded δ
  finish : δ → (String → Misfit) → Decoded α

namespace RecordFormat

/-- A count of `n` elements. -/
def elements (n : Nat) : String :=
  if n = 1 then "1 element" else toString n ++ " elements"

variable {δ α : Type} (format : RecordFormat δ α)

/-- Puts the members of an object into `draft`; the keys in `seen` have been there. Values of other
keys are skipped. -/
def putMembers (draft : δ) (seen : List String) : List (Reading × Reading) → Decoded δ
  | [] => .ok draft
  | (key, value) :: members => do
    let key ← ofFlaw key.key
    if key ∈ format.keys then
      if key ∈ seen then unfit (.duplicateField key)
      else
        let draft ← format.put draft key value
        putMembers draft (key :: seen) members
    else
      proceed value.flaw?
      putMembers draft seen members

/-- Puts values into `draft` under the given keys, and gives the draft with the values left over. -/
def putItems (draft : δ) : List String → List Reading → Decoded (δ × List Reading)
  | key :: keys, item :: items => do
    let draft ← format.put draft key item
    putItems draft keys items
  | _, items => .ok (draft, items)

/-- Completes `draft`, which was made from the values of an array. The length in the error is the
place of the missing value. -/
def finishItems (draft : δ) : Decoded α :=
  format.finish draft fun key =>
    .invalidLength (format.keys.idxOf key)
      (format.title ++ " with " ++ elements format.keys.length)

/-- Decodes `items`, the values of an array that was read in full before. -/
def ofItems (items : List Reading) : Decoded α := do
  let (draft, more) ← format.putItems format.empty format.keys items
  let value ← format.finishItems draft
  if more.isEmpty then return value
  else unfit (.invalidLength items.length (elements format.keys.length ++ " in sequence"))

/-- Decodes `members`, those of an object. A flaw `finish` behind them comes after their own. -/
def ofMembers (members : List (Reading × Reading)) (finish : Option Flaw) : Decoded α := do
  let draft ← format.putMembers format.empty [] members
  proceed finish
  format.finish draft .missingField

/-- Decodes a struct; `format` gets the budget that is left inside the brackets. -/
def decode (inside : Bool) (budget : Nat) (format : Nat → RecordFormat δ α) (r : Reading) :
    Decoded α :=
  match r, budget with
  | .array .., 0 | .object .., 0 => flawed .malformed
  | .array items finish, budget + 1 =>
    if inside then (format budget).ofItems items
    else do
      let (draft, more) ← (format budget).putItems (format budget).empty (format budget).keys items
      if more.isEmpty ∧ items.length < (format budget).keys.length then proceed finish
      let value ← (format budget).finishItems draft
      if more.isEmpty then proceed finish else flawed .malformed
      return value
  | .object members finish, budget + 1 => (format budget).ofMembers members finish
  | r, _ => unexpected (format 0).title r

end RecordFormat

/-- The value of `key`, which must be there; `missing` is the error if it is not. -/
def required {α : Type} (missing : String → Misfit) (key : String) : Option α → Decoded α
  | some a => .ok a
  | none => unfit (missing key)

end KindSchema.Json
