import KindSchema.Text.Pieces

/-!
# JSON documents

The JSON values that this library writes, and their text, in one line (`Json.compact`) or laid out
over several (`Json.pretty`). Objects keep the order of their members. No document written here
holds a number.

Strings escape the two characters that must be escaped, the five controls that have a short
escape, and the other characters below `U+0020` by their code point; every other character stands
for itself.
-/

namespace KindSchema

/-- A JSON value without numbers. -/
inductive Json
  | null
  | bool (b : Bool)
  | string (s : String)
  | array (items : List Json)
  | object (members : List (String × Json))
deriving Repr, Inhabited

namespace Json

/-- The digit of `n`, a number below sixteen, in lower case. -/
def hexDigit (n : Nat) : Char :=
  if n < 10 then Char.ofNat (48 + n) else Char.ofNat (87 + n)

/-- How `c` is written inside a JSON string. -/
def escapeChar (c : Char) : List Char :=
  if c = '"' then ['\\', '"']
  else if c = '\\' then ['\\', '\\']
  else if c = '\x08' then ['\\', 'b']
  else if c = '\x0c' then ['\\', 'f']
  else if c = '\n' then ['\\', 'n']
  else if c = '\r' then ['\\', 'r']
  else if c = '\t' then ['\\', 't']
  else if c.toNat < 0x20 then
    ['\\', 'u', '0', '0', hexDigit (c.toNat / 16), hexDigit (c.toNat % 16)]
  else [c]

/-- The JSON string of `s` with its quotes. -/
def stringChars (s : String) : List Char :=
  '"' :: s.toList.flatMap escapeChar ++ ['"']

/-- The text of the truth value `b`. -/
def boolChars (b : Bool) : List Char :=
  if b then ['t', 'r', 'u', 'e'] else ['f', 'a', 'l', 's', 'e']

/-! ### In one line -/

mutual

/-- The text of a value without any white space. -/
def compactChars : Json → List Char
  | .null => ['n', 'u', 'l', 'l']
  | .bool b => boolChars b
  | .string s => stringChars s
  | .array items => '[' :: compactItems items ++ [']']
  | .object members => '\x7b' :: compactMembers members ++ ['\x7d']

/-- The items of an array, with commas between them. -/
def compactItems : List Json → List Char
  | [] => []
  | [item] => compactChars item
  | item :: items => compactChars item ++ ',' :: compactItems items

/-- The members of an object, with commas between them. -/
def compactMembers : List (String × Json) → List Char
  | [] => []
  | [(key, value)] => stringChars key ++ ':' :: compactChars value
  | (key, value) :: members =>
    stringChars key ++ ':' :: compactChars value ++ ',' :: compactMembers members

end

/-- The text of `j` in one line. -/
def compact (j : Json) : String :=
  String.ofList j.compactChars

/-! ### Over several lines -/

/-- A line break and the indentation of `level`, two blanks for each. -/
def breakChars (level : Nat) : List Char :=
  '\n' :: List.replicate (2 * level) ' '

mutual

/-- The text of a value at `level`: every item and every member on a line of its own, an empty array
or object in one line. -/
def prettyChars (level : Nat) : Json → List Char
  | .null => ['n', 'u', 'l', 'l']
  | .bool b => boolChars b
  | .string s => stringChars s
  | .array [] => ['[', ']']
  | .array (item :: items) =>
    '[' :: breakChars (level + 1) ++ prettyChars (level + 1) item ++
      prettyItems (level + 1) items ++ breakChars level ++ [']']
  | .object [] => ['\x7b', '\x7d']
  | .object ((key, value) :: members) =>
    '\x7b' :: breakChars (level + 1) ++ stringChars key ++ ':' :: ' ' ::
      prettyChars (level + 1) value ++
      prettyMembers (level + 1) members ++ breakChars level ++ ['\x7d']

/-- The further items of an array at `level`, each after a comma and a line break. -/
def prettyItems (level : Nat) : List Json → List Char
  | [] => []
  | item :: items =>
    ',' :: breakChars level ++ prettyChars level item ++ prettyItems level items

/-- The further members of an object at `level`, each after a comma and a line break. -/
def prettyMembers (level : Nat) : List (String × Json) → List Char
  | [] => []
  | (key, value) :: members =>
    ',' :: breakChars level ++ stringChars key ++ ':' :: ' ' :: prettyChars level value ++
      prettyMembers level members

end

/-- The text of `j` over several lines. -/
def pretty (j : Json) : String :=
  String.ofList (j.prettyChars 0)

/-- The array of the texts `lines`. -/
def texts (lines : List String) : Json :=
  .array (lines.map .string)

end Json

end KindSchema
