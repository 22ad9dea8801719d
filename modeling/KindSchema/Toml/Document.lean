import KindSchema.Toml.Quoted

/-!
# TOML documents

Reading a document: lines that are blank, hold a key and a value, or hold the header of a table.
Values may nest in arrays and inline tables, whose parts may stand on several lines with comments
between them.

`Toml.read?` gives the table that a document stands for, or nothing if the text is no document or
defines a key twice.
-/

namespace KindSchema.Toml

/-- How deep values may nest. -/
def nestingLimit : Nat := 80

/-- What comes after white space inside a line at the head of `cs`. -/
def skipSpace (cs : List Char) : List Char :=
  cs.dropWhile isSpace

/-- What comes after a comment, from its line break on; a comment may be missing. -/
def skipComment? : List Char → Option (List Char)
  | '#' :: cs =>
    let rest := cs.dropWhile isPlainChar
    match rest with
    | [] => some []
    | rest => if (lineBreak? rest).isSome then some rest else none
  | cs => some cs

/-- What comes after white space, line breaks and comments. -/
def skipLines? : (fuel : Nat) → List Char → Option (List Char)
  | 0, _ => none
  | fuel + 1, cs => do
    let cs := skipSpace cs
    match cs with
    | '#' :: _ => skipLines? fuel (← skipComment? cs)
    | _ =>
      match lineBreak? cs with
      | some rest => skipLines? fuel rest
      | none => some cs

/-- What comes after white space, line breaks and comments at the head of `cs`. -/
def skipToNext? (cs : List Char) : Option (List Char) :=
  skipLines? (2 * cs.length + 1) cs

/-- What comes after the character `c`. -/
def expect? (c : Char) : List Char → Option (List Char)
  | [] => none
  | d :: cs => if c = d then some cs else none

/-! ### Keys -/

/-- Whether `c` can be in a key without quotes. -/
def isKeyChar (c : Char) : Bool :=
  c.isAlphanum || c == '_' || c == '-'

/-- A key without dots at the head of `cs`. -/
def simpleKey? (cs : List Char) : Option (String × List Char) :=
  match cs with
  | '"' :: _ | '\'' :: _ => shortString? cs
  | cs =>
    match cs.takeWhile isKeyChar with
    | [] => none
    | key => some (String.ofList key, cs.dropWhile isKeyChar)

/-- A dotted key: the keys between the dots. White space may stand around dots. -/
def keys? : (fuel : Nat) → List Char → Option (List String × List Char)
  | 0, _ => none
  | fuel + 1, cs => do
    let (key, cs) ← simpleKey? (skipSpace cs)
    match skipSpace cs with
    | '.' :: cs =>
      let (keys, cs) ← keys? fuel cs
      return (key :: keys, cs)
    | cs => return ([key], cs)

/-- A dotted key at the head of `cs`: the path to a table, and the key in that table. -/
def dottedKey? (cs : List Char) : Option (List String × String × List Char) := do
  let (keys, cs) ← keys? (cs.length + 1) cs
  return (keys.dropLast, ← keys.getLast?, cs)

/-! ### Values -/

/-- How a value is read. -/
abbrev ReadValue := List Char → Option (Value × List Char)

/-- The items of an array, up to its end, each read by `readValue`. Every round takes a character or
more. -/
def items? (readValue : ReadValue) : (fuel : Nat) → List Char → Option (List Value × List Char)
  | 0, _ => none
  | fuel + 1, cs => do
    match ← skipToNext? cs with
    | ']' :: cs => return ([], cs)
    | cs =>
      let (value, cs) ← readValue cs
      match ← skipToNext? cs with
      | ']' :: cs => return ([value], cs)
      | ',' :: cs =>
        let (values, cs) ← items? readValue fuel cs
        return (value :: values, cs)
      | _ => none

/-- A key and a value in one line, the value read by `readValue`. -/
def keyValue? (readValue : ReadValue) (cs : List Char) :
    Option (List String × String × Value × List Char) := do
  let (path, key, cs) ← dottedKey? cs
  let (value, cs) ← readValue (skipSpace (← expect? '=' cs))
  return (path, key, value, cs)

/-- A key and a value inside braces, where line breaks and comments may stand around the equals
sign. The value is read by `readValue`. -/
def innerKeyValue? (readValue : ReadValue) (cs : List Char) :
    Option (List String × String × Value × List Char) := do
  let (path, key, cs) ← dottedKey? cs
  let (value, cs) ← readValue (← skipToNext? (← expect? '=' (← skipToNext? cs)))
  return (path, key, value, cs)

/-- The members of an inline table, up to its end, added to those before them; `readValue` reads
their values. Every round takes a character or more. -/
def members? (readValue : ReadValue) :
    (fuel : Nat) → Members → List Char → Option (Members × List Char)
  | 0, _, _ => none
  | fuel + 1, members, cs => do
    match ← skipToNext? cs with
    | '\x7d' :: cs => return (members, cs)
    | cs =>
      let (path, key, value, cs) ← innerKeyValue? readValue cs
      let members ← members.addValue path key value
      match ← skipToNext? cs with
      | '\x7d' :: cs => return (members, cs)
      | ',' :: cs => members? readValue fuel members cs
      | _ => none

/-- Whether `c` can be in a scalar without quotes. -/
def isScalarChar (c : Char) : Bool :=
  c.isAlphanum || c == '_' || c == '-' || c == '+' || c == '.' || c == ':'

/-- The run of characters of a scalar without quotes at the head of `cs`. A time may follow a date
after a blank. -/
def scalarRun (cs : List Char) : List Char × List Char :=
  let run := cs.takeWhile isScalarChar
  match date? run, cs.dropWhile isScalarChar with
  | some [], ' ' :: c :: rest =>
    if c.isDigit then
      (run ++ ' ' :: (c :: rest).takeWhile isScalarChar, (c :: rest).dropWhile isScalarChar)
    else (run, ' ' :: c :: rest)
  | _, rest => (run, rest)

/-- A value in which at most `levels` levels of values are nested. -/
def value? : (levels : Nat) → ReadValue
  | 0, _ => none
  | levels + 1, cs =>
    match cs with
    | '"' :: _ | '\'' :: _ => (string? cs).map fun (s, rest) => (.string s, rest)
    -- The values inside have one level less.
    | '[' :: cs => (items? (value? levels) (cs.length + 1) cs).map fun (values, rest) =>
      (.array values, rest)
    | '\x7b' :: cs => (members? (value? levels) (cs.length + 1) [] cs).map fun (members, rest) =>
      (.table (valuesOf members), rest)
    | cs =>
      let (run, rest) := scalarRun cs
      (scalar? run).map fun value => (value, rest)

/-! ### Lines -/

/-- What comes after the end of the line that `cs` stands in, comments included. -/
def endOfLine? (cs : List Char) : Option (List Char) := do
  match ← skipComment? (skipSpace cs) with
  | [] => return []
  | cs => lineBreak? cs

/-- A document that is being read: the root table, and the path to the table that keys are added
to. -/
structure Draft where
  root : Members := []
  table : List String := []
deriving Repr

/-- Reads a line that is not blank into `draft`: the header of a table or of an element of an array
of tables, or a key with a value. -/
def line? (draft : Draft) : List Char → Option (Draft × List Char)
  | '[' :: '[' :: cs => do
    let (path, key, cs) ← dottedKey? cs
    let cs ← expect? ']' (← expect? ']' cs)
    let root ← draft.root.header path (Members.appendTable key)
    return ({ root, table := path ++ [key] }, cs)
  | '[' :: cs => do
    let (path, key, cs) ← dottedKey? cs
    let cs ← expect? ']' cs
    let root ← draft.root.header path (Members.nameTable key)
    return ({ root, table := path ++ [key] }, cs)
  | cs => do
    let (path, key, value, cs) ← keyValue? (value? nestingLimit) cs
    let root ← draft.root.header draft.table (Members.addValue path key value)
    return ({ draft with root }, cs)

/-- Reads lines up to the end of the text. Every round takes a character or more. -/
def lines? : (fuel : Nat) → Draft → List Char → Option Draft
  | 0, _, _ => none
  | fuel + 1, draft, cs => do
    match ← skipToNext? cs with
    | [] => return draft
    | cs =>
      let (draft, cs) ← line? draft cs
      lines? fuel draft (← endOfLine? cs)

/-- The text without a byte order mark at its start. -/
def withoutMark : List Char → List Char
  | [] => []
  | c :: cs => if c.toNat = 0xFEFF then cs else c :: cs

/-- The table that the document `text` stands for. -/
def read? (text : String) : Option (List (String × Value)) := do
  let cs := withoutMark text.toList
  let draft ← lines? (cs.length + 1) {} cs
  return valuesOf draft.root

end KindSchema.Toml
