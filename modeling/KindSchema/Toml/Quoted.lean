import KindSchema.Text.CodePoints
import KindSchema.Toml.Scalar

/-!
# TOML strings

The four forms of strings. A basic string is between double quotes and has escapes; a literal one
is between single quotes and has none. Either may be written over several lines between three
quotes; then a line break directly after the opening quotes is no part of it, and up to two quotes
may stand directly before the closing ones. In a basic string over several lines a backslash at
the end of a line skips all white space that follows.

A reader takes the characters after the opening quotes, and gives the text of the string with the
characters after the closing quotes.
-/

namespace KindSchema.Toml

/-- Whether `c` may stand in a string or a comment as it is. The line feed is not one. -/
def isPlainChar (c : Char) : Bool :=
  c == '\t' || (0x20 ≤ c.toNat && c.toNat != 0x7f)

/-- Whether `c` is white space inside a line. -/
def isSpace (c : Char) : Bool :=
  c == ' ' || c == '\t'

/-- The number of `count` hexadecimal digits at the head of `cs`, and what comes after it. -/
def hexNumber? (count : Nat) (cs : List Char) : Option (Nat × List Char) := do
  let digits ← (cs.take count).mapM (digitOf? 16)
  if digits.length = count then some (valueOf 16 digits, cs.drop count) else none

/-- The character with the code point `n`, if there is one. -/
def charOf? (n : Nat) : Option Char :=
  if n.isValidChar then some (Char.ofNat n) else none

/-- The character that an escape stands for, read after its backslash, and what comes after it. -/
def escape? : List Char → Option (Char × List Char)
  | 'b' :: cs => some ('\x08', cs)
  | 't' :: cs => some ('\t', cs)
  | 'n' :: cs => some ('\n', cs)
  | 'f' :: cs => some ('\x0c', cs)
  | 'r' :: cs => some ('\r', cs)
  | 'e' :: cs => some ('\x1b', cs)
  | '"' :: cs => some ('"', cs)
  | '\\' :: cs => some ('\\', cs)
  | 'x' :: cs => do
    let (n, cs) ← hexNumber? 2 cs
    return (← charOf? n, cs)
  | 'u' :: cs => do
    let (n, cs) ← hexNumber? 4 cs
    return (← charOf? n, cs)
  | 'U' :: cs => do
    let (n, cs) ← hexNumber? 8 cs
    return (← charOf? n, cs)
  | _ => none

/-- What comes after a line break, if there is one. -/
def lineBreak? : List Char → Option (List Char)
  | '\n' :: cs => some cs
  | '\r' :: '\n' :: cs => some cs
  | _ => none

/-- What comes after the white space and the line breaks at the start of a list. -/
def skipBlank : List Char → List Char
  | [] => []
  | '\r' :: '\n' :: cs => skipBlank cs
  | c :: cs => if isSpace c || c == '\n' then skipBlank cs else c :: cs

/-- A literal string in one line. `read` holds the characters before, the last one first. -/
def literal? (read : List Char) : List Char → Option (List Char × List Char)
  | [] => none
  | c :: cs =>
    if c = '\'' then some (read.reverse, cs)
    else if isPlainChar c then literal? (c :: read) cs
    else none

/-- The rest of a string of several lines from the run of quotes at the head of `cs` on, if it
closes the string: the quotes before the closing ones, and what comes after. -/
def closing? (quote : Char) (cs : List Char) : Option (List Char × List Char) :=
  let count := (cs.takeWhile (· == quote)).length
  if 3 ≤ count ∧ count ≤ 5 then some (List.replicate (count - 3) quote, cs.drop count) else none

/-- A literal string of several lines; `read` holds its characters so far, the last first. -/
def longLiteral? (read : List Char) : List Char → Option (List Char × List Char)
  | [] => none
  | '\'' :: '\'' :: '\'' :: cs =>
    (closing? '\'' ('\'' :: '\'' :: '\'' :: cs)).map fun (quotes, rest) =>
      (read.reverse ++ quotes, rest)
  | '\r' :: '\n' :: cs => longLiteral? ('\n' :: '\r' :: read) cs
  | c :: cs => if isPlainChar c || c == '\n' then longLiteral? (c :: read) cs else none

/-- A basic string. `fuel` bounds the number of steps; each takes a character or more. -/
def basic? : (fuel : Nat) → (read : List Char) → List Char → Option (List Char × List Char)
  | 0, _, _ => none
  | _, _, [] => none
  | fuel + 1, read, c :: cs =>
    if c = '"' then some (read.reverse, cs)
    else if c = '\\' then do
      let (escaped, cs) ← escape? cs
      basic? fuel (escaped :: read) cs
    else if isPlainChar c then basic? fuel (c :: read) cs
    else none

/-- A basic string of several lines. `fuel` bounds the number of steps; each takes a character or
more. -/
def longBasic? : (fuel : Nat) → (read : List Char) → List Char → Option (List Char × List Char)
  | 0, _, _ => none
  | _, _, [] => none
  | _, read, '"' :: '"' :: '"' :: cs =>
    (closing? '"' ('"' :: '"' :: '"' :: cs)).map fun (quotes, rest) =>
      (read.reverse ++ quotes, rest)
  | fuel + 1, read, '\r' :: '\n' :: cs => longBasic? fuel ('\n' :: '\r' :: read) cs
  | fuel + 1, read, '\\' :: cs =>
    match lineBreak? (cs.dropWhile isSpace) with
    | some rest => longBasic? fuel read (skipBlank rest)
    | none => do
      let (escaped, cs) ← escape? cs
      longBasic? fuel (escaped :: read) cs
  | fuel + 1, read, c :: cs =>
    if isPlainChar c || c == '\n' then longBasic? fuel (c :: read) cs else none

/-- What a string of several lines starts with, after its opening quotes: a line break at the head
of `cs` is skipped. -/
def afterOpening (cs : List Char) : List Char :=
  (lineBreak? cs).getD cs

/-- A string in one line, with its quotes. -/
def shortString? : List Char → Option (String × List Char)
  | '"' :: cs => (basic? (cs.length + 1) [] cs).map fun (s, rest) => (String.ofList s, rest)
  | '\'' :: cs => (literal? [] cs).map fun (s, rest) => (String.ofList s, rest)
  | _ => none

/-- A string of any form, with its quotes. -/
def string? : List Char → Option (String × List Char)
  | '"' :: '"' :: '"' :: cs =>
    (longBasic? (cs.length + 1) [] (afterOpening cs)).map fun (s, rest) => (String.ofList s, rest)
  | '\'' :: '\'' :: '\'' :: cs =>
    (longLiteral? [] (afterOpening cs)).map fun (s, rest) => (String.ofList s, rest)
  | cs => shortString? cs

end KindSchema.Toml
