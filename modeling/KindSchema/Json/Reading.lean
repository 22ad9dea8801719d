import KindSchema.Json.Number

/-!
# Reading JSON text

`Reading.ofText` reads any text from left to right as far as it can be read as JSON, and always
gives a `Reading`: a JSON value with the first flaw of the text left in the place where it stands.
What looks at a reading in the order of the text therefore meets what is wrong with the text and
what is wrong with the values in one order, and can stop at the first problem of either sort.

Some flaws matter only to those who want the value: an unpaired surrogate in a string or a number
out of range is no flaw of a value that is skipped. A numeral that the text cuts short is
unfinished for a reader who wants it and malformed for one who skips it.
-/

namespace KindSchema.Json

/-- What is wrong with a text at some place: it ends too early, or it cannot go on as it does. -/
inductive Flaw
  | unfinished
  | malformed
deriving DecidableEq, Repr

/-- A string as it stands in the text: the text it denotes or the first flaw on the way to it, and
the flaw that it has even for those who skip it. -/
structure StringToken where
  text : Except Flaw String
  flaw? : Option Flaw := none

/-- A JSON text, read as far as it goes. In an object, what stands where a key should be is the
reading of a value as well; it is a key when it is a string. After every comma there is a further
item or member, an absent one if need be. -/
inductive Reading
  | null
  | bool (b : Bool)
  | number (numeral : Numeral)
  | string (token : StringToken)
  /-- An array: its items, and what is wrong where it should go on or end. -/
  | array (items : List Reading) (finish : Option Flaw)
  /-- An object: its keys and values, and what is wrong where it should go on or end. -/
  | object (members : List (Reading × Reading)) (finish : Option Flaw)
  /-- No value begins here. -/
  | absent (flaw : Flaw)
  /-- A word or a numeral begins here and goes wrong, for those who want it and those who skip it.
  -/
  | broken (wanted skipped : Flaw)

/-- What remains of the text after a reading; nothing if a flaw put an end to it. -/
abbrev Rest := Option (List Char)

/-- Whether `c` may stand between the tokens of a JSON text. -/
def isSpace (c : Char) : Bool :=
  c == ' ' || c == '\n' || c == '\t' || c == '\r'

/-- The text `cs` from its first token on. -/
def skipSpace (cs : List Char) : List Char :=
  cs.dropWhile isSpace

/-! ### Words and numerals -/

/-- Reads the letters of a word that stands for `value`. -/
def readWord (value : Reading) : List Char → List Char → Reading × Rest
  | [], cs => (value, some cs)
  | _ :: _, [] => (.broken .unfinished .unfinished, none)
  | w :: ws, c :: cs =>
    if w = c then readWord value ws cs else (.broken .malformed .malformed, none)

/-- The flaw of a numeral that lacks a digit at the head of `cs`. -/
def lackingDigit (cs : List Char) : Reading × Rest :=
  (.broken (if cs = [] then .unfinished else .malformed) .malformed, none)

/-- Reads the exponent of `numeral` from `cs`, if there is one. -/
def readExponent (numeral : Numeral) (cs : List Char) : Reading × Rest :=
  match cs with
  | [] => (.number numeral, some cs)
  | c :: rest =>
    if c = 'e' ∨ c = 'E' then
      let (negativeExponent, rest) :=
        match rest with
        | '+' :: r => (false, r)
        | '-' :: r => (true, r)
        | r => (false, r)
      let digits := rest.takeWhile Char.isDigit
      if digits = [] then lackingDigit rest
      else (.number { numeral with exponent := some (negativeExponent, digits) },
        some (rest.dropWhile Char.isDigit))
    else (.number numeral, some cs)

/-- Reads the fraction and the exponent of `numeral` from `cs`, as far as there are any. -/
def readFraction (numeral : Numeral) (cs : List Char) : Reading × Rest :=
  match cs with
  | '.' :: rest =>
    let digits := rest.takeWhile Char.isDigit
    if digits = [] then lackingDigit rest
    else readExponent { numeral with fraction := some digits } (rest.dropWhile Char.isDigit)
  | _ => readExponent numeral cs

/-- Reads a numeral from `cs`, after its sign. A zero at the head stands alone. -/
def readNumeral (negative : Bool) (cs : List Char) : Reading × Rest :=
  match cs with
  | '0' :: rest =>
    if rest.head?.any Char.isDigit then (.broken .malformed .malformed, none)
    else readFraction { negative, whole := ['0'] } rest
  | _ =>
    let digits := cs.takeWhile Char.isDigit
    if digits = [] then lackingDigit cs
    else readFraction { negative, whole := digits } (cs.dropWhile Char.isDigit)

/-! ### Strings -/

/-- The value of the hexadecimal digit `c`. -/
def hexValue? (c : Char) : Option Nat :=
  if c.isDigit then some (c.toNat - 48)
  else if 'a' ≤ c ∧ c ≤ 'f' then some (c.toNat - 87)
  else if 'A' ≤ c ∧ c ≤ 'F' then some (c.toNat - 55)
  else none

/-- Reads four hexadecimal digits from `cs`. If fewer than four bytes of text remain, it ends too
early. -/
def readHex (cs : List Char) : Except Flaw (Nat × List Char) :=
  let short := (cs.take 4).foldl (fun n c => n + c.utf8Size) 0 < 4
  match cs with
  | a :: b :: c :: d :: rest =>
    match hexValue? a, hexValue? b, hexValue? c, hexValue? d with
    | some a, some b, some c, some d => .ok (((a * 16 + b) * 16 + c) * 16 + d, rest)
    | _, _, _, _ => .error .malformed
  | _ => .error (if short then .unfinished else .malformed)

/-- Whether `n` is the first half of a surrogate pair. -/
def isHighSurrogate (n : Nat) : Bool := 0xd800 ≤ n && n ≤ 0xdbff

/-- Whether `n` is the second half of a surrogate pair. -/
def isLowSurrogate (n : Nat) : Bool := 0xdc00 ≤ n && n ≤ 0xdfff

/-- The next piece of a string after its opening quote. -/
inductive Piece
  | finish (rest : List Char)
  | char (c : Char) (rest : List Char)
  /-- A surrogate without its other half: a flaw only for those who want the text. -/
  | unpaired (flaw : Flaw) (rest : List Char)
  | stop (flaw : Flaw)

/-- Reads what must follow the first half of a surrogate pair; `rest` is the text after that half.
-/
def readLowSurrogate (high : Nat) (rest : List Char) : Piece :=
  match rest with
  | [] | ['\\'] => .unpaired .unfinished rest
  | '\\' :: 'u' :: after =>
    match readHex after with
    | .error flaw => .unpaired flaw rest
    | .ok (low, after) =>
      if isLowSurrogate low then
        -- The two halves are ten bits each, above the first 0x10000 code points.
        .char (Char.ofNat (0x10000 + (high - 0xd800) * 0x400 + (low - 0xdc00))) after
      else .unpaired .malformed rest
  | _ => .unpaired .malformed rest

/-- Reads an escape after its backslash. -/
def readEscape : List Char → Piece
  | [] => .stop .unfinished
  | 'u' :: rest =>
    match readHex rest with
    | .error flaw => .stop flaw
    | .ok (n, rest) =>
      if isLowSurrogate n then .unpaired .malformed rest
      else if isHighSurrogate n then readLowSurrogate n rest
      else .char (Char.ofNat n) rest
  | 'b' :: rest => .char '\x08' rest
  | 'f' :: rest => .char '\x0c' rest
  | 'n' :: rest => .char '\n' rest
  | 'r' :: rest => .char '\r' rest
  | 't' :: rest => .char '\t' rest
  | c :: rest => if c = '"' ∨ c = '\\' ∨ c = '/' then .char c rest else .stop .malformed

/-- Reads the next piece of a string. -/
def readPiece : List Char → Piece
  | [] => .stop .unfinished
  | '"' :: rest => .finish rest
  | '\\' :: rest => readEscape rest
  | c :: rest => if c.toNat < 0x20 then .stop .malformed else .char c rest

/-- The characters read so far, in reverse, or the first flaw. -/
abbrev Sofar := Except Flaw (List Char)

/-- Reads a string after its opening quote, in at most as many pieces as `bound` has characters.
Each piece takes a character at least, so a bound longer than the text is enough. -/
def readStringBody (sofar : Sofar) : List Char → List Char → Reading × Rest
  | [], _ => (.string ⟨.error .unfinished, some .unfinished⟩, none)
  | _ :: bound, cs =>
    match readPiece cs with
    | .finish rest => (.string ⟨sofar.map fun r => String.ofList r.reverse, none⟩, some rest)
    | .char c rest => readStringBody (sofar.map (c :: ·)) bound rest
    | .unpaired flaw rest => readStringBody (sofar.bind fun _ => .error flaw) bound rest
    | .stop flaw =>
      (.string ⟨sofar.bind fun _ => .error flaw, some flaw⟩, none)

/-- Reads a string from `cs`, after its opening quote. -/
def readString (cs : List Char) : Reading × Rest :=
  readStringBody (.ok []) ('"' :: cs) cs

/-! ### Values -/

/-- Reads a word, a numeral or a string, or finds that no value begins here. -/
def readScalar : List Char → Reading × Rest
  | [] => (.absent .unfinished, none)
  | 'n' :: cs => readWord .null ['u', 'l', 'l'] cs
  | 't' :: cs => readWord (.bool true) ['r', 'u', 'e'] cs
  | 'f' :: cs => readWord (.bool false) ['a', 'l', 's', 'e'] cs
  | '-' :: cs => readNumeral true cs
  | '"' :: cs => readString cs
  | c :: cs => if c.isDigit then readNumeral false (c :: cs) else (.absent .malformed, none)

mutual

/-- Reads a value that begins at the head of the text. The fuel bounds the depth of the calls: two
for every character are enough. -/
def readValue : Nat → List Char → Reading × Rest
  | 0, _ => (.absent .unfinished, none)
  | fuel + 1, cs =>
    match cs with
    | '[' :: cs =>
      match skipSpace cs with
      | [] => (.array [] (some .unfinished), none)
      | ']' :: rest => (.array [] none, some rest)
      | cs =>
        let (items, finish, rest) := readItems fuel cs
        (.array items finish, rest)
    | '\x7b' :: cs =>
      match skipSpace cs with
      | [] => (.object [] (some .unfinished), none)
      | '\x7d' :: rest => (.object [] none, some rest)
      | cs =>
        let (members, finish, rest) := readMembers fuel cs
        (.object members finish, rest)
    | cs => readScalar cs

/-- Reads the items of an array from the head of one of them to the closing bracket. -/
def readItems : Nat → List Char → List Reading × Option Flaw × Rest
  | 0, _ => ([], some .unfinished, none)
  | fuel + 1, cs =>
    match readValue fuel cs with
    | (item, none) => ([item], none, none)
    | (item, some rest) =>
      match skipSpace rest with
      | [] => ([item], some .unfinished, none)
      | ']' :: rest => ([item], none, some rest)
      | ',' :: rest =>
        let (items, finish, rest) := readItems fuel (skipSpace rest)
        (item :: items, finish, rest)
      | _ => ([item], some .malformed, none)

/-- Reads the members of an object from the head of one of them to the closing brace. -/
def readMembers : Nat → List Char → List (Reading × Reading) × Option Flaw × Rest
  | 0, _ => ([], some .unfinished, none)
  | fuel + 1, cs =>
    match readValue fuel cs with
    | (key, none) => ([(key, .absent .malformed)], none, none)
    | (key, some rest) =>
      match skipSpace rest with
      | [] => ([(key, .absent .unfinished)], none, none)
      | ':' :: rest =>
        match readValue fuel (skipSpace rest) with
        | (value, none) => ([(key, value)], none, none)
        | (value, some rest) =>
          match skipSpace rest with
          | [] => ([(key, value)], some .unfinished, none)
          | '\x7d' :: rest => ([(key, value)], none, some rest)
          | ',' :: rest =>
            let (members, finish, rest) := readMembers fuel (skipSpace rest)
            ((key, value) :: members, finish, rest)
          | _ => ([(key, value)], some .malformed, none)
      | _ => ([(key, .absent .malformed)], none, none)

end

/-- The reading of `text`, and what is wrong after the value. -/
def Reading.ofText (text : String) : Reading × Option Flaw :=
  let cs := skipSpace text.toList
  match readValue (2 * cs.length + 2) cs with
  | (value, none) => (value, none)
  | (value, some rest) => (value, if skipSpace rest = [] then none else some .malformed)

/-! ### Looking through a reading -/

mutual

/-- The first flaw that a value has even for those who skip it. -/
def Reading.flaw? : Reading → Option Flaw
  | .null | .bool _ | .number _ => none
  | .string token => token.flaw?
  | .array items finish => (flawOfItems? items).or finish
  | .object members finish => (flawOfMembers? members).or finish
  | .absent flaw => some flaw
  | .broken _ skipped => some skipped

/-- The first flaw among the items of an array. -/
def flawOfItems? : List Reading → Option Flaw
  | [] => none
  | item :: items => item.flaw?.or (flawOfItems? items)

/-- The first flaw among the members of an object. A key that is no string is a flaw. -/
def flawOfMembers? : List (Reading × Reading) → Option Flaw
  | [] => none
  | (.string token, value) :: members =>
    (token.flaw?.or value.flaw?).or (flawOfMembers? members)
  | (.absent flaw, _) :: _ => some flaw
  | _ :: _ => some .malformed

end

/-- The text of a key, or what is wrong with it. -/
def Reading.key : Reading → Except Flaw String
  | .string token => token.text
  | .absent flaw => .error flaw
  | _ => .error .malformed

mutual

/-- Reads a value in full: the first flaw it has for those who want all of it, a value nested in
more than `budget` brackets included. -/
def Reading.check (budget : Nat) : Reading → Except Flaw Unit
  | .null | .bool _ => .ok ()
  | .number numeral => if numeral.number?.isSome then .ok () else .error .malformed
  | .string token => token.text.map fun _ => ()
  | .array items finish =>
    match budget with
    | 0 => .error .malformed
    | budget + 1 => do
      checkItems budget items
      if let some flaw := finish then .error flaw
  | .object members finish =>
    match budget with
    | 0 => .error .malformed
    | budget + 1 => do
      checkMembers budget members
      if let some flaw := finish then .error flaw
  | .absent flaw => .error flaw
  | .broken wanted _ => .error wanted

/-- Reads the items of an array in full, within `budget`. -/
def checkItems (budget : Nat) : List Reading → Except Flaw Unit
  | [] => .ok ()
  | item :: items => do
    item.check budget
    checkItems budget items

/-- Reads the members of an object in full, within `budget`. -/
def checkMembers (budget : Nat) : List (Reading × Reading) → Except Flaw Unit
  | [] => .ok ()
  | (key, value) :: members => do
    let _ ← key.key
    value.check budget
    checkMembers budget members

end

end KindSchema.Json
