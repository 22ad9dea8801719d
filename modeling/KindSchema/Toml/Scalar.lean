import KindSchema.Decimal.Double
import KindSchema.Text.Pieces
import KindSchema.Toml.Table

/-!
# TOML scalars without quotes

What a run of characters outside quotes stands for: a truth value, an integer in one of four
bases, a floating point number, or a date or a time. Digits may be separated by single
underscores. An integer has at most 128 binary digits, with its sign if it has one, and a floating
point number must not be too large for double precision.
-/

namespace KindSchema.Toml

/-- The digit that `c` is, in `base`. -/
def digitOf? (base : Nat) (c : Char) : Option Nat :=
  let value :=
    if c.isDigit then c.toNat - '0'.toNat
    else if c.isLower then c.toNat - 'a'.toNat + 10
    else if c.isUpper then c.toNat - 'A'.toNat + 10
    else base
  if value < base then some value else none

/-- The digits of the numeral `cs` in `base`, which may be separated by single underscores. There is
at least one digit. -/
def digitsOf? (base : Nat) (cs : List Char) : Option (List Nat) :=
  let groups := pieces (· == '_') cs
  if groups.any List.isEmpty then none
  else groups.flatten.mapM (digitOf? base)

/-- The value of `digits` in `base`. -/
def valueOf (base : Nat) (digits : List Nat) : Nat :=
  digits.foldl (fun n d => n * base + d) 0

/-- Whether digits are written as those of a decimal integer must be: without a leading zero. -/
def isPlain : List Nat → Bool
  | 0 :: _ :: _ => false
  | _ => true

/-- A sign, and what comes after it. -/
def splitSign : List Char → Option Bool × List Char
  | '+' :: cs => (some false, cs)
  | '-' :: cs => (some true, cs)
  | cs => (none, cs)

/-- The integer of magnitude `n` and the given sign, if it is not too large. -/
def boundedInteger? (negative : Bool) (n : Nat) : Option Value :=
  if negative then if n ≤ Nat.pow 2 127 then some (.integer (-n)) else none
  else if n < Nat.pow 2 128 then some (.integer n) else none

/-- The integer that `cs` is. -/
def integer? (cs : List Char) : Option Value :=
  match cs with
  | '0' :: 'x' :: cs => do boundedInteger? false (valueOf 16 (← digitsOf? 16 cs))
  | '0' :: 'o' :: cs => do boundedInteger? false (valueOf 8 (← digitsOf? 8 cs))
  | '0' :: 'b' :: cs => do boundedInteger? false (valueOf 2 (← digitsOf? 2 cs))
  | cs => do
    let (sign, cs) := splitSign cs
    let digits ← digitsOf? 10 cs
    if isPlain digits then boundedInteger? (sign == some true) (valueOf 10 digits) else none

/-! ### Floating point numbers -/

/-- Whether `n · 10 ^ exponent` can be rounded to double precision. -/
def fitsDouble (n : Nat) (exponent : Int) : Bool :=
  let digits := (Nat.toDigits 10 n).length
  if n = 0 ∨ exponent + digits ≤ 308 then true
  else if 310 ≤ exponent + digits then false
  else (Double.ofQuotient? (n * Nat.pow 10 exponent.toNat) (Nat.pow 10 (-exponent).toNat)).isSome

/-- Cuts `cs` before and after the first character that is `a` or `b`. -/
def cutAt (a b : Char) (cs : List Char) : List Char × Option (List Char) :=
  let isCut (c : Char) := c == a || c == b
  match cs.dropWhile (!isCut ·) with
  | [] => (cs, none)
  | _ :: after => (cs.takeWhile (!isCut ·), some after)

/-- The exponent `cs` of a floating point number. -/
def exponent? (cs : List Char) : Option Int := do
  let (sign, cs) := splitSign cs
  let n := valueOf 10 (← digitsOf? 10 cs)
  return if sign = some true then -n else n

/-- Reads `cs` as a floating point number with a fraction or an exponent. -/
def decimal? (cs : List Char) : Option Unit := do
  let (_, cs) := splitSign cs
  let (mantissa, exponent) := cutAt 'e' 'E' cs
  let (whole, fraction) := cutAt '.' '.' mantissa
  if fraction.isNone ∧ exponent.isNone then none
  else
    let whole ← digitsOf? 10 whole
    let fraction ← (match fraction with
      | none => some []
      | some cs => digitsOf? 10 cs)
    let exponent ← (match exponent with
      | none => some 0
      | some cs => exponent? cs)
    if isPlain whole ∧ fitsDouble (valueOf 10 (whole ++ fraction)) (exponent - fraction.length) then
      some ()
    else none

/-- The floating point number that `cs` is. -/
def float? (cs : List Char) : Option Value :=
  let (_, word) := splitSign cs
  if word = ['i', 'n', 'f'] ∨ word = ['n', 'a', 'n'] then some (.float (String.ofList cs))
  else (decimal? cs).map fun () => .float (String.ofList cs)

/-! ### Dates and times -/

/-- A number of exactly `count` decimal digits at the head of `cs`, and what comes after it. -/
def fixedNumber? (count : Nat) (cs : List Char) : Option (Nat × List Char) := do
  let digits ← (cs.take count).mapM (digitOf? 10)
  if digits.length = count then some (valueOf 10 digits, cs.drop count) else none

/-- The number of days of `month` in `year`. -/
def daysOf (year month : Nat) : Nat :=
  if month = 2 then
    if year % 4 = 0 ∧ (year % 100 ≠ 0 ∨ year % 400 = 0) then 29 else 28
  else if month = 4 ∨ month = 6 ∨ month = 9 ∨ month = 11 then 30
  else 31

/-- What comes after a date at the head of `cs`. -/
def date? (cs : List Char) : Option (List Char) := do
  let (year, cs) ← fixedNumber? 4 cs
  let (month, cs) ← (match cs with
    | '-' :: cs => fixedNumber? 2 cs
    | _ => none)
  let (day, cs) ← (match cs with
    | '-' :: cs => fixedNumber? 2 cs
    | _ => none)
  if 1 ≤ month ∧ month ≤ 12 ∧ 1 ≤ day ∧ day ≤ daysOf year month then some cs else none

/-- What comes after the fraction of a second, which may be missing. -/
def fraction? : List Char → Option (List Char)
  | '.' :: c :: cs => if c.isDigit then some (cs.dropWhile Char.isDigit) else none
  | '.' :: [] => none
  | cs => some cs

/-- What comes after a time at the head of `cs`. Seconds may be missing. -/
def time? (cs : List Char) : Option (List Char) := do
  let (hour, cs) ← fixedNumber? 2 cs
  let (minute, cs) ← (match cs with
    | ':' :: cs => fixedNumber? 2 cs
    | _ => none)
  if 24 ≤ hour ∨ 60 ≤ minute then none
  else match cs with
    | ':' :: cs => do
      let (second, cs) ← fixedNumber? 2 cs
      if 60 < second then none else fraction? cs
    | cs => some cs

/-- Whether the distance from universal time is written as it must be; it may be missing. -/
def isOffset : List Char → Bool
  | [] => true
  | ['Z'] | ['z'] => true
  | sign :: cs =>
    (sign == '+' || sign == '-') &&
      match fixedNumber? 2 cs with
      | some (hours, ':' :: cs) =>
        match fixedNumber? 2 cs with
        | some (minutes, []) => hours < 24 && minutes < 60
        | _ => false
      | _ => false

/-- Whether `cs` is a date, a time, or a date with a time. -/
def isDateTime (cs : List Char) : Bool :=
  match date? cs with
  | some [] => true
  | some (separator :: rest) =>
    (separator == 'T' || separator == 't' || separator == ' ') && (time? rest).any isOffset
  | none => (time? cs).any List.isEmpty

/-- The value of `cs`, a run of characters outside quotes. -/
def scalar? (cs : List Char) : Option Value :=
  if cs = ['t', 'r', 'u', 'e'] then some (.boolean true)
  else if cs = ['f', 'a', 'l', 's', 'e'] then some (.boolean false)
  else (integer? cs).or ((float? cs).or
    (if isDateTime cs then some (.dateTime (String.ofList cs)) else none))

end KindSchema.Toml
