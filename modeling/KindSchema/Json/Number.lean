import KindSchema.Decimal.Shortest

/-!
# JSON numerals

A numeral as it is written, and the number it stands for. An integer of at most 64 binary digits is
read exactly; every other numeral is read as a number of double precision, and has no value if it is
too large for that. Minus zero counts among the latter.
-/

namespace KindSchema.Json

/-- A numeral as written: its sign, the digits before the point, those after it, and the exponent
with its sign. -/
structure Numeral where
  negative : Bool
  whole : List Char
  fraction : Option (List Char) := none
  exponent : Option (Bool × List Char) := none
deriving DecidableEq, Repr

/-- The number that a numeral stands for. -/
inductive Number
  | natural (n : Nat)
  /-- The integer `-n`. -/
  | negative (n : Nat)
  | double (negative : Bool) (x : Double)
deriving DecidableEq, Repr

namespace Numeral

/-- The value of the decimal digit `c`. -/
def digitValue (c : Char) : Nat :=
  c.toNat - 48

/-- Appends digits to a significand as long as it stays below `2 ^ 64`. The result is the
significand and the number of digits left over. -/
def accumulate (s : Nat) : List Char → Nat × Nat
  | [] => (s, 0)
  | c :: cs =>
    let next := s * 10 + digitValue c
    if next < Nat.pow 2 64 then accumulate next cs else (s, cs.length + 1)

/-- The value of the digits `cs`. -/
def ofDigits (cs : List Char) : Nat :=
  cs.foldl (fun n c => n * 10 + digitValue c) 0

/-- The number of double precision that `significand · 10 ^ k · 10 ^ exponent` stands for. An
exponent beyond 32 binary digits is too large for any significand but zero. -/
def double? (numeral : Numeral) (significand : Nat) (k : Int) : Option Number :=
  let value :=
    match numeral.exponent with
    | none => Double.ofDecimal? significand k
    | some (negativeExponent, digits) =>
      let e := ofDigits digits
      if Nat.pow 2 31 ≤ e then
        if significand ≠ 0 ∧ !negativeExponent then none else some .zero
      else Double.ofDecimal? significand (if negativeExponent then k - e else k + e)
  value.map (.double numeral.negative)

/-- The number that `numeral` stands for, if there is one. -/
def number? (numeral : Numeral) : Option Number :=
  let (s, excess) := accumulate 0 numeral.whole
  match numeral.fraction with
  | some digits =>
    let (s', dropped) := accumulate s digits
    numeral.double? s' ((excess : Int) - ((digits.length - dropped : Nat) : Int))
  | none =>
    if excess ≠ 0 ∨ numeral.exponent.isSome then numeral.double? s excess
    else if !numeral.negative then some (.natural s)
    else if s ≠ 0 ∧ s ≤ Nat.pow 2 63 then some (.negative s)
    else numeral.double? s 0

end Numeral

end KindSchema.Json
