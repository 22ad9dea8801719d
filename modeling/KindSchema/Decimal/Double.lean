/-!
# Double precision numbers

The non-negative numbers of the binary format with 53 digits, as exact pairs `mantissa · 2 ^
exponent` of integers, and the arithmetic on them that reading a decimal numeral needs. Every
operation computes its exact result as a quotient of naturals and rounds it to the nearest number
of the format, a tie to the even mantissa; a result beyond the largest number is none.

A decimal numeral `s · 10 ^ k` is read in the plain way: the significand `s` is rounded, then
multiplied with, or divided by, the rounded power of ten.
-/

namespace KindSchema

/-- The number `mantissa · 2 ^ exponent`. In the numbers built here the mantissa has at most 53
binary digits and the exponent is at least `-1074`. -/
structure Double where
  mantissa : Nat
  exponent : Int
deriving DecidableEq, Repr

namespace Double

/-- Zero. -/
def zero : Double := ⟨0, -1074⟩

/-- The quotient of `num` by `den` rounded to the nearest natural, a tie to the even one. -/
def roundQuotient (num den : Nat) : Nat :=
  let q := num / den
  let twice := 2 * (num % den)
  if twice < den ∨ (twice = den ∧ q % 2 = 0) then q else q + 1

/-- The quotient `num / den` scaled by `2 ^ (-e)`, as a numerator and a denominator. -/
def scale (num den : Nat) (e : Int) : Nat × Nat :=
  if 0 ≤ e then (num, den * Nat.pow 2 e.toNat) else (num * Nat.pow 2 (-e).toNat, den)

/-- The exponent at which the quotient of `num` by `den`, both positive, has 53 binary digits, or
the least exponent of the format. -/
def exponentOf (num den : Nat) : Int :=
  let e := (Nat.log2 num : Int) - Nat.log2 den - 52
  let (n, d) := scale num den e
  let e := if n < Nat.pow 2 52 * d then e - 1 else e
  max e (-1074)

/-- The number nearest to `num / den`; none if it is beyond the largest one. -/
def ofQuotient? (num den : Nat) : Option Double :=
  if num = 0 ∨ den = 0 then some zero
  else
    let e := exponentOf num den
    let (n, d) := scale num den e
    let m := roundQuotient n d
    let result : Double := if m = Nat.pow 2 53 then ⟨Nat.pow 2 52, e + 1⟩ else ⟨m, e⟩
    if result.exponent ≤ 971 then some result else none

/-- The number `x` as a quotient of naturals. -/
def toQuotient (x : Double) : Nat × Nat :=
  if 0 ≤ x.exponent then (x.mantissa * Nat.pow 2 x.exponent.toNat, 1)
  else (x.mantissa, Nat.pow 2 (-x.exponent).toNat)

/-- The product of `x` and `y`, rounded. -/
def mul? (x y : Double) : Option Double :=
  let (a, b) := x.toQuotient
  let (c, d) := y.toQuotient
  ofQuotient? (a * c) (b * d)

/-- The quotient of `x` by `y`, rounded. -/
def div? (x y : Double) : Option Double :=
  let (a, b) := x.toQuotient
  let (c, d) := y.toQuotient
  ofQuotient? (a * d) (b * c)

/-- The greatest power of ten of the format is `10 ^ 308`. -/
def greatestPower : Nat := 308

/-- The power `10 ^ k`, rounded; only asked for `k ≤ 308`. -/
def power (k : Nat) : Double :=
  (ofQuotient? (Nat.pow 10 k) 1).getD zero

/-- Divides by `10 ^ k`, in steps of the greatest power of the format. Six steps bring any
significand of 64 binary digits to zero. -/
def divPower (x : Double) (k : Nat) : Nat → Double
  | 0 => zero
  | steps + 1 =>
    if k ≤ greatestPower then (x.div? (power k)).getD zero
    else if x.mantissa = 0 then x
    else divPower ((x.div? (power greatestPower)).getD zero) (k - greatestPower) steps

/-- The value of the numeral `significand · 10 ^ k`; none if it is too large for the format. -/
def ofDecimal? (significand : Nat) (k : Int) : Option Double :=
  (ofQuotient? significand 1).bind fun x =>
    if 0 ≤ k then
      if k ≤ greatestPower then x.mul? (power k.toNat)
      else if x.mantissa = 0 then some x else none
    else some (divPower x (-k).toNat 6)

end Double

end KindSchema
