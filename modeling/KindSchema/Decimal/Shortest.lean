import KindSchema.Decimal.Double

/-!
# The shortest decimal numeral of a number

Of the decimal numerals that read back as a number of double precision, the ones with the fewest
digits are candidates, and of these the nearest to the number is its shortest numeral. A numeral
reads back as the number when it lies in the interval of the reals that round to it.

`digits` finds it by trying numerals of one digit, of two digits, and so on; `text` lays the digits
out: positionally while the point stands within the first sixteen places or at most four zeros after
the point, and with a signed exponent beyond.
-/

namespace KindSchema.Double

/-- Four times the number, and four times the two ends of the interval of the reals that round to
it, over one common denominator: `(lower, number, upper, denominator)`. -/
def interval (x : Double) : Nat × Nat × Nat × Nat :=
  let unit : Nat := if 0 ≤ x.exponent then Nat.pow 2 x.exponent.toNat else 1
  let den : Nat := if 0 ≤ x.exponent then 1 else Nat.pow 2 (-x.exponent).toNat
  let below := if x.mantissa = Nat.pow 2 52 ∧ -1074 < x.exponent then 1 else 2
  ((4 * x.mantissa - below) * unit, 4 * x.mantissa * unit, (4 * x.mantissa + 2) * unit, 4 * den)

/-- Whether the numeral `s · 10 ^ k` reads back as the number. -/
def readsBack (x : Double) (s : Nat) (k : Int) : Bool :=
  let (lower, _, upper, den) := x.interval
  let value := if 0 ≤ k then s * Nat.pow 10 k.toNat * den else s * den
  let scale := if 0 ≤ k then 1 else Nat.pow 10 (-k).toNat
  let (lower, upper) := (lower * scale, upper * scale)
  if x.mantissa % 2 = 0 then lower ≤ value && value ≤ upper else lower < value && value < upper

/-- The distance of the numeral `s · 10 ^ k` from the number, up to a factor that depends on `k`
alone. -/
def distance (x : Double) (s : Nat) (k : Int) : Nat :=
  let (_, number, _, den) := x.interval
  let value := if 0 ≤ k then s * Nat.pow 10 k.toNat * den else s * den
  let number := if 0 ≤ k then number else number * Nat.pow 10 (-k).toNat
  (value - number) + (number - value)

/-- The numeral with unit `10 ^ k` that reads back as the number and is nearest to it, if one
does. A tie goes to the even numeral. -/
def numeralAt? (x : Double) (k : Int) : Option Nat :=
  let (num, den) := x.toQuotient
  let s := if 0 ≤ k then num / (den * Nat.pow 10 k.toNat) else num * Nat.pow 10 (-k).toNat / den
  match x.readsBack s k, x.readsBack (s + 1) k with
  | true, true =>
    let (a, b) := (x.distance s k, x.distance (s + 1) k)
    if a < b ∨ (a = b ∧ s % 2 = 0) then some s else some (s + 1)
  | true, false => some s
  | false, true => some (s + 1)
  | false, false => none

/-- The exponent of the leading decimal digit of the quotient of `num` by `den`, which is
positive. -/
def leading (num den : Nat) : Int :=
  if den ≤ num then ((Nat.toDigits 10 (num / den)).length : Int) - 1
  else
    let k := (Nat.toDigits 10 (den / num)).length
    if den ≤ num * Nat.pow 10 (k - 1) then 1 - (k : Int) else -(k : Int)

/-- Drops the zeros at the end of the numeral with significand `s` and exponent `k`. -/
def dropZeros (s : Nat) (k : Int) : Nat → Nat × Int
  | 0 => (s, k)
  | steps + 1 => if s ≠ 0 ∧ s % 10 = 0 then dropZeros (s / 10) (k + 1) steps else (s, k)

/-- The significand and the exponent of the shortest numeral of `x`, a positive number. Seventeen
digits are enough for every number. -/
def digits (x : Double) : Nat × Int :=
  let (num, den) := x.toQuotient
  let top := leading num den
  let found := (List.range 18).findSome? fun (n : Nat) =>
    let k := top - (n : Int)
    (x.numeralAt? k).map fun s => (s, k)
  match found with
  | some (s, k) => dropZeros s k 20
  | none => (0, 0)

/-- The text of `exponent`. Both signs are written. -/
def exponentText (exponent : Int) : String :=
  (if exponent < 0 then "e-" else "e+") ++ toString exponent.natAbs

/-- The text of `x` under the given sign. -/
def text (negative : Bool) (x : Double) : String :=
  let sign := if negative then "-" else ""
  if x.mantissa = 0 then sign ++ "0.0"
  else
    let (s, k) := x.digits
    let ds := Nat.toDigits 10 s
    let point : Int := ds.length + k
    let zeros (n : Int) := List.replicate n.toNat '0'
    let body : List Char :=
      if 0 ≤ k ∧ point ≤ 16 then ds ++ zeros k ++ ['.', '0']
      else if 0 < point ∧ point ≤ 16 then ds.take point.toNat ++ ['.'] ++ ds.drop point.toNat
      else if -5 < point ∧ point ≤ 0 then ['0', '.'] ++ zeros (-point) ++ ds
      else
        let exponent := (exponentText (point - 1)).toList
        match ds with
        | [d] => d :: exponent
        | d :: rest => [d, '.'] ++ rest ++ exponent
        | [] => []
    sign ++ String.ofList body

end KindSchema.Double
