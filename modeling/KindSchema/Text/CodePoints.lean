/-!
# Sets of code points

A property of characters is a set of code points. Such a set is written down by its boundaries:
the ascending list of the first code point inside, the first one outside again, the next one
inside, and so on. Membership is decided by walking along the boundaries.
-/

namespace KindSchema

/-- Whether code point `n` lies in the set with the given boundaries. An unpaired last boundary
opens a range without end. -/
def withinBounds : List Nat → Nat → Bool
  | [], _ => false
  | [first], n => first ≤ n
  | first :: stop :: rest, n =>
    if n < first then false else if n < stop then true else withinBounds rest n

end KindSchema
