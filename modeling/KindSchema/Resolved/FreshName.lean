/-!
# Fresh names

A fresh name for a base is the first of these that is not in use: the base, the base followed by 1,
by 2, and so on. An empty base counts as `Anonymous`.

The names that are tried are pairwise different. So if one more of them is tried than there are
names in use, one is free, and the search needs no more steps than that.
-/

namespace KindSchema

/-- The text `base` followed by the number `n`. -/
def numbered (base : String) (n : Nat) : String :=
  base ++ toString n

/-- The base for the name of a type: `base`, unless it is empty. -/
def nonemptyBase (base : String) : String :=
  if base = "" then "Anonymous" else base

/-- The name for `base` that is tried at a position: first the base, then the base with a number. -/
def candidate (base : String) : Nat → String
  | 0 => nonemptyBase base
  | n + 1 => numbered (nonemptyBase base) (n + 1)

/-- A name that was free, the names in use since it was taken, and how many names were tried. -/
structure FreeName where
  name : String
  used : List String
  tries : Nat

/-- Tries the names for `base`, from `position` on and at most `limit` of them, and takes the first
one that is not among the names `used`. -/
def takeFree? (base : String) (used : List String) : (limit position : Nat) → Option FreeName
  | 0, _ => none
  | limit + 1, position =>
    if candidate base position ∈ used then takeFree? base used limit (position + 1)
    else some
      { name := candidate base position
        used := candidate base position :: used
        tries := position + 1 }

/-- A name for `base` that is not among the names `used`. -/
def freshName (used : List String) (base : String) : String :=
  ((takeFree? base used (used.length + 1) 0).map (·.name)).getD ""

end KindSchema
