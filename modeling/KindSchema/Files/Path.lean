import KindSchema.Text.Pieces

/-!
# Paths

A path is a text whose parts are separated by slashes. It keeps the way it is written; what it
means is the list of its components. Two paths are the same if their components are: repeated
slashes, a slash at the end, and dots other than a first one make no difference. Nothing is looked
up, so a component `..` stays.
-/

namespace KindSchema

/-- A path as it is written. -/
structure Path where
  text : String
deriving DecidableEq, Repr, Inhabited

namespace Path

/-- A step of a path. -/
inductive Component
  /-- The root of the file system. -/
  | root
  /-- The directory that a relative path starts from, written out. -/
  | current
  /-- The directory above. -/
  | parent
  /-- An entry of a directory. -/
  | entry (name : String)
deriving DecidableEq, Repr

/-- The place of a sort of component in the order of paths. -/
def Component.rank : Component → Nat
  | .root => 0
  | .current => 1
  | .parent => 2
  | .entry _ => 3

/-- Components compare by sort, then by name. -/
instance : Ord Component where
  compare
    | .entry a, .entry b => compare a b
    | a, b => compare a.rank b.rank

/-- Whether `p` starts at the root. -/
def isAbsolute (p : Path) : Bool :=
  p.text.toList.head? == some '/'

/-- The parts of `p` between its slashes. -/
def parts (p : Path) : List String :=
  (pieces (· == '/') p.text.toList).map String.ofList

/-- The component that `part`, which is not the first of its path, stands for, if any. -/
def componentOf? (part : String) : Option Component :=
  if part = "" ∨ part = "." then none
  else if part = ".." then some .parent
  else some (.entry part)

/-- The components of `p`. -/
def components (p : Path) : List Component :=
  match p.parts with
  | [] => []
  | first :: rest =>
    let start :=
      if p.isAbsolute then some .root
      else if first = "." then some .current
      else componentOf? first
    start.toList ++ rest.filterMap componentOf?

/-- Whether `p` and `q` have the same components. -/
def same (p q : Path) : Bool :=
  p.components == q.components

/-- The paths `p` and `q` are the same if and only if their components are. -/
theorem same_iff {p q : Path} : p.same q = true ↔ p.components = q.components := by
  simp [same]

/-- The order of `p` and `q` by their components, one after the other. -/
def compare (p q : Path) : Ordering :=
  compareLex p.components q.components
where
  /-- The order of lists of components. -/
  compareLex : List Component → List Component → Ordering
    | [], [] => .eq
    | [], _ :: _ => .lt
    | _ :: _, [] => .gt
    | a :: as, b :: bs => (Ord.compare a b).then (compareLex as bs)

/-- The path `q` seen from the path `p`. An absolute path stays as it is. -/
def join (p q : Path) : Path :=
  if q.isAbsolute then q
  else if p.text = "" ∨ p.text.toList.getLast? = some '/' then ⟨p.text ++ q.text⟩
  else ⟨p.text ++ "/" ++ q.text⟩

/-- The entry that `p` leads to, unless it ends in the root or in dots. -/
def fileName? (p : Path) : Option String :=
  match p.components.getLast? with
  | some (.entry name) => some name
  | _ => none

/-- The parts of `name` before and after its last dot, if there is a dot other than a first
character. -/
def splitName (name : String) : List Char × Option (List Char) :=
  let chars := name.toList
  let after := (chars.reverse.takeWhile (· != '.')).reverse
  let before := chars.take (chars.length - after.length - 1)
  if before.isEmpty then (chars, none) else (before, some after)

/-- The name of the entry that `p` leads to, without its extension. -/
def fileStem? (p : Path) : Option String :=
  p.fileName?.map fun name => String.ofList (splitName name).1

/-- What follows the last dot in the name of the entry that `p` leads to. -/
def extension? (p : Path) : Option String :=
  p.fileName?.bind fun name => (splitName name).2.map String.ofList

/-- Whether a part of a path is no component; `first` tells whether it is the first part. -/
def isIdle (first : Bool) (part : String) : Bool :=
  part = "" || (!first && part = ".")

/-- A list of parts, the last one first, without idle parts at its end. The first part of a path,
which comes last here, can be idle only if it is empty. -/
def dropIdle : List String → List String
  | [] => []
  | part :: before => if isIdle before.isEmpty part then dropIdle before else part :: before

/-- The path `p` without its last component. The root and the empty path have none. -/
def parent? (p : Path) : Option Path :=
  match dropIdle p.parts.reverse with
  | [] => none
  | _ :: before =>
    -- What is left in front may end in slashes and dots as well.
    match dropIdle before with
    | [] => some ⟨if p.isAbsolute then "/" else ""⟩
    | parts => some ⟨"/".intercalate parts.reverse⟩

end Path

end KindSchema
