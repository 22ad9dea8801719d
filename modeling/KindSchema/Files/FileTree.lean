import KindSchema.Files.FileStore

/-!
# Trees of files in memory

A file tree maps locations to files and directories. A location is the list of names that leads to
it from the root; a path is looked up step by step from the working directory, so that a step `..`
goes back to the directory above, and every step but the last must lead to a directory.

A tree is a file store by way of the state monad.
-/

namespace KindSchema

/-- What is at a location. -/
inductive Node
  | directory
  /-- A file that holds text. -/
  | text (content : String)
  /-- A file that does not hold text. -/
  | binary
deriving DecidableEq, Repr

/-- The names that lead to a place from the root. -/
abbrev Location := List String

/-- Files and directories by location. -/
structure FileTree where
  /-- The working directory. -/
  base : Location
  nodes : List (Location × Node)
deriving Repr

namespace FileTree

/-- The tree that holds nothing but the working directory `base` and the directories above it. -/
def empty (base : Location) : FileTree :=
  { base, nodes := (List.range (base.length + 1)).map fun n => (base.take n, .directory) }

/-- What is at `location`. -/
def node? (t : FileTree) (location : Location) : Option Node :=
  if location = [] then some .directory else t.nodes.lookup location

/-- The tree `t` with `node` put at `location`. -/
def put (t : FileTree) (location : Location) (node : Node) : FileTree :=
  { t with nodes := (location, node) :: t.nodes.filter (·.1 != location) }

/-- The tree `t` without `location` and everything below it. -/
def remove (t : FileTree) (location : Location) : FileTree :=
  { t with nodes := t.nodes.filter fun entry => !location.isPrefixOf entry.1 }

/-- What is put at `location` is there. -/
@[simp] theorem node?_put_self (t : FileTree) {location : Location} (h : location ≠ [])
    (node : Node) : (t.put location node).node? location = some node := by
  simp [node?, put, h]

/-- Looking up a key other than the one whose entries are left out. -/
theorem lookup_filter_of_ne {location other : Location} (h : other ≠ location)
    (nodes : List (Location × Node)) :
    (nodes.filter (·.1 != location)).lookup other = nodes.lookup other := by
  induction nodes with
  | nil => rfl
  | cons entry nodes ih =>
    obtain ⟨key, node⟩ := entry
    by_cases hkey : key = location
    · subst hkey
      simp [ih, List.lookup_cons, beq_eq_false_iff_ne.2 h]
    · by_cases hother : other = key <;> simp [hkey, hother, ih, List.lookup_cons]

/-- Putting a node at `location` changes nothing elsewhere. -/
theorem node?_put_of_ne (t : FileTree) {location other : Location} (h : other ≠ location)
    (node : Node) : (t.put location node).node? other = t.node? other := by
  simp only [node?, put, List.lookup_cons, beq_eq_false_iff_ne.2 h, lookup_filter_of_ne h]

/-! ### Looking up paths -/

/-- The most bytes that a name may have. -/
def nameLimit : Nat := 255

/-- Fewer bytes than these a path may have. -/
def pathLimit : Nat := 4096

/-- One step of a path from `location`, by `part`, what stands between two slashes. -/
def step (location : Location) (part : String) : Except FileError Location :=
  if part = "" ∨ part = "." then .ok location
  else if part = ".." then .ok location.dropLast
  else if part.utf8ByteSize ≤ nameLimit then .ok (location ++ [part])
  else .error (.other "file name too long")

/-- Fails unless there is a directory at `location`. -/
def enter (t : FileTree) (location : Location) : Except FileError Unit :=
  match t.node? location with
  | some .directory => .ok ()
  | some _ => .error (.other "not a directory")
  | none => .error .notFound

/-- Where the parts of a path lead from `location`. All but the last must lead to directories. -/
def walk (t : FileTree) (location : Location) : List String → Except FileError Location
  | [] => .ok location
  | part :: parts => do
    t.enter location
    walk t (← step location part) parts

/-- Where the parts of `p` start from. -/
def start (t : FileTree) (p : Path) : Location :=
  if p.isAbsolute then [] else t.base

/-- Fails if the text of `p` is one that no path can be. -/
def checkText (p : Path) : Except FileError Unit :=
  if p.text.toList.contains '\x00' then .error (.other "file name contained an unexpected NUL byte")
  else if pathLimit ≤ p.text.utf8ByteSize then .error (.other "file name too long")
  else .ok ()

/-- The location of `p`. There need not be anything at it. -/
def locate (t : FileTree) (p : Path) : Except FileError Location := do
  checkText p
  if p.text = "" then throw .notFound
  t.walk (t.start p) p.parts

/-! ### Operations -/

/-- The text of the file at `p`. -/
def readText (t : FileTree) (p : Path) : Except FileError String := do
  match t.node? (← t.locate p) with
  | some (.text content) => return content
  | some .binary => throw (.other "stream did not contain valid UTF-8")
  | some .directory => throw (.other "is a directory")
  | none => throw .notFound

/-- Whether there is a directory at `p`. -/
def isDirectory (t : FileTree) (p : Path) : Bool :=
  match t.locate p with
  | .ok location => t.node? location == some .directory
  | .error _ => false

/-- The name of `location` as an entry of `directory`, if it is one. -/
def entryName? (directory location : Location) : Option String :=
  match location.getLast? with
  | some name => if location.dropLast = directory then some name else none
  | none => none

/-- The names of the entries of the directory at `p`. -/
def entryNames (t : FileTree) (p : Path) : Except FileError (List String) := do
  let directory ← t.locate p
  t.enter directory
  return t.nodes.filterMap fun entry => entryName? directory entry.1

/-- Makes the directories that the parts of a path lead through from `location`, as far as they are
missing. Those made before a failure stay. -/
def makeAlong (t : FileTree) (location : Location) : List String → Except FileError Unit × FileTree
  | [] => (.ok (), t)
  | part :: parts =>
    match step location part with
    | .error e => (.error e, t)
    | .ok next =>
      match t.node? next with
      -- Steps that go back or stay lead to directories that are there.
      | some .directory => makeAlong t next parts
      | some _ => (.error (.other "not a directory"), t)
      | none => makeAlong (t.put next .directory) next parts

/-- Makes the directory at `p` and those above it. -/
def makeDirectories (t : FileTree) (p : Path) : Except FileError Unit × FileTree :=
  match checkText p with
  | .error e => (.error e, t)
  | .ok () => if p.text = "" then (.ok (), t) else t.makeAlong (t.start p) p.parts

/-- Makes the node `file` the file at `p`. -/
def putFile (t : FileTree) (p : Path) (file : Node) : Except FileError FileTree := do
  let location ← t.locate p
  if t.node? location = some .directory then throw (.other "is a directory")
  return t.put location file

/-- Makes `content` the content of the file at `p`. -/
def writeText (t : FileTree) (p : Path) (content : String) : Except FileError Unit × FileTree :=
  match t.putFile p (.text content) with
  | .ok t => (.ok (), t)
  | .error e => (.error e, t)

instance : FileStore (StateM FileTree) where
  readText p := do return (← get).readText p
  isDirectory p := do return (← get).isDirectory p
  entryNames p := do return (← get).entryNames p
  makeDirectories p := modifyGet (·.makeDirectories p)
  writeText p content := modifyGet (·.writeText p content)

/-- The files below `p` by the paths to them from the working directory, each with its text, if it
holds text. -/
def filesBelow (t : FileTree) (p : Path) : List (String × Option String) :=
  match t.locate p with
  | .error _ => []
  | .ok top =>
    t.nodes.filterMap fun (location, node) =>
      let shown := "/".intercalate (location.drop t.base.length)
      if top.isPrefixOf location then
        match node with
        | .directory => none
        | .text content => some (shown, some content)
        | .binary => some (shown, none)
      else none

end FileTree

end KindSchema
