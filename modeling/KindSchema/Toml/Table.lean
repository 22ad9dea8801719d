/-!
# TOML values and tables

`Toml.Value` is what a document holds. While a document is read, its tables are open: a header or
a dotted key may add to them, under rules that depend on how a table came about. `Toml.Entry` is
such an unfinished value, and `Members.update` leads along a path of keys to the table that
something is added to.

* A table that a header names may be named only once. Headers of tables below it may stand before or
  after.
* A dotted key makes the tables on its way. It may add to tables that dotted keys have made, and
  go on through tables that came about only as parts of the headers of others.
* A value, and so an array or a table written inline, is closed.
-/

namespace KindSchema.Toml

/-- A value of a document. -/
inductive Value
  | string (s : String)
  | boolean (b : Bool)
  | integer (n : Int)
  /-- A floating point number, as it is written. -/
  | float (text : String)
  /-- A date, a time, or both, as it is written. -/
  | dateTime (text : String)
  | array (items : List Value)
  | table (members : List (String × Value))
deriving Repr, Inhabited

/-- How a table came about. -/
inductive Opening
  /-- As a part of the header of another table. -/
  | implied
  /-- By a dotted key. -/
  | dotted
  /-- By a header of its own. -/
  | named
deriving DecidableEq, Repr

/-- A value of a document that is being read. -/
inductive Entry
  | closed (value : Value)
  | table (opening : Opening) (members : List (String × Entry))
  /-- An array of tables, the last one first. -/
  | tables (elements : List (List (String × Entry)))
deriving Repr, Inhabited

/-- The members of a table that is being read. -/
abbrev Members := List (String × Entry)

namespace Members

/-- The members with `entry` under `key`, in the place of the one that is there, or at the end. -/
def set (key : String) (entry : Entry) : Members → Members
  | [] => [(key, entry)]
  | (k, e) :: members =>
    if k = key then (k, entry) :: members else (k, e) :: set key entry members

/-- The entry under `key`, which was set. -/
@[simp] theorem lookup_set_self (key : String) (entry : Entry) (members : Members) :
    (members.set key entry).lookup key = some entry := by
  induction members with
  | nil => simp [set]
  | cons member members ih =>
    obtain ⟨k, e⟩ := member
    by_cases h : k = key
    · simp [set, h]
    · simp [set, h, ih, List.lookup_cons, beq_eq_false_iff_ne.2 (Ne.symm h)]

/-- Setting `key` changes no other one. -/
theorem lookup_set_of_ne {key other : String} (h : other ≠ key) (entry : Entry)
    (members : Members) : (members.set key entry).lookup other = members.lookup other := by
  induction members with
  | nil => simp [set, List.lookup_cons, beq_eq_false_iff_ne.2 h]
  | cons member members ih =>
    obtain ⟨k, e⟩ := member
    by_cases hk : k = key
    · simp [set, hk, List.lookup_cons, beq_eq_false_iff_ne.2 h]
    · simp [set, hk, ih, List.lookup_cons]

/-- Changes the table that a path of keys leads to. `dotted` tells whether the path is that of a
dotted key; `change` gets the way in which the table came about. -/
def update (dotted : Bool) (change : Opening → Members → Option Members) (opening : Opening)
    (members : Members) : List String → Option Members
  | [] => change opening members
  | key :: path =>
    match members.lookup key with
    | none => do
      let made : Opening := if dotted then .dotted else .implied
      let inner ← update dotted change made [] path
      return set key (.table made inner) members
    | some (.table inside inner) => do
      if dotted ∧ inside = .named then none
      else
        let inner ← update dotted change inside inner path
        return set key (.table inside inner) members
    | some (.tables (last :: before)) => do
      let last ← update dotted change .named last path
      return set key (.tables (last :: before)) members
    | some _ => none

/-- Adds `entry` under `key`, if that is not there yet. -/
def add (key : String) (entry : Entry) (members : Members) : Option Members :=
  if (members.lookup key).isSome then none else some (members ++ [(key, entry)])

/-- Adds `value` under `key`, the last key of a dotted key; the keys before it are `path`, the path
to its table. -/
def addValue (path : List String) (key : String) (value : Value) (members : Members) :
    Option Members :=
  members.update true
    (fun opening inner =>
      if path ≠ [] ∧ opening ≠ .dotted then none else add key (.closed value) inner)
    .named path

/-- Names the table under `key` by a header. -/
def nameTable (key : String) (members : Members) : Option Members :=
  match members.lookup key with
  | none => some (members ++ [(key, .table .named [])])
  | some (.table .implied inner) => some (set key (.table .named inner) members)
  | some _ => none

/-- Adds a table to the array of tables under `key`. -/
def appendTable (key : String) (members : Members) : Option Members :=
  match members.lookup key with
  | none => some (members ++ [(key, .tables [[]])])
  | some (.tables elements) => some (set key (.tables ([] :: elements)) members)
  | some _ => none

/-- Does what a header says, which is `change`, to the table that holds what the header names;
`path` leads to that table. -/
def header (path : List String) (change : Members → Option Members) (members : Members) :
    Option Members :=
  members.update false (fun _ inner => change inner) .named path

end Members

mutual

/-- The value of an entry when the document has been read. -/
def Entry.value : Entry → Value
  | .closed value => value
  | .table _ members => .table (valuesOf members)
  | .tables elements => .array (tablesOf elements).reverse

/-- The values of some members. -/
def valuesOf : List (String × Entry) → List (String × Value)
  | [] => []
  | (key, entry) :: members => (key, entry.value) :: valuesOf members

/-- The values of some tables. -/
def tablesOf : List (List (String × Entry)) → List Value
  | [] => []
  | members :: elements => .table (valuesOf members) :: tablesOf elements

end

end KindSchema.Toml
