import KindSchema.Kind.Validation
import KindSchema.Resolved.Basic
import KindSchema.Resolved.FreshName
import KindSchema.Resolved.Sharing

/-!
# Resolution

`Kind.resolve` turns a kind into a resolved kind, under a policy that says what the target language
cannot write inline. The same kind and policy always give the same names.

A struct with a name annotation is lifted to a declaration of that name. An anonymous one is lifted,
under the name of its field path, if it is shared, if it has documentation of its own, or if it is
the element of an array or a map and the policy asks for it. Enumerations are lifted if the policy
says so. The sections themselves are never lifted.

The work is split in two. `typeUse` and `fieldUses` follow the structure of a type, and hand each
reference to a function that they are given. `referenceUse` is that function: it resolves the
definition a name means, inside a list of the definitions that are open. As no name is opened twice,
it ends when all definitions are open.

Each step takes the names given so far and yields, next to its result, the declarations it made: a
declaration comes before those that its own body made.
-/

namespace KindSchema

/-- What a target language needs as declarations with names. -/
structure Policy where
  /-- Lift anonymous structs that are elements of arrays or maps. -/
  liftContainedStructs : Bool := false
  liftEnums : Bool := false
deriving DecidableEq, Repr

namespace Policy

/-- Whatever may stand inline does. -/
def inline : Policy := {}

/-- For a language that has no anonymous element types and no literal types. -/
def nominal : Policy := { liftContainedStructs := true, liftEnums := true }

end Policy

/-- Where a type is used. -/
inductive Place
  /-- The type of a field. -/
  | member
  /-- The element type of an array or a map. -/
  | element
deriving DecidableEq, Repr

namespace Resolution

/-- The names given so far. -/
structure Names where
  /-- Every name that must not be given again. -/
  used : List String
  /-- The structs that have been lifted, with their names. -/
  lifted : List (StructType × String) := []
  /-- The definitions that have been resolved. -/
  defined : List String := []
deriving Repr

namespace Names

/-- Reserves `name`. -/
def reserve (names : Names) (name : String) : Names :=
  { names with used := name :: names.used }

/-- Reserves `name` for the struct `s`. -/
def lift (names : Names) (s : StructType) (name : String) : Names :=
  { names with used := name :: names.used, lifted := (s, name) :: names.lifted }

/-- Records that the definition `name` has been resolved. -/
def define (names : Names) (name : String) : Names :=
  { names with defined := name :: names.defined }

end Names

/-- The outcome of a step: its result in `α`, the declarations it made, and the names given after
it. -/
structure Step (α : Type) where
  result : α
  declarations : List Declaration
  names : Names
deriving Repr

/-- The step `s` with `f` applied to its result. -/
def Step.map {α β : Type} (f : α → β) (s : Step α) : Step β :=
  ⟨f s.result, s.declarations, s.names⟩

/-- What stays the same during a resolution. -/
structure Context where
  policy : Policy
  kind : Kind
  /-- The anonymous structs of the kind, each as often as it is met. -/
  sightings : List StructType

/-- The base for the name of `s` if it has to be lifted where it is used, at `path`. -/
def Context.liftedBase? (c : Context) (s : StructType) (path : List String) (place : Place) :
    Option String :=
  match s.name with
  | some label => some label
  | none =>
    if 2 ≤ c.sightings.count s ∨ s.docs ≠ [] ∨
        (place = .element ∧ c.policy.liftContainedStructs) then
      some (Naming.typeName path)
    else none

/-- How a reference is resolved: from the path where it stands, the name, and the names given. -/
abbrev Refer := List String → String → Names → Except SchemaError (Step Shape)

mutual

/-- Resolves a type that is used at a field path; `docs` documents an enumeration that is lifted. -/
def typeUse (c : Context) (refer : Refer) (path docs : List String) (place : Place) :
    TypeExpr → Names → Except SchemaError (Step Shape)
  | .scalar kind, names => .ok ⟨.scalar kind, [], names⟩
  | .enum values, names =>
    if c.policy.liftEnums then
      let name := freshName names.used (Naming.typeName path)
      .ok ⟨.named name, [⟨name, docs, .enum values, .lifted path⟩], names.reserve name⟩
    else .ok ⟨.enum values, [], names⟩
  | .array items, names => do
    let step ← typeUse c refer path docs .element items names
    .ok (step.map .array)
  | .map values, names => do
    let step ← typeUse c refer path docs .element values names
    .ok (step.map .map)
  | .struct ⟨label, structDocs, fields⟩, names =>
    match names.lifted.lookup ⟨label, structDocs, fields⟩ with
    -- A struct that has been lifted is not followed again: its declaration is there, or under way.
    | some name => .ok ⟨.named name, [], names⟩
    | none =>
      match c.liftedBase? ⟨label, structDocs, fields⟩ path place with
      | none => do
        let step ← fieldUses c refer path fields names
        .ok (step.map .struct)
      | some base => do
        -- The name is given before the fields are followed, so it is older than any name in them.
        let name := freshName names.used base
        let step ← fieldUses c refer path fields
          (names.lift ⟨label, structDocs, fields⟩ name)
        .ok ⟨.named name,
          ⟨name, structDocs, .struct step.result, .lifted path⟩ :: step.declarations, step.names⟩
  | .reference name, names => refer path name names

/-- Resolves the types of the fields of the struct at `path`, in order; `refer` resolves
references. -/
def fieldUses (c : Context) (refer : Refer) (path : List String) :
    List (Field TypeExpr) → Names → Except SchemaError (Step (List (Field Shape)))
  | [], names => .ok ⟨[], [], names⟩
  | ⟨name, type, optional, docs⟩ :: fields, names => do
    let first ← typeUse c refer (path ++ [name]) docs .member type names
    let rest ← fieldUses c refer path fields first.names
    .ok ⟨⟨name, first.result, optional, docs⟩ :: rest.result,
      first.declarations ++ rest.declarations, rest.names⟩

end

/-- Resolves the body of `d`; `refer` resolves references. -/
def bodyOf (c : Context) (refer : Refer) (d : Definition) (names : Names) :
    Except SchemaError (Step Body) :=
  match d.type with
  | .struct s => do
    let step ← fieldUses c refer [d.name] s.fields names
    .ok (step.map .struct)
  | .enum values => .ok ⟨.enum values, [], names⟩
  | type => do
    let step ← typeUse c refer [d.name] d.docs .member type names
    .ok (step.map .synonym)

/-- The documentation of the declaration of `d`: its own, else that of its struct. -/
def docsOf (d : Definition) : List String :=
  match d.type with
  | .struct s => if d.docs = [] then s.docs else d.docs
  | _ => d.docs

/-- The definitions that `k` can refer to, its own before the built-in ones. -/
def definitionsOf (k : Kind) : List Definition :=
  k.definitions ++ builtinDefinitions

/-- How many definitions of `k` are not in `opened`. -/
def unopened (k : Kind) (opened : List String) : Nat :=
  (definitionsOf k).countP (fun d => d.name ∉ opened)

/-- Opening the definition `name` leaves fewer that are not open. -/
theorem unopened_lt {k : Kind} {opened : List String} {name : String} {d : Definition}
    (h : k.definition? name = some d) (hn : name ∉ opened) :
    unopened k (opened ++ [name]) < unopened k opened := by
  have hd : d ∈ definitionsOf k ∧ d.name = name := by
    unfold Kind.definition? builtinDefinition? at h
    rw [← List.find?_append] at h
    exact ⟨List.mem_of_find?_eq_some h, by simpa using List.find?_some h⟩
  obtain ⟨hmem, rfl⟩ := hd
  obtain ⟨before, after, hsplit⟩ := List.append_of_mem hmem
  have hfewer (l : List Definition) :
      l.countP (fun e => e.name ∉ opened ++ [d.name]) ≤ l.countP (fun e => e.name ∉ opened) :=
    List.countP_mono_left fun e _ he => by simp_all
  have hbefore := hfewer before
  have hafter := hfewer after
  simp only [unopened, hsplit, List.countP_append, List.countP_cons]
  have hopened : decide (d.name ∉ opened ++ [d.name]) = false := by simp
  have hunopened : decide (d.name ∉ opened) = true := by simp [hn]
  simp only [hopened, hunopened]
  simp only [Bool.false_eq_true, ↓reduceIte]
  omega

/-- Resolves the reference to `name` inside the definitions of `opened`, the outermost first. -/
def referenceUse (c : Context) (opened path : List String) (name : String) (names : Names) :
    Except SchemaError (Step Shape) :=
  if name ∈ names.defined then .ok ⟨.named name, [], names⟩
  else if _hn : name ∈ opened then
    -- The chain starts where the name was opened first.
    .error (.cycle (opened.dropWhile (· != name) ++ [name]))
  else match _hd : c.kind.definition? name with
    | none => .error (.unresolvedReference (".".intercalate path) name)
    | some d => do
      let step ← bodyOf c
        (fun path other names => referenceUse c (opened ++ [name]) path other names) d names
      .ok ⟨.named name, ⟨name, docsOf d, step.result, .defined⟩ :: step.declarations,
        step.names.define name⟩
termination_by unopened c.kind opened
decreasing_by exact unopened_lt _hd _hn

/-- Resolves the section `name` whose type is any type. Its struct stays in place. -/
def sectionUse (c : Context) (name : String) (docs : List String) (type : TypeExpr)
    (names : Names) : Except SchemaError (Step (Field Shape)) :=
  let field (shape : Shape) : Field Shape := { name, type := shape, docs }
  match type with
  | .struct s => do
    let step ← fieldUses c (referenceUse c []) [name] s.fields names
    .ok (step.map fun fields => field (.struct fields))
  | type => do
    let step ← typeUse c (referenceUse c []) [name] docs .member type names
    .ok (step.map field)

/-- The context of `k` under `policy`. -/
def contextOf (policy : Policy) (k : Kind) : Context :=
  { policy, kind := k, sightings := k.sightings }

/-- The names that no lifted type of `k` may have. -/
def reservedNames (k : Kind) : List String :=
  k.name :: (definitionsOf k).map (·.name)

end Resolution

open Resolution in
/-- Resolves `k` under `policy`, or finds the first of its errors: of its form before those of its
references. -/
def Kind.resolve (policy : Policy) (k : Kind) : Except SchemaError ResolvedKind := do
  k.validate
  let c := contextOf policy k
  let metadata ← sectionUse c "metadata" k.metadata.docs k.metadata.type
    { used := reservedNames k }
  let spec ← sectionUse c "spec" k.spec.docs (.struct k.spec) metadata.names
  let status ← sectionUse c "status" k.status.docs (.struct k.status) spec.names
  return {
    name := k.name
    machineName := k.machineName
    description := k.description
    metadata := metadata.result
    spec := spec.result
    status := status.result
    declarations := metadata.declarations ++ spec.declarations ++ status.declarations }

end KindSchema
