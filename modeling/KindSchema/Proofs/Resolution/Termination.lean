import Mathlib.Data.Finset.Card
import Mathlib.Data.Prod.Lex
import KindSchema.Proofs.Resolution.Correspondence

/-!
# The end of a resolution

A reference leads from a type to one that may be larger, so the size of the type alone does not get
less from call to call. What gets less is first the number of definitions that are neither open nor
resolved, and then the size. A definition is opened before its body is followed, and is resolved
when it is no longer open, so a call finds no more of them than the calls before it.

Here the resolution is written once more, with the functions calling each other, and each call
checks this: it is given what its caller had in front of it, and goes on only if it has less itself.
Such calls cannot follow each other for ever. The outcome is that of the resolution for every kind,
so the check never fails.

* `remaining`: what a call has in front of it.
* `typeBelow`, `structBelow`, `fieldsBelow`, `referenceBelow`, `bodyBelow`, `sectionBelow`: the
  functions of the resolution with the check.
* `typeBelow_eq`, `fieldsBelow_eq`, `referenceBelow_eq`, `sectionBelow_eq`: a call that passes its
  own check has the outcome of the resolution, so those it makes have passed theirs.
* `Kind.resolveBelow_eq`: every resolution passes all checks.
-/

namespace KindSchema

namespace TypeExpr

mutual

/-- How many types and fields a type is made of. A struct counts twice, as a type and as itself. -/
def size : TypeExpr → ℕ
  | .scalar _ => 1
  | .enum _ => 1
  | .array items => size items + 1
  | .map values => size values + 1
  | .struct ⟨_, _, fields⟩ => fieldsSize fields + 2
  | .reference _ => 1

/-- How many types and fields some fields are made of. -/
def fieldsSize : List (Field TypeExpr) → ℕ
  | [] => 0
  | ⟨_, type, _, _⟩ :: fields => size type + fieldsSize fields + 1

end

private theorem size_lt_array (items : TypeExpr) : items.size < (array items).size := by
  simp [size]

private theorem size_lt_map (values : TypeExpr) : values.size < (map values).size := by
  simp [size]

private theorem fieldsSize_lt_struct (s : StructType) :
    fieldsSize s.fields + 1 < (struct s).size := by
  cases s
  simp [size]

private theorem fieldsSize_lt_type (s : StructType) : fieldsSize s.fields < (struct s).size :=
  (Nat.lt_succ_self _).trans (fieldsSize_lt_struct s)

private theorem size_reference_pos (name : String) : 0 < (reference name).size := by
  simp [size]

private theorem size_lt_cons (f : Field TypeExpr) (fields : List (Field TypeExpr)) :
    f.type.size < fieldsSize (f :: fields) := by
  cases f
  simp only [fieldsSize]
  omega

private theorem fieldsSize_lt_cons (f : Field TypeExpr) (fields : List (Field TypeExpr)) :
    fieldsSize fields < fieldsSize (f :: fields) := by
  cases f
  simp only [fieldsSize]
  omega

end TypeExpr

namespace Resolution

/-! ### What a call has in front of it -/

/-- The names of the definitions of `k` that are neither in `opened` nor resolved. -/
def untouched (k : Kind) (opened : List String) (names : Names) : Finset String :=
  ((definitionsOf k).map (·.name)).toFinset \ (opened ++ names.defined).toFinset

/-- How many definitions of `k` are neither in `opened` nor resolved, and then `size`. -/
def remaining (k : Kind) (opened : List String) (names : Names) (size : ℕ) : ℕ ×ₗ ℕ :=
  toLex ((untouched k opened names).card, size)

section Remaining

variable {k : Kind} {opened : List String} {names names' : Names} {m n : ℕ}

private theorem mem_untouched {name : String} : name ∈ untouched k opened names ↔
    name ∈ (definitionsOf k).map (·.name) ∧ name ∉ opened ∧ name ∉ names.defined := by
  simp only [untouched, Finset.mem_sdiff, List.mem_toFinset, List.mem_append, not_or]

/-- A smaller type is less, even when more definitions have been resolved by then. -/
private theorem remaining_lt_of_size (hdefined : names.defined ⊆ names'.defined) (hsize : n < m) :
    remaining k opened names' n < remaining k opened names m := by
  have hsubset : untouched k opened names' ⊆ untouched k opened names := by
    intro name hname
    obtain ⟨hmem, unopened, unknown⟩ := mem_untouched.mp hname
    exact mem_untouched.mpr ⟨hmem, unopened, fun known => unknown (hdefined known)⟩
  rcases (Finset.card_le_card hsubset).lt_or_eq with hcard | hcard
  · exact Prod.Lex.toLex_lt_toLex.mpr (.inl hcard)
  · exact Prod.Lex.toLex_lt_toLex.mpr (.inr ⟨hcard, hsize⟩)

/-- The type of a definition that is opened is less, whatever its size. -/
private theorem remaining_lt_of_opening {name : String} {d : Definition}
    (found : k.definition? name = some d) (unknown : name ∉ names.defined)
    (unopened : name ∉ opened) :
    remaining k (opened ++ [name]) names n < remaining k opened names m := by
  obtain ⟨hmem, rfl⟩ := Kind.definition?_eq_some found
  have huntouched : d.name ∈ untouched k opened names :=
    mem_untouched.mpr ⟨List.mem_map_of_mem hmem, unopened, unknown⟩
  have hopen : d.name ∉ untouched k (opened ++ [d.name]) names := fun h =>
    (mem_untouched.mp h).2.1 (List.mem_append_right _ (List.mem_singleton_self _))
  have hsubset : untouched k (opened ++ [d.name]) names ⊆ untouched k opened names := by
    intro other hother
    obtain ⟨hmem, hopened, hunknown⟩ := mem_untouched.mp hother
    exact mem_untouched.mpr ⟨hmem, fun h => hopened (List.mem_append_left _ h), hunknown⟩
  have hssubset := (Finset.ssubset_iff_of_subset hsubset).mpr ⟨d.name, huntouched, hopen⟩
  exact Prod.Lex.toLex_lt_toLex.mpr (.inl (Finset.card_lt_card hssubset))

end Remaining

/-! ### Calls that are checked -/

/-- The computations in which a call may fail its check. -/
abbrev Checked := ExceptT SchemaError Option

namespace Checked

variable {α β : Type}

/-- The outcome `outcome` as that of a computation in which no call has failed its check. -/
def passed (outcome : Except SchemaError α) : Checked α :=
  ExceptT.mk (some outcome)

/-- A call that goes on with `body` only if `own`, what is in front of it, is less than `limit`. -/
def call (own limit : ℕ ×ₗ ℕ) (body : own < limit → Checked α) : Checked α :=
  if h : own < limit then body h else ExceptT.mk none

private theorem call_of_lt {own limit : ℕ ×ₗ ℕ} (h : own < limit) (body : own < limit → Checked α) :
    call own limit body = body h :=
  dif_pos h

private theorem call_congr {own limit : ℕ ×ₗ ℕ} {body body' : own < limit → Checked α}
    (h : ∀ below, body below = body' below) : call own limit body = call own limit body' := by
  rw [funext h]

/-- A computation passes if its first part does, and the rest does after every result of it. -/
private theorem passed_bind {outcome : Except SchemaError α} {next : α → Except SchemaError β}
    {next' : α → Checked β} (h : ∀ a, outcome = .ok a → next' a = passed (next a)) :
    (passed outcome >>= next') = passed (outcome >>= next) := by
  cases outcome with
  | error e => rfl
  | ok a => exact h a rfl

end Checked

open Checked

/-- A call about a smaller type goes on, if no definition has been opened or resolved before it. -/
private theorem call_of_size_lt {α : Type} {k : Kind} {opened : List String} {names : Names}
    {m n : ℕ} (hsize : n < m)
    (body : remaining k opened names n < remaining k opened names m → Checked α) :
    call (remaining k opened names n) (remaining k opened names m) body =
      body (remaining_lt_of_size (List.Subset.refl _) hsize) :=
  call_of_lt _ _

mutual

/-- Resolves `type` at `path`, below `limit`. -/
def typeBelow (c : Context) (limit : ℕ ×ₗ ℕ) (opened path docs : List String) (place : Place)
    (type : TypeExpr) (names : Names) : Checked (Step Shape) :=
  let own := remaining c.kind opened names type.size
  call own limit fun _ =>
    match type with
    | .scalar kind => pure ⟨.scalar kind, [], names⟩
    | .enum values =>
      if c.policy.liftEnums then
        let name := freshName names.used (Naming.typeName path)
        pure ⟨.named name, [⟨name, docs, .enum values, .lifted path⟩], names.reserve name⟩
      else pure ⟨.enum values, [], names⟩
    | .array items => do
      let step ← typeBelow c own opened path docs .element items names
      pure (step.map .array)
    | .map values => do
      let step ← typeBelow c own opened path docs .element values names
      pure (step.map .map)
    | .struct s => structBelow c own opened path place s names
    | .reference name => referenceBelow c own opened path name names
termination_by limit
decreasing_by all_goals assumption

/-- Resolves the struct `s` where it is used, below `limit`. -/
def structBelow (c : Context) (limit : ℕ ×ₗ ℕ) (opened path : List String) (place : Place)
    (s : StructType) (names : Names) : Checked (Step Shape) :=
  let own := remaining c.kind opened names (TypeExpr.fieldsSize s.fields + 1)
  call own limit fun _ =>
    match names.lifted.lookup s with
    | some name => pure ⟨.named name, [], names⟩
    | none =>
      match c.liftedBase? s path place with
      | none => do
        let step ← fieldsBelow c own opened path s.fields names
        pure (step.map .struct)
      | some base => do
        let name := freshName names.used base
        let step ← fieldsBelow c own opened path s.fields (names.lift s name)
        pure ⟨.named name, ⟨name, s.docs, .struct step.result, .lifted path⟩ :: step.declarations,
          step.names⟩
termination_by limit
decreasing_by all_goals assumption

/-- Resolves the types of `fields`, in order, below `limit`. -/
def fieldsBelow (c : Context) (limit : ℕ ×ₗ ℕ) (opened path : List String)
    (fields : List (Field TypeExpr)) (names : Names) : Checked (Step (List (Field Shape))) :=
  let own := remaining c.kind opened names (TypeExpr.fieldsSize fields)
  call own limit fun _ =>
    match fields with
    | [] => pure ⟨[], [], names⟩
    | f :: fields => do
      let first ← typeBelow c own opened (path ++ [f.name]) f.docs .member f.type names
      let rest ← fieldsBelow c own opened path fields first.names
      pure ⟨f.withType first.result :: rest.result, first.declarations ++ rest.declarations,
        rest.names⟩
termination_by limit
decreasing_by all_goals assumption

/-- Resolves a reference to `name`, below `limit`. -/
def referenceBelow (c : Context) (limit : ℕ ×ₗ ℕ) (opened path : List String) (name : String)
    (names : Names) : Checked (Step Shape) :=
  let own := remaining c.kind opened names 0
  call own limit fun _ =>
    if name ∈ names.defined then pure ⟨.named name, [], names⟩
    else if name ∈ opened then throw (.cycle (opened.dropWhile (· != name) ++ [name]))
    else match c.kind.definition? name with
      | none => throw (.unresolvedReference (".".intercalate path) name)
      | some d => do
        let step ← bodyBelow c own (opened ++ [name]) d names
        pure ⟨.named name, ⟨name, docsOf d, step.result, .defined⟩ :: step.declarations,
          step.names.define name⟩
termination_by limit
decreasing_by all_goals assumption

/-- Resolves the body of `d`, a definition that has been opened, below `limit`. -/
def bodyBelow (c : Context) (limit : ℕ ×ₗ ℕ) (opened : List String) (d : Definition)
    (names : Names) : Checked (Step Body) :=
  let own := remaining c.kind opened names (d.type.size + 1)
  call own limit fun _ =>
    match d.type with
    | .struct s => do
      let step ← fieldsBelow c own opened [d.name] s.fields names
      pure (step.map .struct)
    | .enum values => pure ⟨.enum values, [], names⟩
    | type => do
      let step ← typeBelow c own opened [d.name] d.docs .member type names
      pure (step.map .synonym)
termination_by limit
decreasing_by all_goals assumption

end

/-- Resolves the section `name`, below `limit`. -/
def sectionBelow (c : Context) (limit : ℕ ×ₗ ℕ) (name : String) (docs : List String)
    (type : TypeExpr) (names : Names) : Checked (Step (Field Shape)) :=
  let own := remaining c.kind [] names (type.size + 1)
  let field (shape : Shape) : Field Shape := { name, type := shape, docs }
  call own limit fun _ =>
    match type with
    | .struct s => do
      let step ← fieldsBelow c own [] [name] s.fields names
      pure (step.map fun fields => field (.struct fields))
    | type => do
      let step ← typeBelow c own [] [name] docs .member type names
      pure (step.map field)

/-! ### No check fails -/

section Checks

variable {c : Context} {opened : List String}

/-- That while the definitions in `opened` are open, references pass all checks, if they pass their
own. -/
def ReferencesPass (c : Context) (opened : List String) : Prop :=
  ∀ (limit : ℕ ×ₗ ℕ) (path : List String) (name : String) (names : Names),
    referenceBelow c limit opened path name names =
      call (remaining c.kind opened names 0) limit fun _ =>
        passed (referenceUse c opened path name names)

/-- That `fields`, those of a struct, pass all checks, if they pass their own. -/
def FieldsPass (c : Context) (opened : List String) (fields : List (Field TypeExpr)) : Prop :=
  ∀ (limit : ℕ ×ₗ ℕ) (path : List String) (names : Names),
    fieldsBelow c limit opened path fields names =
      call (remaining c.kind opened names (TypeExpr.fieldsSize fields)) limit fun _ =>
        passed (fieldUses c (referenceUse c opened) path fields names)

/-- That `type` passes all checks, if it passes its own. -/
def TypePasses (c : Context) (opened : List String) (type : TypeExpr) : Prop :=
  ∀ (limit : ℕ ×ₗ ℕ) (path docs : List String) (place : Place) (names : Names),
    typeBelow c limit opened path docs place type names =
      call (remaining c.kind opened names type.size) limit fun _ =>
        passed (typeUse c (referenceUse c opened) path docs place type names)

/-- A struct passes all checks, if its fields do. -/
private theorem structBelow_eq {s : StructType} (hfields : FieldsPass c opened s.fields)
    (limit : ℕ ×ₗ ℕ) (path docs : List String) (place : Place) (names : Names) :
    structBelow c limit opened path place s names =
      call (remaining c.kind opened names (TypeExpr.fieldsSize s.fields + 1)) limit fun _ =>
        passed (typeUse c (referenceUse c opened) path docs place (.struct s) names) := by
  obtain ⟨label, structDocs, fields⟩ := s
  rw [structBelow]
  refine call_congr fun _ => ?_
  dsimp only
  rw [typeUse]
  have hsize := Nat.lt_succ_self (TypeExpr.fieldsSize fields)
  cases names.lifted.lookup ⟨label, structDocs, fields⟩ with
  | some name => rfl
  | none =>
    cases c.liftedBase? ⟨label, structDocs, fields⟩ path place with
    | none =>
      dsimp only
      rw [hfields, call_of_size_lt hsize]
      exact passed_bind fun _ _ => rfl
    | some base =>
      -- The fields are resolved with one more struct lifted, but with the same definitions.
      have hle := Names.Le.lift names ⟨label, structDocs, fields⟩ (freshName names.used base)
      dsimp only
      rw [hfields, call_of_lt (remaining_lt_of_size hle.defined hsize)]
      exact passed_bind fun _ _ => rfl

mutual

/-- Any `type` passes all checks, if references do. -/
theorem typeBelow_eq (hrefer : ReferencesPass c opened) :
    ∀ type : TypeExpr, TypePasses c opened type
  -- The check of the call itself stays; those inside pass because what they resolve is smaller.
  | .scalar kind, limit, path, docs, place, names => by
    rw [typeBelow]
    exact call_congr fun _ => by rw [typeUse]; rfl
  | .enum values, limit, path, docs, place, names => by
    rw [typeBelow]
    refine call_congr fun _ => ?_
    rw [typeUse]
    split <;> rfl
  | .array items, limit, path, docs, place, names => by
    rw [typeBelow]
    refine call_congr fun _ => ?_
    rw [typeUse, typeBelow_eq hrefer items, call_of_size_lt items.size_lt_array]
    exact passed_bind fun _ _ => rfl
  | .map values, limit, path, docs, place, names => by
    rw [typeBelow]
    refine call_congr fun _ => ?_
    rw [typeUse, typeBelow_eq hrefer values, call_of_size_lt values.size_lt_map]
    exact passed_bind fun _ _ => rfl
  | .struct ⟨label, structDocs, fields⟩, limit, path, docs, place, names => by
    rw [typeBelow]
    refine call_congr fun _ => ?_
    have hsize := TypeExpr.fieldsSize_lt_struct ⟨label, structDocs, fields⟩
    rw [structBelow_eq (fieldsBelow_eq hrefer fields) _ path docs, call_of_size_lt hsize]
  -- For a reference the number of definitions goes down instead of the size.
  | .reference name, limit, path, docs, place, names => by
    rw [typeBelow]
    refine call_congr fun _ => ?_
    rw [typeUse, hrefer, call_of_size_lt (TypeExpr.size_reference_pos name)]

/-- Any `fields` pass all checks, if references do. -/
theorem fieldsBelow_eq (hrefer : ReferencesPass c opened) :
    ∀ fields : List (Field TypeExpr), FieldsPass c opened fields
  | [], limit, path, names => by
    rw [fieldsBelow]
    exact call_congr fun _ => by rw [fieldUses]; rfl
  | ⟨name, type, optional, docs⟩ :: fields, limit, path, names => by
    rw [fieldsBelow]
    refine call_congr fun _ => ?_
    have hhead := TypeExpr.size_lt_cons ⟨name, type, optional, docs⟩ fields
    have htail := TypeExpr.fieldsSize_lt_cons ⟨name, type, optional, docs⟩ fields
    dsimp only
    rw [fieldUses, typeBelow_eq hrefer type, call_of_size_lt hhead]
    refine passed_bind fun first hfirst => ?_
    -- The fields behind come upon all that the first one has resolved.
    have hle := (typeUse_run (referenceUse_run c opened) hfirst).le
    rw [fieldsBelow_eq hrefer fields, call_of_lt (remaining_lt_of_size hle.defined htail)]
    exact passed_bind fun _ _ => rfl

end

/-- The body of a definition passes all checks, if references do. -/
private theorem bodyBelow_eq (hrefer : ReferencesPass c opened) (limit : ℕ ×ₗ ℕ) (d : Definition)
    (names : Names) :
    bodyBelow c limit opened d names =
      call (remaining c.kind opened names (d.type.size + 1)) limit fun _ =>
        passed (bodyOf c (referenceUse c opened) d names) := by
  obtain ⟨name, docs, type⟩ := d
  rw [bodyBelow]
  refine call_congr fun _ => ?_
  cases type with
  | enum values => rfl
  | struct s =>
    have hsize := (TypeExpr.fieldsSize_lt_type s).trans (Nat.lt_succ_self _)
    dsimp only
    rw [fieldsBelow_eq hrefer, call_of_size_lt hsize]
    exact passed_bind fun _ _ => rfl
  | _ =>
    dsimp only
    rw [typeBelow_eq hrefer, call_of_size_lt (Nat.lt_succ_self _)]
    exact passed_bind fun _ _ => rfl

/-- References pass all checks, whatever is in `opened`. -/
theorem referenceBelow_eq (c : Context) (opened : List String) : ReferencesPass c opened := by
  intro limit path name names
  rw [referenceBelow]
  refine call_congr fun _ => ?_
  by_cases unknown : name ∈ names.defined
  · rw [referenceUse, if_pos unknown, if_pos unknown]
    rfl
  by_cases unopened : name ∈ opened
  · rw [referenceUse, if_neg unknown, if_neg unknown, if_pos unopened, dif_pos unopened]
    rfl
  rw [if_neg unknown, if_neg unopened]
  cases found : c.kind.definition? name with
  | none =>
    rw [referenceUse_of_missing c path unknown unopened found]
    rfl
  | some d =>
    -- The body is followed with one more definition open, where references pass by induction.
    have hbody := referenceBelow_eq c (opened ++ [name])
    dsimp only
    rw [referenceUse_of_found c path unknown unopened found, bodyBelow_eq hbody,
      call_of_lt (remaining_lt_of_opening found unknown unopened)]
    exact passed_bind fun _ _ => rfl
termination_by unopened c.kind opened
decreasing_by exact unopened_lt found unopened

/-- A section passes all checks, if it passes its own. -/
theorem sectionBelow_eq (limit : ℕ ×ₗ ℕ) (name : String) (docs : List String) (type : TypeExpr)
    (names : Names) :
    sectionBelow c limit name docs type names =
      call (remaining c.kind [] names (type.size + 1)) limit fun _ =>
        passed (sectionUse c name docs type names) := by
  have hrefer := referenceBelow_eq c []
  unfold sectionBelow
  refine call_congr fun _ => ?_
  cases type with
  | struct s =>
    have hsize := (TypeExpr.fieldsSize_lt_type s).trans (Nat.lt_succ_self _)
    dsimp only
    rw [fieldsBelow_eq hrefer, call_of_size_lt hsize]
    exact passed_bind fun _ _ => rfl
  | _ =>
    dsimp only
    rw [typeBelow_eq hrefer, call_of_size_lt (Nat.lt_succ_self _)]
    exact passed_bind fun _ _ => rfl

end Checks

end Resolution

section Kinds

open Resolution Checked

/-- What the calls for the sections of `k` have to be below. -/
def Kind.bound (k : Kind) : ℕ ×ₗ ℕ :=
  toLex ((definitionsOf k).length + 1, 0)

private theorem Kind.remaining_lt_bound (k : Kind) (opened : List String) (names : Names)
    (size : ℕ) :
    remaining k opened names size < k.bound := by
  have hcard : (untouched k opened names).card ≤ (definitionsOf k).length := by
    calc (untouched k opened names).card
      _ ≤ ((definitionsOf k).map (·.name)).toFinset.card := Finset.card_le_card Finset.sdiff_subset
      _ ≤ ((definitionsOf k).map (·.name)).length := List.toFinset_card_le _
      _ = (definitionsOf k).length := List.length_map _
  exact Prod.Lex.toLex_lt_toLex.mpr (.inl (Nat.lt_succ_of_le hcard))

/-- Resolves `k` under `policy`, with all calls checked. -/
def Kind.resolveBelow (policy : Policy) (k : Kind) : Checked ResolvedKind := do
  passed k.validate
  let c := contextOf policy k
  let metadata ← sectionBelow c k.bound "metadata" k.metadata.docs k.metadata.type
    { used := reservedNames k }
  let spec ← sectionBelow c k.bound "spec" k.spec.docs (.struct k.spec) metadata.names
  let status ← sectionBelow c k.bound "status" k.status.docs (.struct k.status) spec.names
  return {
    name := k.name
    machineName := k.machineName
    description := k.description
    metadata := metadata.result
    spec := spec.result
    status := status.result
    declarations := metadata.declarations ++ spec.declarations ++ status.declarations }

/-- The sections of a kind pass all checks. -/
private theorem Kind.sectionBelow_bound (policy : Policy) (k : Kind) (name : String)
    (docs : List String) (type : TypeExpr) (names : Names) :
    sectionBelow (contextOf policy k) k.bound name docs type names =
      passed (sectionUse (contextOf policy k) name docs type names) := by
  rw [sectionBelow_eq]
  exact call_of_lt (k.remaining_lt_bound [] names _) _

/-- Every resolution of `k` passes all checks: each of its calls has less in front of it than its
caller, and the first ones less than a bound that depends on the kind alone. -/
theorem Kind.resolveBelow_eq (policy : Policy) (k : Kind) :
    k.resolveBelow policy = passed (k.resolve policy) := by
  refine passed_bind fun _ _ => ?_
  dsimp only
  rw [Kind.sectionBelow_bound]
  refine passed_bind fun metadata _ => ?_
  rw [Kind.sectionBelow_bound]
  refine passed_bind fun spec _ => ?_
  rw [Kind.sectionBelow_bound]
  exact passed_bind fun status _ => rfl

end Kinds

end KindSchema
