import KindSchema.Proofs.Kind.Validation
import KindSchema.Resolved.Resolution

/-!
# Runs of the resolution

A run is a derivation of a step that succeeds. `TypeRun`, `FieldsRun` and `BodyRun` have one rule
for each branch of `typeUse`, `fieldUses`, `referenceUse` and `bodyOf` that yields a step, with all
that the branch has checked; `SectionRun` and `SectionsRun` do the same for `sectionUse` and for the
sections of a kind one after the other.

The functions are tied together by a function for references and by the number of definitions that
are not open. The rules need neither, so what holds of every resolution is shown by induction on a
run: one case for each thing that a resolution can do.

* `typeUse_run`: a step of `typeUse` is a run, and so are those of the other functions.
* `referenceUse_of_missing`, `referenceUse_of_found`: where a reference leads that is neither
  resolved nor open.
* `Kind.resolve_run`: a resolved kind holds the outcome of a run over the sections of its kind.
-/

namespace KindSchema

namespace Resolution

/-! ### Rules -/

mutual

/-- The runs for a type at a field path, while the definitions in `opened` are open. -/
inductive TypeRun (c : Context) : (opened path docs : List String) → Place → TypeExpr → Names →
    Step Shape → Prop
  | scalar {opened path docs place names} (kind : Scalar) :
    TypeRun c opened path docs place (.scalar kind) names ⟨.scalar kind, [], names⟩
  | enum {opened path docs place names} (values : List String)
      (inline : c.policy.liftEnums = false) :
    TypeRun c opened path docs place (.enum values) names ⟨.enum values, [], names⟩
  | liftedEnum {opened path docs place names name} (values : List String)
      (lifts : c.policy.liftEnums = true)
      (fresh : name = freshName names.used (Naming.typeName path)) :
    TypeRun c opened path docs place (.enum values) names
      ⟨.named name, [⟨name, docs, .enum values, .lifted path⟩], names.reserve name⟩
  | array {opened path docs place items names step}
      (run : TypeRun c opened path docs .element items names step) :
    TypeRun c opened path docs place (.array items) names (step.map .array)
  | map {opened path docs place values names step}
      (run : TypeRun c opened path docs .element values names step) :
    TypeRun c opened path docs place (.map values) names (step.map .map)
  | knownStruct {opened path docs place s names name}
      (known : names.lifted.lookup s = some name) :
    TypeRun c opened path docs place (.struct s) names ⟨.named name, [], names⟩
  | struct {opened path docs place s names step}
      (unknown : names.lifted.lookup s = none)
      (inline : c.liftedBase? s path place = none)
      (run : FieldsRun c opened path s.fields names step) :
    TypeRun c opened path docs place (.struct s) names (step.map .struct)
  | liftedStruct {opened path docs place s names step base name}
      (unknown : names.lifted.lookup s = none)
      (lifts : c.liftedBase? s path place = some base)
      (fresh : name = freshName names.used base)
      (run : FieldsRun c opened path s.fields (names.lift s name) step) :
    TypeRun c opened path docs place (.struct s) names
      ⟨.named name, ⟨name, s.docs, .struct step.result, .lifted path⟩ :: step.declarations,
        step.names⟩
  | knownReference {opened path docs place name names} (known : name ∈ names.defined) :
    TypeRun c opened path docs place (.reference name) names ⟨.named name, [], names⟩
  | reference {opened path docs place name names step d}
      (unknown : name ∉ names.defined)
      (unopened : name ∉ opened)
      (found : c.kind.definition? name = some d)
      (run : BodyRun c (opened ++ [name]) d names step) :
    TypeRun c opened path docs place (.reference name) names
      ⟨.named name, ⟨name, docsOf d, step.result, .defined⟩ :: step.declarations,
        step.names.define name⟩

/-- The runs for the fields of the struct at `path`. -/
inductive FieldsRun (c : Context) : (opened path : List String) → List (Field TypeExpr) → Names →
    Step (List (Field Shape)) → Prop
  | nil {opened path names} : FieldsRun c opened path [] names ⟨[], [], names⟩
  | cons {opened path f fields names first rest}
      (head : TypeRun c opened (path ++ [f.name]) f.docs .member f.type names first)
      (tail : FieldsRun c opened path fields first.names rest) :
    FieldsRun c opened path (f :: fields) names
      ⟨f.withType first.result :: rest.result, first.declarations ++ rest.declarations,
        rest.names⟩

/-- The runs for the type of a definition. -/
inductive BodyRun (c : Context) : (opened : List String) → Definition → Names → Step Body → Prop
  | struct {opened d s names step} (type : d.type = .struct s)
      (run : FieldsRun c opened [d.name] s.fields names step) :
    BodyRun c opened d names (step.map .struct)
  | enum {opened d values names} (type : d.type = .enum values) :
    BodyRun c opened d names ⟨.enum values, [], names⟩
  | synonym {opened d names step} (noStruct : ∀ s, d.type ≠ .struct s)
      (noEnum : ∀ values, d.type ≠ .enum values)
      (run : TypeRun c opened [d.name] d.docs .member d.type names step) :
    BodyRun c opened d names (step.map .synonym)

end

/-- The runs for a section. -/
inductive SectionRun (c : Context) : Field TypeExpr → Names → Step (Field Shape) → Prop
  | struct {f s names step} (type : f.type = .struct s)
      (run : FieldsRun c [] [f.name] s.fields names step) :
    SectionRun c f names (step.map fun fields => f.withType (.struct fields))
  | other {f names step} (noStruct : ∀ s, f.type ≠ .struct s)
      (run : TypeRun c [] [f.name] f.docs .member f.type names step) :
    SectionRun c f names (step.map f.withType)

/-- The runs for some sections, one after the other. -/
inductive SectionsRun (c : Context) : List (Field TypeExpr) → Names →
    Step (List (Field Shape)) → Prop
  | nil {names} : SectionsRun c [] names ⟨[], [], names⟩
  | cons {f sections names first rest} (head : SectionRun c f names first)
      (tail : SectionsRun c sections first.names rest) :
    SectionsRun c (f :: sections) names
      ⟨first.result :: rest.result, first.declarations ++ rest.declarations, rest.names⟩

/-! ### Steps are runs -/

section Steps

variable {c : Context} {opened : List String} {refer : Refer}

/-- That the references `refer` resolves are runs. -/
def ReferRuns (c : Context) (opened : List String) (refer : Refer) : Prop :=
  ∀ {path name names step}, refer path name names = .ok step →
    ∀ {docs place}, TypeRun c opened path docs place (.reference name) names step

mutual

/-- A step of `typeUse` is a run, if the references it resolves are. -/
theorem typeUse_run (hrefer : ReferRuns c opened refer) :
    ∀ {type : TypeExpr} {path docs : List String} {place : Place} {names : Names}
      {step : Step Shape}, typeUse c refer path docs place type names = .ok step →
      TypeRun c opened path docs place type names step
  | .scalar kind, path, docs, place, names, step, h => by
    simp only [typeUse, Except.ok.injEq] at h
    exact h ▸ .scalar kind
  | .enum values, path, docs, place, names, step, h => by
    rw [typeUse] at h
    split at h
    · next hlift => cases h; exact .liftedEnum values hlift rfl
    · next hlift => cases h; exact .enum values (by simpa using hlift)
  | .array items, path, docs, place, names, step, h => by
    rw [typeUse] at h
    obtain ⟨inner, hinner, hstep⟩ := bind_eq_ok.mp h
    cases hstep
    exact .array (typeUse_run hrefer hinner)
  | .map values, path, docs, place, names, step, h => by
    rw [typeUse] at h
    obtain ⟨inner, hinner, hstep⟩ := bind_eq_ok.mp h
    cases hstep
    exact .map (typeUse_run hrefer hinner)
  | .struct ⟨label, structDocs, fields⟩, path, docs, place, names, step, h => by
    rw [typeUse] at h
    -- The three rules for structs, in the order of the function: known, left in place, lifted.
    split at h
    · next name hknown => cases h; exact .knownStruct hknown
    · next hunknown =>
      split at h
      · next hbase =>
        obtain ⟨inner, hinner, hstep⟩ := bind_eq_ok.mp h
        cases hstep
        exact .struct hunknown hbase (fieldUses_run hrefer hinner)
      · next base hbase =>
        obtain ⟨inner, hinner, hstep⟩ := bind_eq_ok.mp h
        cases hstep
        exact .liftedStruct (s := ⟨label, structDocs, fields⟩) hunknown hbase rfl
          (fieldUses_run hrefer hinner)
  | .reference name, path, docs, place, names, step, h => by
    rw [typeUse] at h
    exact hrefer h

/-- A step of `fieldUses` is a run, if the references it resolves are. -/
theorem fieldUses_run (hrefer : ReferRuns c opened refer) :
    ∀ {fields : List (Field TypeExpr)} {path : List String} {names : Names}
      {step : Step (List (Field Shape))}, fieldUses c refer path fields names = .ok step →
      FieldsRun c opened path fields names step
  | [], path, names, step, h => by
    simp only [fieldUses, Except.ok.injEq] at h
    exact h ▸ .nil
  | ⟨name, type, optional, docs⟩ :: fields, path, names, step, h => by
    rw [fieldUses] at h
    obtain ⟨first, hfirst, h⟩ := bind_eq_ok.mp h
    obtain ⟨rest, hrest, hstep⟩ := bind_eq_ok.mp h
    cases hstep
    exact .cons (f := ⟨name, type, optional, docs⟩) (typeUse_run hrefer hfirst)
      (fieldUses_run hrefer hrest)

end

/-- A step of `bodyOf` is a run, if the references it resolves are. -/
private theorem bodyOf_run (hrefer : ReferRuns c opened refer) {d : Definition} {names : Names}
    {step : Step Body} (h : bodyOf c refer d names = .ok step) : BodyRun c opened d names step := by
  rw [bodyOf] at h
  split at h
  · next s htype =>
    obtain ⟨inner, hinner, hstep⟩ := bind_eq_ok.mp h
    cases hstep
    exact .struct htype (fieldUses_run hrefer hinner)
  · next values htype => cases h; exact .enum htype
  · next hstruct henum =>
    obtain ⟨inner, hinner, hstep⟩ := bind_eq_ok.mp h
    cases hstep
    exact .synonym hstruct henum (typeUse_run hrefer hinner)

end Steps

section References

variable (c : Context) {opened : List String} (path : List String) {name : String} {names : Names}
  (unknown : name ∉ names.defined) (unopened : name ∉ opened)
include unknown unopened

/-- A reference to `name` fails if there is no such definition. -/
theorem referenceUse_of_missing (missing : c.kind.definition? name = none) :
    referenceUse c opened path name names =
      .error (.unresolvedReference (".".intercalate path) name) := by
  rw [referenceUse, if_neg unknown, dif_neg unopened]
  split
  · rfl
  · next found => cases missing.symm.trans found

/-- A reference to `name`, a definition that is neither resolved nor open, opens the definition. -/
theorem referenceUse_of_found {d : Definition} (found : c.kind.definition? name = some d) :
    referenceUse c opened path name names =
      (bodyOf c (referenceUse c (opened ++ [name])) d names >>= fun step =>
        .ok ⟨.named name, ⟨name, docsOf d, step.result, .defined⟩ :: step.declarations,
          step.names.define name⟩) := by
  rw [referenceUse, if_neg unknown, dif_neg unopened]
  split
  · next missing => cases missing.symm.trans found
  · next d' found' =>
    cases found.symm.trans found'
    rfl

end References

/-- A step of `referenceUse` is a run. -/
theorem referenceUse_run (c : Context) (opened : List String) :
    ReferRuns c opened (referenceUse c opened) := by
  intro path name names step h docs place
  rw [referenceUse] at h
  split at h
  · next hknown => cases h; exact .knownReference hknown
  · next hunknown =>
    split at h
    · cases h
    · next hunopened =>
      split at h
      · cases h
      · next d hfound =>
        obtain ⟨inner, hinner, hstep⟩ := bind_eq_ok.mp h
        cases hstep
        exact .reference hunknown hunopened hfound
          (bodyOf_run (referenceUse_run c (opened ++ [name])) hinner)
termination_by unopened c.kind opened
decreasing_by exact unopened_lt ‹_› ‹_›

/-- A step of `sectionUse` is a run. -/
private theorem sectionUse_run {c : Context} {name : String} {docs : List String} {type : TypeExpr}
    {names : Names} {step : Step (Field Shape)}
    (h : sectionUse c name docs type names = .ok step) :
    SectionRun c { name, type, docs } names step := by
  unfold sectionUse at h
  split at h
  · next s =>
    obtain ⟨inner, hinner, hstep⟩ := bind_eq_ok.mp h
    cases hstep
    exact .struct rfl (fieldUses_run (referenceUse_run c []) hinner)
  · next hstruct =>
    obtain ⟨inner, hinner, hstep⟩ := bind_eq_ok.mp h
    cases hstep
    exact .other hstruct (typeUse_run (referenceUse_run c []) hinner)

end Resolution

/-! ### The sections of a kind -/

namespace Kind

/-- The three sections of `k`, in the order in which they are resolved. -/
def envelope (k : Kind) : List (Field TypeExpr) :=
  [{ name := "metadata", type := k.metadata.type, docs := k.metadata.docs },
    { name := "spec", type := .struct k.spec, docs := k.spec.docs },
    { name := "status", type := .struct k.status, docs := k.status.docs }]

open Resolution in
/-- The sections and the declarations of `r` are the outcome of a run over the sections of `k`,
which satisfies its rules. -/
theorem resolve_run {policy : Policy} {k : Kind} {r : ResolvedKind}
    (h : k.resolve policy = .ok r) :
    k.validate = .ok () ∧ r.name = k.name ∧
      ∃ step, SectionsRun (contextOf policy k) k.envelope { used := reservedNames k } step ∧
        r.envelope = step.result ∧ r.declarations = step.declarations := by
  rw [Kind.resolve] at h
  obtain ⟨_, hvalid, h⟩ := bind_eq_ok.mp h
  obtain ⟨metadata, hmetadata, h⟩ := bind_eq_ok.mp h
  obtain ⟨spec, hspec, h⟩ := bind_eq_ok.mp h
  obtain ⟨status, hstatus, h⟩ := bind_eq_ok.mp h
  cases h
  refine ⟨hvalid, rfl, _, .cons (sectionUse_run hmetadata) (.cons (sectionUse_run hspec)
    (.cons (sectionUse_run hstatus) .nil)), rfl, ?_⟩
  simp only [List.append_nil, List.append_assoc]

end Kind

/-! ### A small kind -/

namespace Sample

/-- A struct that is used twice. -/
def address : StructType where
  fields := [{ name := "city", type := .string }]

/-- A kind with a shared struct, a contained one, an enumeration and a definition. -/
def shop : Kind where
  name := "Shop"
  metadata := { type := .struct { fields := [{ name := "uid", type := .string }] } }
  spec := { fields := [
    { name := "office", type := .struct address },
    { name := "state", type := .enum ["open", "closed"] },
    { name := "owner", type := .reference "Person" }] }
  status := { fields := [
    { name := "visits", type := .map (.struct { fields := [{ name := "day", type := .dateTime }] }),
      optional := true }] }
  definitions := [
    { name := "Person", docs := ["Someone."]
      type := .struct { fields := [{ name := "home", type := .struct address }] } }]

/-- The kind, resolved for a language in which everything but sections has a name. -/
def shopResolved : ResolvedKind where
  name := "Shop"
  machineName := "shop"
  description := []
  metadata := { name := "metadata", type := .struct [{ name := "uid", type := .scalar .string }] }
  spec := { name := "spec", type := .struct [
    { name := "office", type := .named "SpecOffice" },
    { name := "state", type := .named "SpecState" },
    { name := "owner", type := .named "Person" }] }
  status := { name := "status", type := .struct [
    { name := "visits", type := .map (.named "StatusVisits"), optional := true }] }
  declarations := [
    ⟨"SpecOffice", [], .struct [{ name := "city", type := .scalar .string }],
      .lifted ["spec", "office"]⟩,
    ⟨"SpecState", [], .enum ["open", "closed"], .lifted ["spec", "state"]⟩,
    ⟨"Person", ["Someone."], .struct [{ name := "home", type := .named "SpecOffice" }], .defined⟩,
    ⟨"StatusVisits", [], .struct [{ name := "day", type := .scalar .dateTime }],
      .lifted ["status", "visits"]⟩]

theorem resolve_shop : shop.resolve .nominal = .ok shopResolved := by
  with_unfolding_all rfl

end Sample

end KindSchema
