import KindSchema.Proofs.Resolution.Meetings
import KindSchema.Run.Pipeline

/-!
# Errors do not depend on the policy

Two resolutions of a kind under different policies go through its types in step. They differ in the
structs they lift, but a struct that only one of them lifts is never met again, so both follow the
same fields and come upon the same references.

* `Alike`: two computations fail for the same reason, or give related results.
* `typeUse_alike`, `fieldUses_alike`, `referenceUse_alike`: the steps of the two resolutions are
  alike.
* `resolve_error_iff`: a kind fails to resolve under one policy if and only if it fails under every
  other, for the same reason; that is the reason for which every generator fails.
-/

namespace KindSchema

/-! ### Computations that are alike -/

/-- That two computations fail for the same reason, or give results related by `R`. -/
def Alike {ε α β : Type} (R : α → β → Prop) : Except ε α → Except ε β → Prop
  | .error e, .error e' => e = e'
  | .ok a, .ok b => R a b
  | .error _, .ok _ => False
  | .ok _, .error _ => False

namespace Alike

variable {ε α β γ δ : Type} {R : α → β → Prop} {S : γ → δ → Prop} {x : Except ε α}
  {y : Except ε β}

/-- Computations that begin alike and go on alike are alike. -/
private theorem bind {f : α → Except ε γ} {g : β → Except ε δ} (h : Alike R x y)
    (hnext : ∀ a b, R a b → Alike S (f a) (g b)) : Alike S (x >>= f) (y >>= g) := by
  cases x <;> cases y
  · exact h
  · exact h.elim
  · exact h.elim
  · exact hnext _ _ h

/-- Computations that are alike fail for the same reasons. -/
private theorem error_iff (h : Alike R x y) {e : ε} : x = .error e ↔ y = .error e := by
  cases x <;> cases y
  · obtain rfl : _ = _ := h
    rw [Except.error.injEq, Except.error.injEq]
  · exact h.elim
  · exact h.elim
  · exact iff_of_false nofun nofun

end Alike

namespace Resolution

variable {k : Kind} {policy policy' : Policy} {opened : List String} {names names' : Names}
  {pending rest : List StructType}

/-! ### Names that agree -/

/-- That `names` and `names'`, given under two policies, come of the same meetings. -/
structure Names.Agree (k : Kind) (opened : List String) (pending : List StructType)
    (names names' : Names) : Prop where
  defined : names.defined = names'.defined
  meets : ∃ met, names.Meets k opened met pending ∧ names'.Meets k opened met pending

namespace Names.Agree

private theorem skip (h : Names.Agree k opened (pending ++ rest) names names') :
    Names.Agree k opened rest names names' where
  defined := h.defined
  meets := by
    obtain ⟨met, hmeets, hmeets'⟩ := h.meets
    exact ⟨met, hmeets.skip, hmeets'.skip⟩

/-- What is to be met has been lifted under both policies or under none. -/
private theorem isSome_lookup_iff {s : StructType}
    (h : Names.Agree k opened (TypeExpr.outerStructs (.struct s) ++ rest) names names') :
    (names.lifted.lookup s).isSome ↔ (names'.lifted.lookup s).isSome := by
  obtain ⟨met, hmeets, hmeets'⟩ := h.meets
  exact hmeets.isSome_lookup_iff.trans hmeets'.isSome_lookup_iff.symm

private theorem opening {name : String} {d : Definition}
    (h : Names.Agree k opened rest names names') (found : k.definition? name = some d)
    (unknown : name ∉ names.defined) (unopened : name ∉ opened) :
    Names.Agree k (opened ++ [name]) (d.type.rootOuterStructs ++ rest) names names' where
  defined := h.defined
  meets := by
    obtain ⟨met, hmeets, hmeets'⟩ := h.meets
    exact ⟨met, hmeets.opening found unknown unopened,
      hmeets'.opening found (h.defined ▸ unknown) unopened⟩

private theorem define {name : String} (h : Names.Agree k (opened ++ [name]) rest names names') :
    Names.Agree k opened rest (names.define name) (names'.define name) where
  defined := congrArg (name :: ·) h.defined
  meets := by
    obtain ⟨met, hmeets, hmeets'⟩ := h.meets
    exact ⟨met, hmeets.define, hmeets'.define⟩

end Names.Agree

/-- That `step` and `step'` agree in the names they give. -/
def Step.Agree {α β : Type} (k : Kind) (opened : List String) (rest : List StructType)
    (step : Step α) (step' : Step β) : Prop :=
  Names.Agree k opened rest step.names step'.names

/-- That `refer` and `refer'` resolve references alike. -/
def ReferAlike (k : Kind) (opened : List String) (refer refer' : Refer) : Prop :=
  ∀ path name rest names names', Names.Agree k opened rest names names' →
    Alike (Step.Agree k opened rest) (refer path name names) (refer' path name names')

/-! ### Steps that are alike -/

/-- An enumeration is always resolved, with or without a name. -/
private theorem exists_typeUse_enum (refer : Refer) (path docs : List String) (place : Place)
    (values : List String) (names : Names) :
    ∃ step, typeUse (contextOf policy k) refer path docs place (.enum values) names = .ok step ∧
      step.names.defined = names.defined ∧
      ∀ met, names.Meets k opened met rest → step.names.Meets k opened met rest := by
  rw [typeUse]
  split
  · exact ⟨_, rfl, rfl, fun met hmeets => hmeets.reserve _⟩
  · exact ⟨_, rfl, rfl, fun met hmeets => hmeets⟩

/-- A struct that has been lifted is resolved to its name. -/
private theorem exists_typeUse_known (refer : Refer) (path docs : List String) (place : Place)
    (s : StructType) (known : (names.lifted.lookup s).isSome) :
    ∃ shape, typeUse (contextOf policy k) refer path docs place (.struct s) names =
      .ok ⟨shape, [], names⟩ := by
  obtain ⟨name, hname⟩ := Option.isSome_iff_exists.mp known
  obtain ⟨label, structDocs, fields⟩ := s
  rw [typeUse, hname]
  exact ⟨_, rfl⟩

/-- A struct that has not been lifted is resolved by resolving its fields, after names that fit its
being met. -/
private theorem exists_typeUse_struct (refer : Refer) (path docs : List String) (place : Place)
    (s : StructType) (unknown : names.lifted.lookup s = none) :
    ∃ (given : Names) (close : Step (List (Field Shape)) → Step Shape),
      typeUse (contextOf policy k) refer path docs place (.struct s) names =
        (fieldUses (contextOf policy k) refer path s.fields given >>= fun step =>
          .ok (close step)) ∧
      (∀ step, (close step).names = step.names) ∧ given.defined = names.defined ∧
      ∀ met, names.Meets k opened met (TypeExpr.outerStructs (.struct s) ++ rest) → s ∉ met →
        given.Meets k opened (s :: met) (TypeExpr.fieldOuterStructs s.fields ++ rest) := by
  obtain ⟨label, structDocs, fields⟩ := s
  rw [typeUse, unknown]
  cases hbase : (contextOf policy k).liftedBase? ⟨label, structDocs, fields⟩ path place with
  | none =>
    exact ⟨names, (·.map .struct), rfl, fun _ => rfl, rfl,
      fun met hmeets hnew => hmeets.meet hnew (not_alwaysLifts hbase)⟩
  | some base =>
    exact ⟨_, fun step => ⟨_, _ :: step.declarations, step.names⟩, rfl, fun _ => rfl, rfl,
      fun met hmeets hnew => hmeets.lift hnew _⟩

section Alike

variable {refer refer' : Refer}

mutual

/-- Under two policies `type` is resolved alike, if references are. -/
theorem typeUse_alike (hrefer : ReferAlike k opened refer refer') :
    ∀ (type : TypeExpr) (path docs : List String) (place : Place) (rest : List StructType)
      (names names' : Names), Names.Agree k opened (type.outerStructs ++ rest) names names' →
      Alike (Step.Agree k opened rest)
        (typeUse (contextOf policy k) refer path docs place type names)
        (typeUse (contextOf policy' k) refer' path docs place type names')
  | .scalar kind, path, docs, place, rest, names, names', h => by
    rw [typeUse, typeUse]
    exact h.skip
  -- One policy may lift what the other leaves in place; either way the names keep what is met.
  | .enum values, path, docs, place, rest, names, names', h => by
    obtain ⟨step, hstep, hdefined, hkeeps⟩ :=
      exists_typeUse_enum refer path docs place values names
    obtain ⟨step', hstep', hdefined', hkeeps'⟩ :=
      exists_typeUse_enum refer' path docs place values names'
    obtain ⟨met, hmeets, hmeets'⟩ := h.skip.meets
    rw [hstep, hstep']
    exact ⟨hdefined.trans (h.defined.trans hdefined'.symm), met, hkeeps met hmeets,
      hkeeps' met hmeets'⟩
  | .array items, path, docs, place, rest, names, names', h => by
    rw [typeUse, typeUse]
    exact (typeUse_alike hrefer items path docs .element rest names names' h).bind
      fun _ _ hsteps => hsteps
  | .map values, path, docs, place, rest, names, names', h => by
    rw [typeUse, typeUse]
    exact (typeUse_alike hrefer values path docs .element rest names names' h).bind
      fun _ _ hsteps => hsteps
  | .struct ⟨label, structDocs, fields⟩, path, docs, place, rest, names, names', h => by
    by_cases known : (names.lifted.lookup ⟨label, structDocs, fields⟩).isSome
    · -- A struct that is met again has been lifted under both policies.
      obtain ⟨shape, hstep⟩ := exists_typeUse_known refer path docs place _ known
      obtain ⟨shape', hstep'⟩ :=
        exists_typeUse_known refer' path docs place _ (h.isSome_lookup_iff.mp known)
      rw [hstep, hstep']
      exact h.skip
    · have known' : ¬ (names'.lifted.lookup ⟨label, structDocs, fields⟩).isSome :=
        fun hsome => known (h.isSome_lookup_iff.mpr hsome)
      rw [Option.not_isSome_iff_eq_none] at known known'
      obtain ⟨given, close, hstep, hnames, hdefined, hmeet⟩ :=
        exists_typeUse_struct refer path docs place _ known
      obtain ⟨given', close', hstep', hnames', hdefined', hmeet'⟩ :=
        exists_typeUse_struct refer' path docs place _ known'
      obtain ⟨met, hmeets, hmeets'⟩ := h.meets
      have hnew := hmeets.not_mem_of_unknown known
      have hgiven : Names.Agree k opened (TypeExpr.fieldOuterStructs fields ++ rest) given given' :=
        ⟨hdefined.trans (h.defined.trans hdefined'.symm), _, hmeet met hmeets hnew,
          hmeet' met hmeets' hnew⟩
      rw [hstep, hstep']
      refine (fieldUses_alike hrefer fields path rest given given' hgiven).bind
        fun step step' hsteps => ?_
      show Names.Agree k opened rest (close step).names (close' step').names
      rw [hnames, hnames']
      exact hsteps
  | .reference name, path, docs, place, rest, names, names', h => by
    rw [typeUse, typeUse]
    exact hrefer path name rest names names' h

theorem fieldUses_alike (hrefer : ReferAlike k opened refer refer') :
    ∀ (fields : List (Field TypeExpr)) (path : List String) (rest : List StructType)
      (names names' : Names),
      Names.Agree k opened (TypeExpr.fieldOuterStructs fields ++ rest) names names' →
      Alike (Step.Agree k opened rest)
        (fieldUses (contextOf policy k) refer path fields names)
        (fieldUses (contextOf policy' k) refer' path fields names')
  | [], path, rest, names, names', h => by
    rw [fieldUses, fieldUses]
    exact h
  | ⟨name, type, optional, docs⟩ :: fields, path, rest, names, names', h => by
    -- The first field leaves what the others need: the rest that is pending.
    rw [TypeExpr.fieldOuterStructs, List.append_assoc] at h
    rw [fieldUses, fieldUses]
    refine (typeUse_alike hrefer type _ docs .member _ names names' h).bind fun _ _ hfirst => ?_
    exact (fieldUses_alike hrefer fields path rest _ _ hfirst).bind fun _ _ hrest => hrest

end

/-- Under two policies the type of a definition is resolved alike, if references are. -/
private theorem bodyOf_alike (hrefer : ReferAlike k opened refer refer') (d : Definition)
    (h : Names.Agree k opened (d.type.rootOuterStructs ++ rest) names names') :
    Alike (Step.Agree k opened rest) (bodyOf (contextOf policy k) refer d names)
      (bodyOf (contextOf policy' k) refer' d names') := by
  obtain ⟨name, docs, type⟩ := d
  cases type with
  | struct s =>
    exact (fieldUses_alike hrefer s.fields [name] rest names names' h).bind fun _ _ hsteps => hsteps
  | enum values => exact h
  | _ =>
    exact (typeUse_alike hrefer _ [name] docs .member rest names names' h).bind
      fun _ _ hsteps => hsteps

end Alike

/-- Under `policy` and `policy'` references are resolved alike. -/
theorem referenceUse_alike (k : Kind) (policy policy' : Policy) (opened : List String) :
    ReferAlike k opened (referenceUse (contextOf policy k) opened)
      (referenceUse (contextOf policy' k) opened) := by
  intro path name rest names names' h
  by_cases unknown : name ∈ names.defined
  · have unknown' : name ∈ names'.defined := h.defined ▸ unknown
    rw [referenceUse, referenceUse, if_pos unknown, if_pos unknown']
    exact h
  · have unknown' : name ∉ names'.defined := h.defined ▸ unknown
    by_cases unopened : name ∈ opened
    · -- The open definitions are the same, so the chains of the cycles are.
      rw [referenceUse, referenceUse, if_neg unknown, if_neg unknown', dif_pos unopened,
        dif_pos unopened]
      exact rfl
    · cases found : k.definition? name with
      | none =>
        rw [referenceUse_of_missing _ path unknown unopened found,
          referenceUse_of_missing _ path unknown' unopened found]
        exact rfl
      | some d =>
        rw [referenceUse_of_found _ path unknown unopened found,
          referenceUse_of_found _ path unknown' unopened found]
        have hbody := referenceUse_alike k policy policy' (opened ++ [name])
        exact (bodyOf_alike hbody d (h.opening found unknown unopened)).bind
          fun _ _ hsteps => Names.Agree.define hsteps
termination_by unopened k opened
decreasing_by exact unopened_lt found unopened

/-- Under two policies the sections of a kind are resolved alike. -/
private theorem sectionUse_alike (name : String) (docs : List String) (type : TypeExpr)
    (h : Names.Agree k [] (type.rootOuterStructs ++ rest) names names') :
    Alike (Step.Agree k [] rest) (sectionUse (contextOf policy k) name docs type names)
      (sectionUse (contextOf policy' k) name docs type names') := by
  have hrefer := referenceUse_alike k policy policy' []
  cases type with
  | struct s =>
    exact (fieldUses_alike hrefer s.fields [name] rest names names' h).bind fun _ _ hsteps => hsteps
  | _ =>
    exact (typeUse_alike hrefer _ [name] docs .member rest names names' h).bind
      fun _ _ hsteps => hsteps

end Resolution

open Resolution

/-- Resolutions of a kind under two policies are alike. -/
private theorem Kind.resolve_alike (k : Kind) (policy policy' : Policy) :
    Alike (fun _ _ => True) (k.resolve policy) (k.resolve policy') := by
  have hstart : Names.Agree k [] k.sectionOuterStructs
      { used := reservedNames k } { used := reservedNames k } :=
    ⟨rfl, [], .start k, .start k⟩
  rw [Kind.resolve, Kind.resolve]
  cases k.validate with
  | error e => exact rfl
  | ok _ =>
    rw [Kind.sectionOuterStructs, ← List.append_nil (TypeExpr.fieldOuterStructs k.status.fields)]
      at hstart
    refine (sectionUse_alike "metadata" k.metadata.docs k.metadata.type hstart).bind
      fun metadata metadata' hmetadata => ?_
    refine (sectionUse_alike "spec" k.spec.docs (.struct k.spec) hmetadata).bind
      fun spec spec' hspec => ?_
    exact (sectionUse_alike "status" k.status.docs (.struct k.status) hspec).bind
      fun _ _ _ => trivial

/-- A cell fails with a schema error if and only if its kind fails to resolve with it. -/
private theorem Pipeline.generate_eq_schema_iff {p : Pipeline} {k : Kind} {g : Generator}
    {v : Variant} {e : SchemaError} :
    p.generate k g v = .error (.schema e) ↔ k.resolve g.policy = .error e := by
  unfold Pipeline.generate
  cases k.resolve g.policy with
  | error cause =>
    show Except.error (CellError.schema cause) = _ ↔ _
    rw [Except.error.injEq, Except.error.injEq, CellError.schema.injEq]
  | ok r =>
    refine iff_of_false (fun h => ?_) nofun
    -- What may still go wrong is that the target language cannot express the kind.
    rw [mapError_ok] at h
    change (g.render v.effective r).mapError CellError.unsupported >>= _ = _ at h
    cases hrendered : g.render v.effective r with
    | error cause => rw [hrendered] at h; cases h
    | ok files => rw [hrendered] at h; cases h

/-- Whether `k` fails to resolve, and why, does not depend on the policy. So a kind that fails under
one policy fails for the same reason in the cells of every generator, and is left out of every file
of all kinds for this reason unless it shares its machine name. -/
theorem resolve_error_iff (k : Kind) (policy policy' : Policy) (e : SchemaError) :
    (k.resolve policy = .error e ↔ k.resolve policy' = .error e) ∧
      (∀ (p : Pipeline) (g : Generator) (v : Variant),
        p.generate k g v = .error (.schema e) ↔ k.resolve policy = .error e) ∧
      ∀ (kinds : List Kind) (g : Generator), machineNameClash? kinds k.name = none →
        (Pipeline.memberOf kinds g k = .error e ↔ k.resolve policy = .error e) := by
  have hpolicy (other : Policy) : k.resolve other = .error e ↔ k.resolve policy = .error e :=
    (Kind.resolve_alike k other policy).error_iff
  refine ⟨(hpolicy policy').symm, fun p g v => ?_, fun kinds g hclash => ?_⟩
  · exact Pipeline.generate_eq_schema_iff.trans (hpolicy g.policy)
  · rw [Pipeline.memberOf, hclash]
    exact hpolicy g.policy

namespace Sample

/-- A kind with a contained struct, which not every policy lifts, on the way to a cycle. -/
def rope : Kind where
  name := "Rope"
  spec := { fields := [{
    name := "ends"
    type := .array (.struct { fields := [{ name := "first", type := .reference "Strand" }] }) }] }
  definitions := [{
    name := "Strand"
    type := .struct { fields := [{ name := "next", type := .reference "Strand" }] } }]

theorem resolve_error_rope :
    rope.resolve .inline = .error (.cycle ["Strand", "Strand"]) ∧
      rope.resolve .nominal = .error (.cycle ["Strand", "Strand"]) ∧
      ({ generators := [.goTypes] } : Pipeline).generate rope .goTypes { id := .noParams } =
        .error (.schema (.cycle ["Strand", "Strand"])) ∧
      machineNameClash? [rope] rope.name = none ∧
      Pipeline.memberOf [rope] .tsIndex rope = .error (.cycle ["Strand", "Strand"]) := by
  have hinline : rope.resolve .inline = .error (.cycle ["Strand", "Strand"]) := by
    with_unfolding_all rfl
  have hclash : machineNameClash? [rope] rope.name = none := by decide +kernel
  obtain ⟨hnominal, hgenerate, hmember⟩ :=
    resolve_error_iff rope .inline .nominal (.cycle ["Strand", "Strand"])
  exact ⟨hinline, hnominal.mp hinline, (hgenerate _ _ _).mpr hinline, hclash,
    (hmember [rope] .tsIndex hclash).mpr hinline⟩

end Sample

end KindSchema
