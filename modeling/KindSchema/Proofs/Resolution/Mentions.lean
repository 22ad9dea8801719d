import KindSchema.Proofs.Resolution.DeclaredNames
import KindSchema.Proofs.Resolution.Meetings

/-!
# How often lifted structs are mentioned

A struct is *on top* in a type if it is inside no other struct of the type. Where nothing but
shared, annotated and documented structs is lifted, a resolution turns each struct that is on top in
something that it follows into one mention of a name, or follows it in place. It follows the
sections, the definitions that they lead to, and the fields of each struct that it meets.
`Names.Tallies` relates what it has followed to the names that it has mentioned and to the structs
that are still to come.

* `Names.Tallies.again`, `Names.Tallies.follow`, `Names.Tallies.lift`, `Names.Tallies.mention`,
  `Names.Tallies.opening`, `Names.Tallies.define`: the ways in which names change keep the relation.
* `TypeRun.counts`, `FieldsRun.counts`, `BodyRun.counts`: so does every run.
* `Kind.resolve_followed`: so a lifted struct is mentioned exactly as often as it is on top in what
  has been followed.
-/

namespace KindSchema

/-! ### Structs on top -/

namespace TypeExpr

/-- The structs of a type that are inside no other struct of it. -/
def topStructs : TypeExpr → List StructType
  | .scalar _ => []
  | .enum _ => []
  | .array items => topStructs items
  | .map values => topStructs values
  | .struct s => [s]
  | .reference _ => []

/-- The structs that are on top in the types of `fields`. -/
def fieldTopStructs (fields : List (Field TypeExpr)) : List StructType :=
  fields.flatMap (·.type.topStructs)

/-- The structs that are on top in a section or a definition, which is none of them itself. -/
def rootTopStructs : TypeExpr → List StructType
  | .struct s => fieldTopStructs s.fields
  | type => topStructs type

/-- Unless a section or a definition is a struct, the structs on top are those of its type. -/
private theorem rootTopStructs_of_ne {type : TypeExpr} (noStruct : ∀ s, type ≠ .struct s) :
    type.rootTopStructs = type.topStructs := by
  cases type with
  | struct s => exact absurd rfl (noStruct s)
  | _ => rfl

end TypeExpr

open TypeExpr

/-- The structs that are on top in the sections of `k`. -/
def Kind.sectionTopStructs (k : Kind) : List StructType :=
  k.envelope.flatMap (·.type.rootTopStructs)

/-- The structs that are on top in the definition of `name`. -/
def Kind.definitionTopStructs (k : Kind) (name : String) : List StructType :=
  ((k.definition? name).map (·.type.rootTopStructs)).getD []

/-- The structs that are on top in the sections of `k`, in the fields of the structs of `met` and in
the definitions of `entered`, one for each place. -/
def Kind.followed (k : Kind) (met : List StructType) (entered : List String) : List StructType :=
  k.sectionTopStructs ++
    (met.flatMap (fieldTopStructs ·.fields) ++ entered.flatMap k.definitionTopStructs)

/-- How often `r` mentions `name`, in its sections and in its declarations. -/
def ResolvedKind.mentionCount (r : ResolvedKind) (name : String) : Nat :=
  (Shape.fieldNames r.envelope ++ r.declarations.flatMap (·.body.names)).count name

/-- What is found in an association list is in it. -/
private theorem mem_of_lookup_eq_some {α β : Type} [BEq α] [LawfulBEq α] {l : List (α × β)} {a : α}
    {b : β} (h : l.lookup a = some b) : (a, b) ∈ l := by
  obtain ⟨before, after, rfl, -⟩ := List.lookup_eq_some_iff.mp h
  exact List.mem_append_right before List.mem_cons_self

namespace Resolution

/-! ### The relation -/

variable {k : Kind} {names final : Names} {opened : List String} {s t : StructType} {n : String}
  {met pending rest : List StructType} {count : String → Nat}

/-- That at the end of a resolution of `k` the name `n` is that of `t`, a struct which has to be
lifted, and of nothing else. -/
structure Names.Traces (k : Kind) (t : StructType) (n : String) (final : Names) : Prop where
  lifts : k.AlwaysLifts t
  struct : ∀ s name, (s, name) ∈ final.lifted → (name = n ↔ s = t)
  definition : ∀ name ∈ final.defined, name ≠ n

/-- What holds of the names given when the structs in `met` have been met, the definitions in
`opened` are open and the structs in `pending` are to come, and each name has been mentioned as
often as `count` says: all that is on top in what has been followed has been met or is to come, and
what is not to come has been mentioned if it has a name at the end. -/
structure Names.Tallies (k : Kind) (names final : Names) (opened : List String)
    (met pending : List StructType) (count : String → Nat) : Prop where
  met_of_lifted : ∀ s, (names.lifted.lookup s).isSome → s ∈ met
  lifted_of_met : ∀ s ∈ met, k.AlwaysLifts s → (names.lifted.lookup s).isSome
  alwaysLifts : ∀ s name, (s, name) ∈ names.lifted → k.AlwaysLifts s
  closed : k.followed met (names.defined ++ opened) ⊆ met ++ pending
  counted : ∀ t n, final.Traces k t n →
    (k.followed met (names.defined ++ opened)).count t = count n + pending.count t

/-- The counts of `count` after `name` has been mentioned once more. -/
def mentionedOnce (count : String → Nat) (name : String) : String → Nat :=
  fun n => count n + [name].count n

/-- What is on top in the fields of a struct is followed when the struct is met. -/
private theorem followed_cons_perm (k : Kind) (s : StructType) (met : List StructType)
    (entered : List String) :
    (k.followed (s :: met) entered).Perm (fieldTopStructs s.fields ++ k.followed met entered) := by
  unfold Kind.followed
  rw [List.flatMap_cons, List.append_assoc]
  exact List.perm_append_comm_assoc _ _ _

/-- What is on top in a definition is followed when the definition is entered. -/
private theorem followed_enter_perm (k : Kind) (met : List StructType) (name : String)
    {entered entered' : List String} (h : entered'.Perm (name :: entered)) :
    (k.followed met entered').Perm (k.definitionTopStructs name ++ k.followed met entered) := by
  unfold Kind.followed
  have hentered := (h.flatMap_right k.definitionTopStructs).append_left
    (met.flatMap (fieldTopStructs ·.fields))
  rw [List.flatMap_cons] at hentered
  refine ((hentered.trans (List.perm_append_comm_assoc _ _ _)).append_left _).trans ?_
  exact List.perm_append_comm_assoc _ _ _

namespace Names.Tallies

/-- At the start nothing has been mentioned, and the sections are to come. -/
private theorem start (k : Kind) (final : Names) :
    Names.Tallies k { used := reservedNames k } final [] [] k.sectionTopStructs fun _ => 0 where
  met_of_lifted := by simp
  lifted_of_met := by simp
  alwaysLifts := by simp
  closed := by simp [Kind.followed]
  counted := by simp [Kind.followed]

/-- The struct `s`, which has been lifted, is mentioned again. -/
theorem again (h : names.Tallies k final opened met (s :: rest) count) {name : String}
    (known : (names.lifted.lookup s).isSome) (hname : (s, name) ∈ final.lifted) :
    names.Tallies k final opened met rest (mentionedOnce count name) where
  met_of_lifted := h.met_of_lifted
  lifted_of_met := h.lifted_of_met
  alwaysLifts := h.alwaysLifts
  closed := by
    intro u hu
    rcases List.mem_append.mp (h.closed hu) with hu | hu
    · exact List.mem_append_left _ hu
    · rcases List.mem_cons.mp hu with rfl | hu
      · exact List.mem_append_left _ (h.met_of_lifted u known)
      · exact List.mem_append_right _ hu
  counted := by
    intro t n ht
    have hcounted := h.counted t n ht
    simp only [mentionedOnce, List.count_cons, List.count_nil, beq_iff_eq, ht.struct s name hname]
      at hcounted ⊢
    omega

/-- When a struct is met, what is on top in its fields is to come in its place. -/
private theorem closed_meet (h : names.Tallies k final opened met (s :: rest) count) :
    k.followed (s :: met) (names.defined ++ opened) ⊆
      (s :: met) ++ (fieldTopStructs s.fields ++ rest) := by
  intro u hu
  rcases List.mem_append.mp ((followed_cons_perm _ _ _ _).mem_iff.mp hu) with hu | hu
  · exact List.mem_append_right _ (List.mem_append_left _ hu)
  · rcases List.mem_append.mp (h.closed hu) with hu | hu
    · exact List.mem_append_left _ (List.mem_cons_of_mem s hu)
    · rcases List.mem_cons.mp hu with rfl | hu
      · exact List.mem_append_left _ List.mem_cons_self
      · exact List.mem_append_right _ (List.mem_append_right _ hu)

private theorem counted_meet (h : names.Tallies k final opened met (s :: rest) count)
    (ht : final.Traces k t n) :
    (k.followed (s :: met) (names.defined ++ opened)).count t =
      count n + [s].count t + (fieldTopStructs s.fields ++ rest).count t := by
  have hcounted := h.counted t n ht
  have hcons := (followed_cons_perm k s met (names.defined ++ opened)).count_eq t
  rw [List.count_append] at hcons ⊢
  simp only [List.count_cons, List.count_nil] at hcounted ⊢
  omega

/-- The struct `s`, which need not be lifted, is followed where it stands. -/
theorem follow (h : names.Tallies k final opened met (s :: rest) count)
    (hinline : ¬ k.AlwaysLifts s) :
    names.Tallies k final opened (s :: met) (fieldTopStructs s.fields ++ rest) count where
  met_of_lifted := fun u hu => List.mem_cons_of_mem s (h.met_of_lifted u hu)
  lifted_of_met := by
    intro u hu hlifts
    rcases List.mem_cons.mp hu with rfl | hu
    · exact absurd hlifts hinline
    · exact h.lifted_of_met u hu hlifts
  alwaysLifts := h.alwaysLifts
  closed := h.closed_meet
  counted := by
    intro t n ht
    have hne : s ≠ t := by
      rintro rfl
      exact hinline ht.lifts
    have hcounted := h.counted_meet ht
    rwa [List.count_singleton, if_neg (mt beq_iff_eq.mp hne)] at hcounted

/-- The struct `s`, which has to be lifted, is mentioned under its name, and its fields are
followed. -/
theorem lift (h : names.Tallies k final opened met (s :: rest) count) (hs : k.AlwaysLifts s)
    {name : String} (hname : (s, name) ∈ final.lifted) :
    (names.lift s name).Tallies k final opened (s :: met) (fieldTopStructs s.fields ++ rest)
      (mentionedOnce count name) where
  met_of_lifted := by
    intro u hu
    rw [Names.lift, List.lookup_cons] at hu
    split at hu
    · next heq => exact beq_iff_eq.mp heq ▸ List.mem_cons_self
    · exact List.mem_cons_of_mem s (h.met_of_lifted u hu)
  lifted_of_met := by
    intro u hu hlifts
    rw [Names.lift, List.lookup_cons]
    split
    · rfl
    · next hne =>
      have hus : u ≠ s := beq_eq_false_iff_ne.mp hne
      exact h.lifted_of_met u ((List.mem_cons.mp hu).resolve_left hus) hlifts
  alwaysLifts := by
    intro u other hu
    rcases List.mem_cons.mp hu with heq | hu
    · obtain ⟨rfl, -⟩ := Prod.mk.inj heq
      exact hs
    · exact h.alwaysLifts u other hu
  closed := h.closed_meet
  counted := by
    intro t n ht
    have hcounted := h.counted_meet ht
    -- Both counts go up under the same condition, since the name is that of this struct alone.
    simp only [mentionedOnce, List.count_singleton, beq_iff_eq, ht.struct s name hname]
      at hcounted ⊢
    exact hcounted

/-- The definition `name` is mentioned. -/
theorem mention (h : names.Tallies k final opened met rest count) {name : String}
    (hname : name ∈ final.defined) :
    names.Tallies k final opened met rest (mentionedOnce count name) :=
  { h with
    counted := by
      intro t n ht
      have hne := ht.definition name hname
      rw [mentionedOnce, List.count_singleton, if_neg (mt beq_iff_eq.mp hne), Nat.add_zero]
      exact h.counted t n ht }

/-- The definition `d` is opened and followed. -/
theorem opening (h : names.Tallies k final opened met rest count) {name : String} {d : Definition}
    (found : k.definition? name = some d) :
    names.Tallies k final (opened ++ [name]) met (d.type.rootTopStructs ++ rest) count := by
  have hentered : (names.defined ++ (opened ++ [name])).Perm
      (name :: (names.defined ++ opened)) := by
    rw [← List.append_assoc]
    exact List.perm_append_singleton name _
  have hperm := followed_enter_perm k met name hentered
  have htops : k.definitionTopStructs name = d.type.rootTopStructs := by
    rw [Kind.definitionTopStructs, found, Option.map_some, Option.getD_some]
  rw [htops] at hperm
  refine { h with closed := fun u hu => ?_, counted := fun t n ht => ?_ }
  · rcases List.mem_append.mp (hperm.mem_iff.mp hu) with hu | hu
    · exact List.mem_append_right _ (List.mem_append_left _ hu)
    · rcases List.mem_append.mp (h.closed hu) with hu | hu
      · exact List.mem_append_left _ hu
      · exact List.mem_append_right _ (List.mem_append_right _ hu)
  · have hcounted := h.counted t n ht
    rw [hperm.count_eq t, List.count_append, List.count_append]
    omega

/-- The definition `name`, opened last, has been resolved. -/
theorem define {name : String} (h : names.Tallies k final (opened ++ [name]) met rest count) :
    (names.define name).Tallies k final opened met rest count := by
  have hentered : ((names.define name).defined ++ opened).Perm
      (names.defined ++ (opened ++ [name])) := by
    rw [← List.append_assoc]
    exact (List.perm_append_singleton name _).symm
  -- The definition is no longer open but resolved; what is followed only changes its order.
  have hperm : (k.followed met ((names.define name).defined ++ opened)).Perm
      (k.followed met (names.defined ++ (opened ++ [name]))) :=
    ((hentered.flatMap_right _).append_left _).append_left _
  exact {
    met_of_lifted := h.met_of_lifted
    lifted_of_met := h.lifted_of_met
    alwaysLifts := h.alwaysLifts
    closed := fun _ hu => h.closed (hperm.mem_iff.mp hu)
    counted := fun t n ht => (hperm.count_eq t).trans (h.counted t n ht) }

end Names.Tallies

/-! ### Runs keep the relation -/

/-- A struct that is lifted where nothing has to be for its place has to be lifted everywhere. -/
private theorem alwaysLifts_of_liftedBase? {path : List String} {place : Place} {base : String}
    (h : (contextOf .inline k).liftedBase? s path place = some base) : k.AlwaysLifts s := by
  unfold Context.liftedBase? at h
  split at h
  · next label hname => exact .inl (hname ▸ Option.some_ne_none label)
  · split at h
    · next hlifts =>
      rcases hlifts with hshared | hdocs | ⟨-, hcontained⟩
      · exact .inr (.inl hshared)
      · exact .inr (.inr hdocs)
      · cases hcontained
    · cases h

/-- The counts after the mentions of a step, those in its result as `namesOf` lists them. -/
def Step.tally {α : Type} (namesOf : α → List String) (step : Step α) (count : String → Nat) :
    String → Nat :=
  fun n => count n + (namesOf step.result ++ step.declarations.flatMap (·.body.names)).count n

/-- That a step leads to names that have been counted, when nothing but `rest` is still to come. -/
def Names.Counts (k : Kind) (names final : Names) (opened : List String) (rest : List StructType)
    (count : String → Nat) : Prop :=
  ∃ met, names.Tallies k final opened met rest count

section Steps

variable {α β γ : Type} {f : α → List String} {g : β → List String} {namesOf : γ → List String}

/-- A step that declares what another has made mentions the name before what the other mentions. -/
private theorem tally_declared {step : Step α} {body : Body} (hbody : body.names = f step.result)
    (name : String) (docs : List String) (origin : Origin) (names : Names) (count : String → Nat) :
    Step.tally Shape.names
        ⟨.named name, ⟨name, docs, body, origin⟩ :: step.declarations, names⟩ count =
      step.tally f (mentionedOnce count name) := by
  funext n
  simp only [Step.tally, mentionedOnce, List.flatMap_cons, hbody, List.count_append, Shape.names,
    Nat.add_assoc]

/-- Two steps, one after the other, mention what both of them do. -/
private theorem tally_append {first : Step α} {second : Step β} {result : γ}
    (hresult : namesOf result = f first.result ++ g second.result) (count : String → Nat) :
    Step.tally namesOf
        ⟨result, first.declarations ++ second.declarations, second.names⟩ count =
      second.tally g (first.tally f count) := by
  funext n
  simp only [Step.tally, hresult, List.flatMap_append, List.count_append]
  omega

end Steps

mutual

/-- A run counts what it mentions. -/
theorem TypeRun.counts {opened path docs place type names step} :
    TypeRun (contextOf .inline k) opened path docs place type names step → step.names.Le final →
      ∀ {met rest count}, names.Tallies k final opened met (type.topStructs ++ rest) count →
        step.names.Counts k final opened rest (step.tally Shape.names count)
  | .scalar _, _, met, _, _, h => ⟨met, h⟩
  | .enum _ _, _, met, _, _, h => ⟨met, h⟩
  | .array run, hle, _, _, _, h => run.counts hle h
  | .map run, hle, _, _, _, h => run.counts hle h
  | .knownStruct known, hle, met, _, _, h => by
    have hmem := hle.lifted (mem_of_lookup_eq_some known)
    exact ⟨met, h.again (Option.isSome_of_mem known) hmem⟩
  | .struct _ inline run, hle, _, _, _, h => run.counts hle (h.follow (not_alwaysLifts inline))
  | .liftedStruct _ lifts _ run, hle, _, _, _, h => by
    have hmem := hle.lifted (run.le.lifted List.mem_cons_self)
    rw [tally_declared (f := Shape.fieldNames) (by rfl)]
    exact run.counts hle (h.lift (alwaysLifts_of_liftedBase? lifts) hmem)
  | .knownReference known, hle, met, _, _, h => ⟨met, h.mention (hle.defined known)⟩
  | .reference _ _ found run, hle, _, _, _, h => by
    obtain ⟨met, hcounts⟩ := run.counts ((Names.Le.define _ _).trans hle)
      ((h.mention (hle.defined List.mem_cons_self)).opening found)
    rw [tally_declared rfl]
    exact ⟨met, hcounts.define⟩

theorem FieldsRun.counts {opened path fields names step} :
    FieldsRun (contextOf .inline k) opened path fields names step → step.names.Le final →
      ∀ {met rest count}, names.Tallies k final opened met (fieldTopStructs fields ++ rest) count →
        step.names.Counts k final opened rest (step.tally Shape.fieldNames count)
  | .nil, _, met, _, _, h => ⟨met, h⟩
  | .cons head tail, hle, _, _, _, h => by
    rw [fieldTopStructs, List.flatMap_cons, List.append_assoc] at h
    obtain ⟨met, hfirst⟩ := head.counts (tail.le.trans hle) h
    rw [tally_append (f := Shape.names) (g := Shape.fieldNames) (by rfl)]
    exact tail.counts hle hfirst

theorem BodyRun.counts {opened d names step} :
    BodyRun (contextOf .inline k) opened d names step → step.names.Le final →
      ∀ {met rest count}, names.Tallies k final opened met (d.type.rootTopStructs ++ rest) count →
        step.names.Counts k final opened rest (step.tally Body.names count)
  | .struct type run, hle, _, _, _, h => by
    rw [type] at h
    exact run.counts hle h
  | .enum type, _, met, _, _, h => by
    rw [type] at h
    exact ⟨met, h⟩
  | .synonym noStruct _ run, hle, _, _, _, h => by
    rw [rootTopStructs_of_ne noStruct] at h
    exact run.counts hle h

end

private theorem SectionRun.counts {f names step}
    (run : SectionRun (contextOf .inline k) f names step) (hle : step.names.Le final)
    (h : names.Tallies k final [] met (f.type.rootTopStructs ++ rest) count) :
    step.names.Counts k final [] rest (step.tally (·.type.names) count) := by
  cases run with
  | struct type run =>
    rw [type] at h
    exact run.counts hle h
  | other noStruct run =>
    rw [rootTopStructs_of_ne noStruct] at h
    exact run.counts hle h

private theorem SectionsRun.counts {sections names step}
    (run : SectionsRun (contextOf .inline k) sections names step) (hle : step.names.Le final)
    (h : names.Tallies k final [] met (sections.flatMap (·.type.rootTopStructs) ++ rest) count) :
    step.names.Counts k final [] rest (step.tally Shape.fieldNames count) := by
  induction run generalizing met count with
  | nil => exact ⟨met, h⟩
  | cons head tail ih =>
    rw [List.flatMap_cons, List.append_assoc] at h
    obtain ⟨met, hfirst⟩ := head.counts (tail.le.trans hle) h
    rw [tally_append (f := (·.type.names)) (g := Shape.fieldNames) (by rfl)]
    exact ih hle hfirst

end Resolution

open Resolution

/-! ### Resolved kinds -/

/-- What a resolution of `k` has followed when its sections have been resolved, all that was on top
there included, and how often it has mentioned the structs that it has lifted. -/
structure Kind.Followed (k : Kind) (r : ResolvedKind) (names : Names) (met : List StructType) :
    Prop where
  closed : k.followed met names.defined ⊆ met
  exists_name : ∀ s ∈ met, k.AlwaysLifts s → ∃ name, (s, name) ∈ names.lifted
  alwaysLifts : ∀ s name, (s, name) ∈ names.lifted → k.AlwaysLifts s
  counted : ∀ s name, (s, name) ∈ names.lifted →
    (k.followed met names.defined).count s = r.mentionCount name

/-- Where nothing is lifted for its place, a struct that has been lifted is mentioned in `r` as
often as it is on top in what has been followed. -/
theorem Kind.resolve_followed {k : Kind} {r : ResolvedKind} (h : k.resolve .inline = .ok r) :
    ∃ names met, names.Sound (contextOf .inline k) [] (r.declarations.map (·.name)) ∧
      k.Corresponds r names ∧ k.Followed r names met := by
  obtain ⟨step, run, henvelope, hdeclarations, hdeclared, hsound, hcorresponds⟩ :=
    Kind.resolve_run_corresponds h
  have hstart : Names.Tallies k { used := reservedNames k } step.names [] []
      (k.envelope.flatMap (·.type.rootTopStructs) ++ []) fun _ => 0 :=
    List.append_nil k.sectionTopStructs ▸ .start k step.names
  obtain ⟨met, hmet⟩ := run.counts (.refl step.names) hstart
  -- Nothing is pending at the end, so what is counted is exactly what has been followed.
  have hcounted := hmet.counted
  have hclosed := hmet.closed
  rw [List.append_nil] at hcounted
  rw [List.append_nil, List.append_nil] at hclosed
  refine ⟨step.names, met, hsound, hcorresponds, hclosed, fun s hs hlifts => ?_, hmet.alwaysLifts,
    fun s name hs => ?_⟩
  · obtain ⟨name, hname⟩ := Option.isSome_iff_exists.mp (hmet.lifted_of_met s hs hlifts)
    exact ⟨name, mem_of_lookup_eq_some hname⟩
  · have htraces : step.names.Traces k s name := {
      lifts := hmet.alwaysLifts s name hs
      struct := fun t other ht => hsound.name_eq_iff ht hs
      definition := by
        rintro other hother rfl
        obtain ⟨d, body, hd⟩ := hcorresponds.exists_definition hother
        exact (hcorresponds.isLifted s other hs).not_isDefined ⟨_, hd.found, rfl⟩ }
    rw [hcounted s name htraces, List.count_nil, Nat.add_zero, Step.tally, Nat.zero_add,
      ← henvelope, ← hdeclarations, ResolvedKind.mentionCount]

end KindSchema
