import KindSchema.Proofs.Resolution.FreshName
import KindSchema.Proofs.Resolution.Run

/-!
# Names that a resolution gives

A declaration is *begun* when its name is given, which is before its body is resolved.
`Names.Sound` relates the names given to the declarations begun and to the definitions that are
open: no name is given twice, the definitions begun are those that are resolved or open, and a
struct and its name determine each other.

* `Names.Sound.reserve`, `Names.Sound.lift`, `Names.Sound.opening`, `Names.Sound.define`: the four
  ways in which names change keep this.
* `TypeRun.sound`, `FieldsRun.sound`, `BodyRun.sound`, `SectionsRun.sound`: so does every run, and
  the declarations it makes have proper names.
-/

namespace KindSchema

open Resolution

/-- The definition `d` of `name` has that name, and is one of those the kind can refer to. -/
theorem Kind.definition?_eq_some {k : Kind} {name : String} {d : Definition}
    (h : k.definition? name = some d) : d ∈ definitionsOf k ∧ d.name = name := by
  unfold Kind.definition? builtinDefinition? at h
  rw [← List.find?_append] at h
  exact ⟨List.mem_of_find?_eq_some h, by simpa using List.find?_some h⟩

/-- The names of the definitions of `k` are those that have a definition. -/
theorem Kind.isSome_definition?_iff {k : Kind} {name : String} :
    (k.definition? name).isSome ↔ name ∈ (definitionsOf k).map (·.name) := by
  unfold Kind.definition? builtinDefinition?
  rw [← List.find?_append, List.find?_isSome, List.mem_map]
  simp only [definitionsOf, beq_iff_eq]

/-- Definitions have reserved names. -/
private theorem Kind.mem_reservedNames_of_isSome {k : Kind} {name : String}
    (h : (k.definition? name).isSome) : name ∈ reservedNames k :=
  List.mem_cons_of_mem _ (Kind.isSome_definition?_iff.mp h)

namespace ResolvedKind

variable {r : ResolvedKind} {name : String} {d : Declaration}

/-- The declaration `d` of `name` has that name, and is one of the declarations. -/
theorem declaration?_eq_some (h : r.declaration? name = some d) :
    d ∈ r.declarations ∧ d.name = name :=
  ⟨List.mem_of_find?_eq_some h, by simpa using List.find?_some h⟩

/-- If no name is declared twice, `d` is the declaration of its name. -/
theorem declaration?_of_mem (hnodup : (r.declarations.map (·.name)).Nodup)
    (hd : d ∈ r.declarations) : r.declaration? d.name = some d := by
  have hsome : (r.declaration? d.name).isSome :=
    List.find?_isSome.mpr ⟨d, hd, beq_self_eq_true d.name⟩
  obtain ⟨e, he⟩ := Option.isSome_iff_exists.mp hsome
  obtain ⟨hmem, hname⟩ := declaration?_eq_some he
  rw [he, List.inj_on_of_nodup_map hnodup hmem hd hname]

/-- What the declaration of `name` mentions. -/
theorem mem_mentions {other : String} :
    other ∈ r.mentions name ↔ ∃ d, r.declaration? name = some d ∧ other ∈ d.body.names := by
  unfold mentions
  cases r.declaration? name with
  | none => simp
  | some d => simp

end ResolvedKind

/-- That `d` has its name, if it stands for a definition; no other declaration has the name of a
definition or of the kind. -/
structure Declaration.Proper (k : Kind) (d : Declaration) : Prop where
  defined : d.origin = .defined → (k.definition? d.name).isSome
  lifted : ∀ path, d.origin = .lifted path → d.name ∉ reservedNames k

private theorem Declaration.Proper.of_defined {k : Kind} {name : String} (docs : List String)
    (body : Body) (h : (k.definition? name).isSome) :
    Declaration.Proper k ⟨name, docs, body, .defined⟩ where
  defined := fun _ => h
  lifted := nofun

private theorem Declaration.Proper.of_lifted {k : Kind} {name : String} (docs path : List String)
    (body : Body) (h : name ∉ reservedNames k) :
    Declaration.Proper k ⟨name, docs, body, .lifted path⟩ where
  defined := nofun
  lifted := fun _ _ => h

/-- If `a` is not found in `l`, it is not a key of it. -/
theorem not_mem_keys_of_lookup {α β : Type} [BEq α] [LawfulBEq α] {l : List (α × β)} {a : α}
    (h : l.lookup a = none) : a ∉ l.map (·.1) := by
  intro hmem
  obtain ⟨e, he, hea⟩ := List.mem_map.mp hmem
  exact bne_iff_ne.mp (List.lookup_eq_none_iff.mp h e he) hea.symm

/-- The list `l` without repetitions can be extended by `a`, which it does not hold. -/
theorem nodup_append_singleton {α : Type} {l : List α} {a : α} (h : l.Nodup) (ha : a ∉ l) :
    (l ++ [a]).Nodup :=
  (List.perm_append_singleton a l).nodup_iff.mpr (List.nodup_cons.mpr ⟨ha, h⟩)

namespace Resolution

/-! ### The invariant of the names -/

/-- What holds of the names given when the declarations of the names in `begun` have been begun and
the definitions in `opened` are open. -/
structure Names.Sound (c : Context) (opened begun : List String) (names : Names) : Prop where
  nodup : begun.Nodup
  used : ∀ name ∈ begun, name ∈ names.used
  reserved : ∀ name ∈ reservedNames c.kind, name ∈ names.used
  visited : ∀ name,
    name ∈ names.defined ++ opened ↔ name ∈ begun ∧ (c.kind.definition? name).isSome
  visited_nodup : (names.defined ++ opened).Nodup
  lifted : ∀ e ∈ names.lifted, e.2 ∈ begun
  structs_nodup : (names.lifted.map (·.1)).Nodup
  names_nodup : (names.lifted.map (·.2)).Nodup

namespace Names.Sound

variable {c : Context} {opened begun : List String} {names : Names} {name : String}

/-- If `name` is not in use, it has not been begun. -/
theorem not_begun (h : names.Sound c opened begun) (hfree : name ∉ names.used) : name ∉ begun :=
  fun hbegun => hfree (h.used name hbegun)

/-- A name that is not in use is not reserved. -/
private theorem not_reserved (h : names.Sound c opened begun) (hfree : name ∉ names.used) :
    name ∉ reservedNames c.kind :=
  fun hreserved => hfree (h.reserved name hreserved)

/-- If the definition `name` is neither resolved nor open, it has not been begun. -/
theorem not_begun_of_definition (h : names.Sound c opened begun)
    (hd : (c.kind.definition? name).isSome) (hdefined : name ∉ names.defined)
    (hopened : name ∉ opened) : name ∉ begun := by
  intro hbegun
  have hvisited := (h.visited name).mpr ⟨hbegun, hd⟩
  exact (List.mem_append.mp hvisited).elim hdefined hopened

/-- At the start of a resolution nothing has been begun. -/
theorem start (c : Context) : Names.Sound c [] [] { used := reservedNames c.kind } where
  nodup := List.nodup_nil
  used := by simp
  reserved := fun _ hname => hname
  visited := by simp
  visited_nodup := by simp
  lifted := by simp
  structs_nodup := by simp
  names_nodup := by simp

/-- A declaration is begun under `name`, which is free and no definition's. -/
theorem reserve (h : names.Sound c opened begun) (hfree : name ∉ names.used) :
    (names.reserve name).Sound c opened (begun ++ [name]) where
  nodup := nodup_append_singleton h.nodup (h.not_begun hfree)
  used := by
    intro other hother
    rcases List.mem_append.mp hother with hother | hother
    · exact List.mem_cons_of_mem _ (h.used other hother)
    · rw [List.mem_singleton.mp hother]
      exact List.mem_cons_self
  reserved := fun other hother => List.mem_cons_of_mem _ (h.reserved other hother)
  visited := by
    intro other
    rw [List.mem_append (s := begun), List.mem_singleton]
    constructor
    · intro hother
      have hboth := (h.visited other).mp hother
      exact ⟨.inl hboth.1, hboth.2⟩
    · rintro ⟨hother | rfl, hd⟩
      · exact (h.visited other).mpr ⟨hother, hd⟩
      · exact absurd (Kind.mem_reservedNames_of_isSome hd) (h.not_reserved hfree)
  visited_nodup := h.visited_nodup
  lifted := fun e he => List.mem_append_left _ (h.lifted e he)
  structs_nodup := h.structs_nodup
  names_nodup := h.names_nodup

/-- The struct `s`, which has no name yet, is lifted under `name`, which is free. -/
theorem lift {s : StructType} (h : names.Sound c opened begun) (hfree : name ∉ names.used)
    (hunknown : names.lifted.lookup s = none) :
    (names.lift s name).Sound c opened (begun ++ [name]) where
  __ := h.reserve hfree
  lifted := by
    intro e he
    rcases List.mem_cons.mp he with rfl | he
    · simp
    · exact List.mem_append_left _ (h.lifted e he)
  structs_nodup := List.nodup_cons.mpr ⟨not_mem_keys_of_lookup hunknown, h.structs_nodup⟩
  names_nodup := by
    refine List.nodup_cons.mpr ⟨fun hname => ?_, h.names_nodup⟩
    obtain ⟨e, he, hes : e.2 = name⟩ := List.mem_map.mp hname
    exact h.not_begun hfree (hes ▸ h.lifted e he)

/-- The definition `name` is opened, which is neither resolved nor open. -/
theorem opening (h : names.Sound c opened begun) (hd : (c.kind.definition? name).isSome)
    (hdefined : name ∉ names.defined) (hopened : name ∉ opened) :
    names.Sound c (opened ++ [name]) (begun ++ [name]) where
  nodup := nodup_append_singleton h.nodup (h.not_begun_of_definition hd hdefined hopened)
  used := by
    intro other hother
    rcases List.mem_append.mp hother with hother | hother
    · exact h.used other hother
    · rw [List.mem_singleton.mp hother]
      -- The name of a definition is reserved from the start, so it is in use before it is opened.
      exact h.reserved name (Kind.mem_reservedNames_of_isSome hd)
  reserved := h.reserved
  visited := by
    intro other
    rw [← List.append_assoc, List.mem_append (t := [name]), List.mem_append (s := begun),
      h.visited other, List.mem_singleton]
    constructor
    · rintro (⟨hother, hd'⟩ | rfl)
      · exact ⟨.inl hother, hd'⟩
      · exact ⟨.inr rfl, hd⟩
    · rintro ⟨hother | rfl, hd'⟩
      · exact .inl ⟨hother, hd'⟩
      · exact .inr rfl
  visited_nodup := by
    rw [← List.append_assoc]
    refine nodup_append_singleton h.visited_nodup fun hname => ?_
    exact (List.mem_append.mp hname).elim hdefined hopened
  lifted := fun e he => List.mem_append_left _ (h.lifted e he)
  structs_nodup := h.structs_nodup
  names_nodup := h.names_nodup

/-- The definition `name`, opened last, has been resolved. -/
theorem define (h : names.Sound c (opened ++ [name]) begun) :
    (names.define name).Sound c opened begun := by
  have hperm : (name :: names.defined ++ opened).Perm (names.defined ++ (opened ++ [name])) := by
    rw [← List.append_assoc]
    exact (List.perm_append_singleton name _).symm
  exact {
    nodup := h.nodup
    used := h.used
    reserved := h.reserved
    visited := fun other => hperm.mem_iff.trans (h.visited other)
    visited_nodup := hperm.nodup_iff.mpr h.visited_nodup
    lifted := h.lifted
    structs_nodup := h.structs_nodup
    names_nodup := h.names_nodup }

end Names.Sound

/-! ### Runs keep the invariant -/

/-- The names of the declarations that `step` made. -/
def Step.begun {α : Type} (step : Step α) : List String :=
  step.declarations.map (·.name)

/-- That `step` keeps the invariant, and has made proper declarations. -/
structure Step.Sound {α : Type} (c : Context) (opened begun : List String) (step : Step α) :
    Prop where
  names : step.names.Sound c opened (begun ++ step.begun)
  proper : ∀ d ∈ step.declarations, d.Proper c.kind

namespace Step.Sound

variable {α β : Type} {c : Context} {opened begun : List String}

/-- A step that gives no name and makes no declaration. -/
private theorem of_names {a : α} {names : Names} (h : names.Sound c opened begun) :
    Step.Sound c opened begun (⟨a, [], names⟩ : Step α) where
  names := by simpa [Step.begun] using h
  proper := by simp

private theorem map {step : Step α} (h : step.Sound c opened begun) (f : α → β) :
    (step.map f).Sound c opened begun where
  names := h.names
  proper := h.proper

/-- Two steps, one after the other. -/
private theorem append {first : Step α} {rest : Step β} {γ : Type}
    (hfirst : first.Sound c opened begun) (hrest : rest.Sound c opened (begun ++ first.begun))
    (result : γ) :
    Step.Sound c opened begun
      (⟨result, first.declarations ++ rest.declarations, rest.names⟩ : Step γ) where
  names := by simpa [Step.begun] using hrest.names
  proper := by
    intro d hd
    exact (List.mem_append.mp hd).elim (hfirst.proper d) (hrest.proper d)

/-- A step inside a declaration that is begun before it. -/
private theorem cons {d : Declaration} {step : Step α} (hd : d.Proper c.kind)
    (h : step.Sound c opened (begun ++ [d.name])) (result : β) :
    Step.Sound c opened begun (⟨result, d :: step.declarations, step.names⟩ : Step β) where
  names := by simpa [Step.begun] using h.names
  proper := by
    intro e he
    rcases List.mem_cons.mp he with rfl | he
    · exact hd
    · exact h.proper e he

end Step.Sound

variable {c : Context}

mutual

/-- A run keeps the invariant, and the declarations it makes have proper names. -/
theorem TypeRun.sound {opened path docs place type names step} :
    TypeRun c opened path docs place type names step →
      ∀ {begun}, names.Sound c opened begun → step.Sound c opened begun
  | .scalar _, _, h => .of_names h
  | .enum _ _, _, h => .of_names h
  | .liftedEnum _ _ fresh, _, h => by
    have hfree := fresh ▸ freshName_not_mem names.used _
    exact .cons (.of_lifted _ _ _ (h.not_reserved hfree)) (.of_names (a := ()) (h.reserve hfree)) _
  | .array run, _, h => (run.sound h).map _
  | .map run, _, h => (run.sound h).map _
  | .knownStruct _, _, h => .of_names h
  | .struct _ _ run, _, h => (run.sound h).map _
  | .liftedStruct unknown _ fresh run, _, h => by
    have hfree := fresh ▸ freshName_not_mem names.used _
    exact .cons (.of_lifted _ _ _ (h.not_reserved hfree)) (run.sound (h.lift hfree unknown)) _
  | .knownReference _, _, h => .of_names h
  | @TypeRun.reference _ opened _ _ _ name _ step d unknown unopened found run, begun, h => by
    have hd := Option.isSome_of_mem found
    have hbody := run.sound (h.opening hd unknown unopened)
    have hresolved : Step.Sound c opened (begun ++ [name])
        ⟨step.result, step.declarations, step.names.define name⟩ :=
      ⟨hbody.names.define, hbody.proper⟩
    exact .cons (.of_defined _ _ hd) hresolved _

theorem FieldsRun.sound {opened path fields names step} :
    FieldsRun c opened path fields names step →
      ∀ {begun}, names.Sound c opened begun → step.Sound c opened begun
  | .nil, _, h => .of_names h
  | .cons head tail, _, h => (head.sound h).append (tail.sound (head.sound h).names) _

theorem BodyRun.sound {opened d names step} :
    BodyRun c opened d names step →
      ∀ {begun}, names.Sound c opened begun → step.Sound c opened begun
  | .struct _ run, _, h => (run.sound h).map _
  | .enum _, _, h => .of_names h
  | .synonym _ _ run, _, h => (run.sound h).map _

end

theorem SectionRun.sound {f names step begun} (run : SectionRun c f names step)
    (h : names.Sound c [] begun) : step.Sound c [] begun := by
  cases run with
  | struct _ run => exact (run.sound h).map _
  | other _ run => exact (run.sound h).map _

theorem SectionsRun.sound {sections names step begun} (run : SectionsRun c sections names step)
    (h : names.Sound c [] begun) : step.Sound c [] begun := by
  induction run generalizing begun with
  | nil => exact .of_names h
  | cons head _ ih => exact (head.sound h).append (ih (head.sound h).names) _

/-- That `r` has the declarations that `step` made. -/
def Step.Declared {α : Type} (r : ResolvedKind) (step : Step α) : Prop :=
  ∀ d ∈ step.declarations, r.declaration? d.name = some d

namespace Step.Declared

variable {α β γ : Type} {r : ResolvedKind} {d : Declaration} {first : Step α} {rest : Step β}
  {result : γ} {names : Names}

theorem head {ds : List Declaration} (h : Step.Declared r ⟨result, d :: ds, names⟩) :
    r.declaration? d.name = some d :=
  h d List.mem_cons_self

theorem tail (h : Step.Declared r ⟨result, d :: rest.declarations, names⟩) : rest.Declared r :=
  fun e he => h e (List.mem_cons_of_mem d he)

theorem left (h : Step.Declared r ⟨result, first.declarations ++ rest.declarations, names⟩) :
    first.Declared r :=
  fun e he => h e (List.mem_append_left _ he)

theorem right (h : Step.Declared r ⟨result, first.declarations ++ rest.declarations, names⟩) :
    rest.Declared r :=
  fun e he => h e (List.mem_append_right _ he)

end Step.Declared

end Resolution

/-- The resolved kind `r` is the outcome of a run that keeps the invariant, and each of its
declarations is found under its name. -/
theorem Kind.resolve_sound {policy : Policy} {k : Kind} {r : ResolvedKind}
    (h : k.resolve policy = .ok r) :
    ∃ step, SectionsRun (contextOf policy k) k.envelope { used := reservedNames k } step ∧
      r.envelope = step.result ∧ r.declarations = step.declarations ∧
      step.Sound (contextOf policy k) [] [] ∧ step.Declared r := by
  obtain ⟨-, -, step, run, henvelope, hdeclarations⟩ := Kind.resolve_run h
  have hsound := run.sound (.start _)
  have hnodup : (r.declarations.map (·.name)).Nodup := hdeclarations ▸ hsound.names.nodup
  exact ⟨step, run, henvelope, hdeclarations, hsound,
    fun d hd => ResolvedKind.declaration?_of_mem hnodup (hdeclarations ▸ hd)⟩

end KindSchema
