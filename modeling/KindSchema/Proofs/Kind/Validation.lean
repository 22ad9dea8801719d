import Mathlib.Data.List.Forall2
import KindSchema.Kind.Validation

/-!
# What well-formedness checks accept

* `validateNames_eq_ok_iff`, `validateDefinitions_eq_ok_iff`: the checks of the names of a kind and
  of its definitions accept exactly the kinds that violate none of their rules.
* `validate_name_ne`: hence no definition that a valid kind can refer to has the name of the kind.
-/

namespace KindSchema

/-! ### Computations that may fail -/

section Except

variable {ε α β : Type}

/-- The computation `x` followed by `f` succeeds if `x` does, and `f` does on its result. -/
theorem bind_eq_ok {x : Except ε α} {f : α → Except ε β} {b : β} :
    x >>= f = .ok b ↔ ∃ a, x = .ok a ∧ f a = .ok b := by
  constructor
  · intro h
    cases x with
    | error e => cases h
    | ok a => exact ⟨a, rfl, h⟩
  · rintro ⟨a, rfl, h⟩
    exact h

/-- The computation `x` followed by `f` fails for the reason of `x`, or `x` succeeds and `f` fails
on its result. -/
theorem bind_eq_error {x : Except ε α} {f : α → Except ε β} {e : ε} :
    x >>= f = .error e ↔ x = .error e ∨ ∃ a, x = .ok a ∧ f a = .error e := by
  cases x with
  | error e' =>
    constructor
    · rintro ⟨⟩
      exact .inl rfl
    · rintro (⟨⟨⟩⟩ | ⟨a, ⟨⟩, -⟩)
      rfl
  | ok a =>
    constructor
    · exact fun h => .inr ⟨a, rfl, h⟩
    · rintro (⟨⟨⟩⟩ | ⟨a, ⟨⟩, h⟩)
      exact h

/-- The computation `x` whose result is only wrapped up by `f` succeeds if `x` does. -/
theorem bind_return_eq_ok {x : Except ε α} {f : α → β} {b : β} :
    (do return f (← x)) = .ok b ↔ ∃ a, x = .ok a ∧ f a = b := by
  rw [bind_eq_ok]
  exact exists_congr fun a => and_congr_right fun _ => ⟨Except.ok.inj, congrArg Except.ok⟩

@[simp] theorem mapError_ok {ε' : Type} (g : ε → ε') (a : α) :
    (Except.ok a).mapError g = .ok a :=
  rfl

@[simp] theorem mapError_error {ε' : Type} (g : ε → ε') (e : ε) :
    (Except.error e : Except ε α).mapError g = .error (g e) :=
  rfl

/-- The computation `x` whose error is changed by `g` succeeds if `x` does. -/
theorem mapError_eq_ok {ε' : Type} {g : ε → ε'} {x : Except ε α} {a : α} :
    x.mapError g = .ok a ↔ x = .ok a := by
  cases x with
  | error e => exact ⟨nofun, nofun⟩
  | ok b => constructor <;> (rintro ⟨⟩; rfl)

/-- The check of `p` succeeds if `p` does not hold and what comes after it succeeds. -/
theorem check_eq_ok {p : Prop} [Decidable p] {e : ε} {x : Except ε α} {a : α} :
    (if p then .error e else x) = .ok a ↔ ¬ p ∧ x = .ok a := by
  by_cases hp : p
  · rw [if_pos hp]
    exact ⟨nofun, fun h => absurd hp h.1⟩
  · rw [if_neg hp]
    exact ⟨fun h => ⟨hp, h⟩, fun h => h.2⟩

/-- The check of `p` fails if `p` holds, with its own error, or else what comes after it does. -/
theorem check_eq_error {p : Prop} [Decidable p] {e e' : ε} {x : Except ε α} :
    (if p then .error e else x) = .error e' ↔ p ∧ e = e' ∨ ¬ p ∧ x = .error e' := by
  by_cases hp : p
  · rw [if_pos hp, Except.error.injEq]
    exact ⟨fun h => .inl ⟨hp, h⟩, fun h => h.elim (·.2) fun h => absurd hp h.1⟩
  · rw [if_neg hp]
    exact ⟨fun h => .inr ⟨hp, h⟩, fun h => h.elim (fun h => absurd h.1 hp) (·.2)⟩

/-- The checks `x` and then `y` pass if both do. -/
theorem check_then_eq_ok {x y : Except ε Unit} :
    (x >>= fun _ => y) = .ok () ↔ x = .ok () ∧ y = .ok () := by
  rw [bind_eq_ok]
  exact ⟨fun ⟨_, hx, hy⟩ => ⟨hx, hy⟩, fun ⟨hx, hy⟩ => ⟨(), hx, hy⟩⟩

/-- The function `f` that may fail succeeds on the list `l` if it succeeds on each of its
elements. -/
theorem mapM_eq_ok {f : α → Except ε β} {l : List α} {bs : List β} :
    l.mapM f = .ok bs ↔ List.Forall₂ (fun a b => f a = .ok b) l bs := by
  induction l generalizing bs with
  | nil =>
    rw [List.mapM_nil, List.forall₂_nil_left_iff]
    exact ⟨fun h => by cases h; rfl, fun h => by rw [h]; rfl⟩
  | cons a l ih =>
    rw [List.mapM_cons, bind_eq_ok, List.forall₂_cons_left_iff]
    constructor
    · rintro ⟨b, hb, h⟩
      obtain ⟨rest, hrest, rfl⟩ := bind_return_eq_ok.mp h
      exact ⟨b, rest, hb, ih.mp hrest, rfl⟩
    · rintro ⟨b, rest, hb, hrest, rfl⟩
      exact ⟨b, hb, bind_eq_ok.mpr ⟨rest, ih.mpr hrest, rfl⟩⟩

/-- The steps `x` and `f` succeed if the first does, and the second does with its result. -/
theorem exists_bind_eq_ok_iff {x : Except ε α} {f : α → Except ε β} :
    (∃ b, (x >>= f) = .ok b) ↔ ∃ a, x = .ok a ∧ ∃ b, f a = .ok b := by
  constructor
  · rintro ⟨b, h⟩
    obtain ⟨a, ha, hb⟩ := bind_eq_ok.mp h
    exact ⟨a, ha, b, hb⟩
  · rintro ⟨a, ha, b, hb⟩
    exact ⟨b, bind_eq_ok.mpr ⟨a, ha, hb⟩⟩

/-- The function `f` that may fail succeeds on the list `l` if it can succeed on each of its
elements. -/
theorem exists_mapM_iff {f : α → Except ε β} {l : List α} :
    (∃ bs, l.mapM f = .ok bs) ↔ ∀ a ∈ l, ∃ b, f a = .ok b := by
  induction l with
  | nil => exact ⟨fun _ a ha => absurd ha List.not_mem_nil, fun _ => ⟨[], rfl⟩⟩
  | cons a l ih =>
    rw [List.mapM_cons, exists_bind_eq_ok_iff, List.forall_mem_cons, ← ih]
    constructor
    · rintro ⟨b, hb, h⟩
      obtain ⟨bs, hbs, -⟩ := exists_bind_eq_ok_iff.mp h
      exact ⟨⟨b, hb⟩, bs, hbs⟩
    · rintro ⟨⟨b, hb⟩, bs, hbs⟩
      exact ⟨b, hb, exists_bind_eq_ok_iff.mpr ⟨bs, hbs, b :: bs, rfl⟩⟩

end Except

namespace Kind

/-! ### Definitions -/

/-- What is checked of one definition of the kind of a name, after those with the names in
`seen`. -/
structure DefinitionValid (kindName : String) (seen : List String) (d : Definition) : Prop where
  name_ne_empty : d.name ≠ ""
  name_ne_kind : d.name ≠ kindName
  name_not_seen : d.name ∉ seen
  type_valid : d.type.validate d.name = .ok ()

/-- The check of `definitions` accepts them if they are valid one by one and have different
names. -/
theorem validateDefinitions_eq_ok_iff {kindName : String} {seen : List String}
    {definitions : List Definition} :
    validateDefinitions kindName seen definitions = .ok () ↔
      (∀ d ∈ definitions, DefinitionValid kindName seen d) ∧ (definitions.map (·.name)).Nodup := by
  induction definitions generalizing seen with
  | nil => simp [validateDefinitions]
  | cons d definitions ih =>
    rw [validateDefinitions, check_eq_ok, check_eq_ok, check_eq_ok, bind_eq_ok]
    constructor
    · rintro ⟨hempty, hkind, hseen, ⟨⟩, htype, hrest⟩
      obtain ⟨hvalid, hnodup⟩ := ih.mp hrest
      refine ⟨List.forall_mem_cons.mpr ⟨⟨hempty, hkind, hseen, htype⟩, fun e he => ?_⟩, ?_⟩
      -- The later names are checked against a longer list, so they are also new to the shorter one.
      · have hnew := (hvalid e he).name_not_seen
        exact { hvalid e he with name_not_seen := fun hmem => hnew (List.mem_cons_of_mem _ hmem) }
      · refine List.nodup_cons.mpr ⟨fun hmem => ?_, hnodup⟩
        obtain ⟨e, he, hname⟩ := List.mem_map.mp hmem
        exact (hvalid e he).name_not_seen (hname ▸ List.mem_cons_self)
    · rintro ⟨hvalid, hnodup⟩
      obtain ⟨hd, hvalid⟩ := List.forall_mem_cons.mp hvalid
      obtain ⟨hnew, hnodup⟩ := List.nodup_cons.mp hnodup
      refine ⟨hd.name_ne_empty, hd.name_ne_kind, hd.name_not_seen, (), hd.type_valid,
        ih.mpr ⟨fun e he => { hvalid e he with name_not_seen := fun hmem => ?_ }, hnodup⟩⟩
      rcases List.mem_cons.mp hmem with hname | hmem
      · exact hnew (List.mem_map.mpr ⟨e, he, hname⟩)
      · exact (hvalid e he).name_not_seen hmem

/-! ### Names -/

/-- What is checked of the names of `k`. -/
structure NamesValid (k : Kind) : Prop where
  not_blank : isBlankText k.name = false
  pascal : Naming.isPascalIdentifier k.name = true
  machine : Naming.isMachineName k.machineName = true
  not_builtin : builtinDefinition? k.name = none

theorem validateNames_eq_ok_iff {k : Kind} : k.validateNames = .ok () ↔ k.NamesValid := by
  rw [validateNames, check_eq_ok, check_eq_ok, check_eq_ok, check_eq_ok]
  simp only [Bool.not_eq_true, Bool.not_eq_eq_eq_not, Bool.not_true, Bool.not_eq_false,
    Option.isSome_eq_false_iff, Option.isNone_iff_eq_none, and_true]
  exact ⟨fun ⟨hblank, hpascal, hmachine, hbuiltin⟩ => ⟨hblank, hpascal, hmachine, hbuiltin⟩,
    fun h => ⟨h.not_blank, h.pascal, h.machine, h.not_builtin⟩⟩

/-- The names of `k`, a valid kind, are valid. -/
theorem validate_names {k : Kind} (h : k.validate = .ok ()) : k.NamesValid := by
  rw [validate] at h
  obtain ⟨⟨⟩, hnames, -⟩ := bind_eq_ok.mp h
  exact validateNames_eq_ok_iff.mp hnames

/-- If `k` is valid, no definition, of the kind or built in, has the name of the kind. -/
theorem validate_name_ne {k : Kind} (h : k.validate = .ok ()) {d : Definition}
    (hd : d ∈ k.definitions ++ builtinDefinitions) : d.name ≠ k.name := by
  rw [validate] at h
  obtain ⟨⟨⟩, hnames, h⟩ := bind_eq_ok.mp h
  obtain ⟨⟨⟩, hdefinitions, -⟩ := bind_eq_ok.mp h
  rcases List.mem_append.mp hd with hd | hd
  · exact ((validateDefinitions_eq_ok_iff.mp hdefinitions).1 d hd).name_ne_kind
  · have hnone := (validateNames_eq_ok_iff.mp hnames).not_builtin
    have hne := List.find?_eq_none.mp hnone d hd
    exact fun heq => hne (beq_iff_eq.mpr heq)

end Kind

end KindSchema
