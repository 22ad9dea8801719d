import Mathlib.Data.Finset.Insert
import Mathlib.Data.List.Flatten
import KindSchema.Proofs.Resolution.Reachability

/-!
# Reachable declarations by a worklist

Another way to find what some shapes depend on is to keep a stack of names. The name on top is
taken off; if it is new it is marked, and the names that its declaration mentions are put on the
stack. A name is marked whether it is declared or not, and may be on the stack several times.

* `Search.Sound`: what has been marked or waits is reached, and what a marked name mentions is
  marked or waits. `Search.Sound.step` keeps this, and `Search.weight_lt` makes the search end.
* `Search.Sound.exists_run`: so a search ends, having marked exactly the names that are reached.
* `IsReachable`: that a declaration is mentioned by some shapes or in the body of a declaration of
  which this holds. It does not mention names that have no declaration.
* `reachable_spec`: the reachable declarations are what a worklist finds, each of them once and in
  the order of the declarations, whatever cycles there are among them.
-/

namespace KindSchema.ResolvedKind

/-! ### The search -/

/-- A search through the declarations: the names that wait to be looked at, the top one first, and
those that have been marked. -/
structure Search where
  pending : List String
  wanted : Finset String

namespace Search

/-- The start of a search: all names that `roots` mention wait, the last one on top. -/
def start (roots : List Shape) : Search where
  pending := (roots.flatMap Shape.names).reverse
  wanted := ∅

/-- Takes the top name off the stack, unless this is empty, and puts on it what the declaration of
the name in `k` mentions. -/
def step (k : ResolvedKind) : Search → Option Search
  | ⟨[], _⟩ => none
  | ⟨name :: pending, wanted⟩ =>
    if name ∈ wanted then some ⟨pending, wanted⟩
    else some ⟨(k.mentions name).reverse ++ pending, insert name wanted⟩

/-- The names that are marked when the stack is empty, if this is so after at most `limit` steps. -/
def run (k : ResolvedKind) : (limit : Nat) → Search → Option (Finset String)
  | 0, s => if s.pending = [] then some s.wanted else none
  | limit + 1, s =>
    match s.step k with
    | none => some s.wanted
    | some next => run k limit next

/-- The names that those of `declarations` without a mark mention; `wanted` are the names with a
mark. -/
def outstanding (declarations : List Declaration) (wanted : Finset String) : List String :=
  (declarations.filter (·.name ∉ wanted)).flatMap (·.body.names)

/-- The number of names that wait in `s` or may still come to wait. -/
def weight (k : ResolvedKind) (s : Search) : Nat :=
  s.pending.length + (outstanding k.declarations s.wanted).length

variable {k : ResolvedKind} {roots : List Shape} {s next : Search} {wanted : Finset String}
  {name : String}

/-- A search ends when nothing waits. -/
private theorem step_eq_none_iff : s.step k = none ↔ s.pending = [] := by
  obtain ⟨pending, wanted⟩ := s
  cases pending with
  | nil => exact iff_of_true rfl rfl
  | cons name pending =>
    rw [step]
    exact iff_of_false (by split <;> nofun) (List.cons_ne_nil _ _)

/-! ### The end of the search -/

private theorem outstanding_append (before after : List Declaration) (wanted : Finset String) :
    outstanding (before ++ after) wanted =
      outstanding before wanted ++ outstanding after wanted := by
  rw [outstanding, List.filter_append, List.flatMap_append]
  rfl

/-- Marking a name leaves no more outstanding. -/
private theorem outstanding_insert_sublist (declarations : List Declaration) :
    (outstanding declarations (insert name wanted)).Sublist (outstanding declarations wanted) := by
  refine (List.monotone_filter_right declarations fun d hd => ?_).flatMap _
  rw [decide_eq_true_eq] at hd ⊢
  exact fun hmem => hd (Finset.mem_insert_of_mem hmem)

/-- When a name is marked, the names that its declaration mentions are no longer outstanding. -/
private theorem mentions_add_outstanding_le (h : name ∉ wanted) :
    (k.mentions name).length + (outstanding k.declarations (insert name wanted)).length ≤
      (outstanding k.declarations wanted).length := by
  unfold mentions
  cases hd : k.declaration? name with
  | none =>
    rw [List.length_nil, Nat.zero_add]
    exact (outstanding_insert_sublist _).length_le
  | some d =>
    obtain ⟨hmem, rfl⟩ := declaration?_eq_some hd
    -- The mentions of the declaration leave what is outstanding, and no other adds any.
    obtain ⟨before, after, hsplit⟩ := List.append_of_mem hmem
    have hfewer (l : List Declaration) :
        (outstanding l (insert d.name wanted)).length ≤ (outstanding l wanted).length :=
      (outstanding_insert_sublist l).length_le
    have hbefore := hfewer before
    have hafter := hfewer after
    have hmarked : outstanding (d :: after) (insert d.name wanted) =
        outstanding after (insert d.name wanted) := by
      simp [outstanding]
    have hunmarked : outstanding (d :: after) wanted =
        d.body.names ++ outstanding after wanted := by
      simp [outstanding, h]
    rw [hsplit, outstanding_append, outstanding_append, hmarked, hunmarked]
    simp only [List.length_append]
    omega

/-- Every step makes `s` lighter. -/
theorem weight_lt (h : s.step k = some next) : next.weight k < s.weight k := by
  obtain ⟨pending, wanted⟩ := s
  cases pending with
  | nil => cases h
  | cons name pending =>
    rw [step] at h
    split at h
    · cases h
      simp only [weight, List.length_cons]
      omega
    · next hnew =>
      cases h
      -- What comes on the stack has been outstanding until now.
      have hless := mentions_add_outstanding_le (k := k) hnew
      simp only [weight, List.length_append, List.length_reverse, List.length_cons]
      omega

/-! ### What the search marks -/

/-- That `s` is a search under way from `roots`. -/
structure Sound (k : ResolvedKind) (roots : List Shape) (s : Search) : Prop where
  marked : ∀ name ∈ s.wanted, k.Reaches roots name
  waiting : ∀ name ∈ s.pending, k.Reaches roots name
  begun : ∀ name ∈ roots.flatMap Shape.names, name ∈ s.wanted ∨ name ∈ s.pending
  closed : ∀ outer ∈ s.wanted, ∀ inner, k.Within inner outer →
    inner ∈ s.wanted ∨ inner ∈ s.pending

private theorem sound_start (k : ResolvedKind) (roots : List Shape) :
    (start roots).Sound k roots where
  marked _ hname := absurd hname (Finset.notMem_empty _)
  waiting _ hname := .of_mem (List.mem_reverse.mp hname)
  begun _ hname := .inr (List.mem_reverse.mpr hname)
  closed _ houter := absurd houter (Finset.notMem_empty _)

namespace Sound

/-- A name that has been marked may be taken off the stack. -/
private theorem drop {pending : List String} (h : Sound k roots ⟨name :: pending, wanted⟩)
    (hold : name ∈ wanted) : Sound k roots ⟨pending, wanted⟩ := by
  have hkept {other : String} (hother : other ∈ wanted ∨ other ∈ name :: pending) :
      other ∈ wanted ∨ other ∈ pending := by
    rcases hother with hmem | hmem
    · exact .inl hmem
    · rcases List.mem_cons.mp hmem with rfl | hmem
      · exact .inl hold
      · exact .inr hmem
  exact {
    marked := h.marked
    waiting := fun other hother => h.waiting other (List.mem_cons_of_mem _ hother)
    begun := fun other hother => hkept (h.begun other hother)
    closed := fun outer houter inner hinner => hkept (h.closed outer houter inner hinner) }

/-- A name may be marked when what its declaration mentions comes on the stack in its place. -/
private theorem mark {pending : List String} (h : Sound k roots ⟨name :: pending, wanted⟩) :
    Sound k roots ⟨(k.mentions name).reverse ++ pending, insert name wanted⟩ := by
  have hname : k.Reaches roots name := h.waiting name List.mem_cons_self
  have hkept {other : String} (hother : other ∈ wanted ∨ other ∈ name :: pending) :
      other ∈ insert name wanted ∨ other ∈ (k.mentions name).reverse ++ pending := by
    rcases hother with hmem | hmem
    · exact .inl (Finset.mem_insert_of_mem hmem)
    · rcases List.mem_cons.mp hmem with rfl | hmem
      · exact .inl (Finset.mem_insert_self _ _)
      · exact .inr (List.mem_append_right _ hmem)
  refine ⟨fun other hother => ?_, fun other hother => ?_, fun other hother => ?_,
    fun outer houter inner hinner => ?_⟩
  · rcases Finset.mem_insert.mp hother with rfl | hother
    · exact hname
    · exact h.marked other hother
  · rcases List.mem_append.mp hother with hmention | hother
    · exact hname.within (List.mem_reverse.mp hmention)
    · exact h.waiting other (List.mem_cons_of_mem _ hother)
  · exact hkept (h.begun other hother)
  · rcases Finset.mem_insert.mp houter with rfl | houter
    · exact .inr (List.mem_append_left _ (List.mem_reverse.mpr hinner))
    · exact hkept (h.closed outer houter inner hinner)

theorem step (h : s.Sound k roots) (hnext : s.step k = some next) : next.Sound k roots := by
  obtain ⟨pending, wanted⟩ := s
  cases pending with
  | nil => cases hnext
  | cons name pending =>
    rw [Search.step] at hnext
    split at hnext
    · next hold => cases hnext; exact h.drop hold
    · cases hnext; exact h.mark

/-- When nothing waits, the names that have been marked are those that are reached. -/
private theorem mem_wanted_iff (h : s.Sound k roots) (hempty : s.pending = []) :
    name ∈ s.wanted ↔ k.Reaches roots name := by
  have hmarked {other : String} (hother : other ∈ s.wanted ∨ other ∈ s.pending) :
      other ∈ s.wanted := by
    rw [hempty] at hother
    exact hother.resolve_right List.not_mem_nil
  refine ⟨h.marked name, fun hname => ?_⟩
  exact hname.induction (fun root hroot => hmarked (h.begun root hroot))
    fun outer houter inner hinner => hmarked (h.closed outer houter inner hinner)

/-- The search `s` ends after at most as many steps as there are names that wait or may come to
wait, and has marked what is reached. -/
theorem exists_run (h : s.Sound k roots) {limit : Nat} (hlimit : s.weight k ≤ limit) :
    ∃ wanted, s.run k limit = some wanted ∧ ∀ name, name ∈ wanted ↔ k.Reaches roots name := by
  -- By induction on the limit: each step makes the search lighter, so the weight stays below it.
  induction limit generalizing s with
  | zero =>
    have hlength : s.pending.length = 0 := by
      unfold weight at hlimit
      omega
    have hempty := List.eq_nil_of_length_eq_zero hlength
    exact ⟨s.wanted, if_pos hempty, fun name => h.mem_wanted_iff hempty⟩
  | succ limit ih =>
    cases hnext : s.step k with
    | none =>
      have hempty := step_eq_none_iff.mp hnext
      refine ⟨s.wanted, ?_, fun name => h.mem_wanted_iff hempty⟩
      rw [run, hnext]
    | some next =>
      have hless := weight_lt hnext
      obtain ⟨wanted, hrun, hwanted⟩ := ih (h.step hnext) (by omega)
      refine ⟨wanted, ?_, hwanted⟩
      rw [run, hnext]
      exact hrun

end Sound

end Search

/-! ### Reachable declarations -/

/-- That a declaration is mentioned by `roots`, or in the body of a declaration of which this
holds. -/
inductive IsReachable (k : ResolvedKind) (roots : List Shape) : Declaration → Prop
  | root {d} (declared : d ∈ k.declarations) (mentioned : d.name ∈ roots.flatMap Shape.names) :
    IsReachable k roots d
  | body {d e} (outer : IsReachable k roots e) (declared : d ∈ k.declarations)
      (mentioned : d.name ∈ e.body.names) : IsReachable k roots d

variable {k : ResolvedKind} {roots roots' : List Shape} {d : Declaration}

private theorem IsReachable.declared (h : k.IsReachable roots d) : d ∈ k.declarations := by
  cases h with
  | root declared _ => exact declared
  | body _ declared _ => exact declared

/-- If no name is declared twice, a declaration can be reached if its name is reached. -/
private theorem isReachable_iff (hnodup : (k.declarations.map (·.name)).Nodup) :
    k.IsReachable roots d ↔ d ∈ k.declarations ∧ k.Reaches roots d.name := by
  constructor
  · intro h
    refine ⟨h.declared, ?_⟩
    induction h with
    | root _ mentioned => exact .of_mem mentioned
    | body outer _ mentioned ih =>
      exact ih.within ((within_iff (declaration?_of_mem hnodup outer.declared)).mpr mentioned)
  · rintro ⟨hd, hname⟩
    have hall : ∀ e ∈ k.declarations, e.name = d.name → k.IsReachable roots e := by
      refine hname.induction (P := fun name => ∀ e ∈ k.declarations, e.name = name →
        k.IsReachable roots e) ?_ ?_
      · exact fun root hroot e he heq => .root he (heq ▸ hroot)
      · intro outer houter inner hinner e he heq
        obtain ⟨f, hf, hmention⟩ := mem_mentions.mp hinner
        obtain ⟨hdeclared, rfl⟩ := declaration?_eq_some hf
        exact .body (houter f hdeclared rfl) he (heq ▸ hmention)
    exact hall d hd rfl

/-- What is reachable does not depend on the order and the repetitions of the shapes. -/
private theorem reachable_congr (h : ∀ root, root ∈ roots ↔ root ∈ roots') :
    k.reachable roots = k.reachable roots' := by
  have hnames (name : String) :
      name ∈ roots.flatMap Shape.names ↔ name ∈ roots'.flatMap Shape.names := by
    simp only [List.mem_flatMap, h]
  refine List.filter_congr fun d hd => ?_
  rw [Bool.eq_iff_iff, List.contains_iff_mem, List.contains_iff_mem, mem_gather, mem_gather]
  have hreaches : k.Reaches roots d.name ↔ k.Reaches roots' d.name :=
    reaches_congr (fun _ _ => Iff.rfl) hnames
  exact ⟨fun h => gathered_of_reaches hd (hreaches.mp (reaches_of_gathered h)),
    fun h => gathered_of_reaches hd (hreaches.mpr (reaches_of_gathered h))⟩

/-- If no name is declared twice in `k`, a worklist ends after at most as many steps as there are
names in `roots` and in the declarations, and marks the names of the reachable declarations. These
are the declarations that `roots` mention, directly or in the bodies of reachable ones, each of them
once and in the order of the declarations. The order and the repetitions of the roots do not
matter. -/
theorem reachable_spec (hnodup : (k.declarations.map (·.name)).Nodup) (roots : List Shape) :
    (∃ wanted, (Search.start roots).run k ((Search.start roots).weight k) = some wanted ∧
      k.declarations.filter (·.name ∈ wanted) = k.reachable roots) ∧
      (∀ d, d ∈ k.reachable roots ↔ k.IsReachable roots d) ∧
      (k.reachable roots).Sublist k.declarations ∧
      ((k.reachable roots).map (·.name)).Nodup ∧
      ∀ roots', (∀ root, root ∈ roots ↔ root ∈ roots') →
        k.reachable roots = k.reachable roots' := by
  refine ⟨?_, fun d => mem_reachable.trans (isReachable_iff hnodup).symm, List.filter_sublist,
    nodup_reachable hnodup, fun roots' => reachable_congr⟩
  obtain ⟨wanted, hrun, hwanted⟩ := (Search.sound_start k roots).exists_run le_rfl
  refine ⟨wanted, hrun, List.filter_congr fun d hd => ?_⟩
  rw [Bool.eq_iff_iff, decide_eq_true_iff, hwanted, List.contains_iff_mem, mem_gather]
  exact ⟨gathered_of_reaches hd, reaches_of_gathered⟩

end KindSchema.ResolvedKind

/-! ### Declarations on a cycle -/

namespace KindSchema.Sample

open ResolvedKind

/-- Shapes that mention the definition of the kind that contains itself, one of them twice. -/
def loopingRoots : List Shape :=
  [.array (.named "Chain"), .scalar .string, .array (.named "Chain")]

/-- From the definition, the search comes to the struct that was lifted, and from there to the
definition once more. -/
theorem reachable_spec_looping : (loopingResolved.declarations.map (·.name)).Nodup ∧
    (∃ wanted, (Search.start loopingRoots).run loopingResolved
      ((Search.start loopingRoots).weight loopingResolved) = some wanted ∧
        loopingResolved.declarations.filter (·.name ∈ wanted) =
          loopingResolved.reachable loopingRoots) ∧
    ∀ d ∈ loopingResolved.declarations, d ∈ loopingResolved.reachable loopingRoots := by
  have hnodup : (loopingResolved.declarations.map (·.name)).Nodup := by decide
  obtain ⟨hsearch, hmem, -⟩ := reachable_spec hnodup loopingRoots
  have hchain : loopingResolved.IsReachable loopingRoots
      ⟨"Chain", [], .struct [{ name := "link", type := .named "SpecFirst" }], .defined⟩ :=
    .root (List.mem_cons_of_mem _ List.mem_cons_self) (by decide)
  refine ⟨hnodup, hsearch, List.forall_mem_cons.mpr ⟨?_, List.forall_mem_singleton.mpr ?_⟩⟩
  · exact (hmem _).mpr (.body hchain List.mem_cons_self (by decide))
  · exact (hmem _).mpr hchain

end KindSchema.Sample
