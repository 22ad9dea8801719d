import KindSchema.Proofs.Resolution.Reservation

/-!
# The order of the declarations

`ResolvedKind.walk` reads the names that a resolved kind mentions from left to right. A name is
recorded where it is met for the first time, and then the body of its declaration is read before
what follows. `ResolvedKind.mentionOrder` is the walk through the three sections.

* `ResolvedKind.subset_walk`, `ResolvedKind.walk_closed`, `ResolvedKind.walk_sound`: a walk records
  the names it starts from and all that their declarations mention, and nothing else.
* `SectionsRun.walk_begun`: a walk through what a run yields records the declarations that the run
  made, in their order.
* `declarations_in_mention_order`: so the declarations of a resolved kind are in mention order.
-/

namespace KindSchema

/-! ### The walk -/

/-- Recording a name does not make more declarations unrecorded. -/
private theorem countP_unseen_le (declarations : List Declaration) (seen : List String)
    (name : String) :
    declarations.countP (·.name ∉ seen ++ [name]) ≤ declarations.countP (·.name ∉ seen) :=
  List.countP_mono_left fun d _ hd => by
    simp only [List.mem_append, decide_eq_true_eq] at hd ⊢
    exact fun hseen => hd (.inl hseen)

/-- Recording the name of a declaration leaves fewer of them unrecorded. -/
private theorem countP_unseen_lt {declarations : List Declaration} {seen : List String}
    {d : Declaration} (hd : d ∈ declarations) (hunseen : d.name ∉ seen) :
    declarations.countP (·.name ∉ seen ++ [d.name]) < declarations.countP (·.name ∉ seen) := by
  obtain ⟨before, after, rfl⟩ := List.append_of_mem hd
  have hbefore := countP_unseen_le before seen d.name
  have hafter := countP_unseen_le after seen d.name
  rw [List.countP_append, List.countP_append, List.countP_cons, List.countP_cons,
    if_neg (by simp), if_pos (decide_eq_true hunseen)]
  omega

namespace ResolvedKind

/-- The names in `seen`, followed by those that a walk through the names in `pending` records. -/
def walk (r : ResolvedKind) (seen pending : List String) : List String :=
  match pending with
  | [] => seen
  | name :: pending =>
    if name ∈ seen then r.walk seen pending
    else match _found : r.declaration? name with
      | none => r.walk (seen ++ [name]) pending
      | some d => r.walk (seen ++ [name]) (d.body.names ++ pending)
termination_by (r.declarations.countP (·.name ∉ seen), pending.length)
decreasing_by
  · exact .right _ (Nat.lt_succ_self _)
  · rcases Nat.lt_or_eq_of_le (countP_unseen_le r.declarations seen name) with hlt | heq
    · exact .left _ _ hlt
    · rw [heq]
      exact .right _ (Nat.lt_succ_self _)
  · obtain ⟨hd, rfl⟩ := declaration?_eq_some _found
    exact .left _ _ (countP_unseen_lt hd ‹_›)

/-- The names that the sections of `r` mention, directly or through declarations, in the order of
their first mentions. -/
def mentionOrder (r : ResolvedKind) : List String :=
  r.walk [] (Shape.fieldNames r.envelope)

variable {r : ResolvedKind} {seen pending : List String} {name : String}

@[simp] theorem walk_nil : r.walk seen [] = seen := by
  rw [walk]

/-- A name is passed over if it has been recorded. -/
private theorem walk_of_mem (h : name ∈ seen) :
    r.walk seen (name :: pending) = r.walk seen pending := by
  rw [walk, if_pos h]

/-- A declared name is recorded, and its body is next. -/
private theorem walk_of_declared {d : Declaration} (h : name ∉ seen)
    (hd : r.declaration? name = some d) :
    r.walk seen (name :: pending) = r.walk (seen ++ [name]) (d.body.names ++ pending) := by
  rw [walk, if_neg h]
  split
  · next hnone => rw [hd] at hnone; cases hnone
  · next e he => rw [hd] at he; cases he; rfl

/-- A walk keeps what has been recorded. -/
private theorem seen_subset_walk : seen ⊆ r.walk seen pending := by
  fun_induction walk r seen pending with
  | case1 seen => exact List.Subset.refl seen
  | case2 seen name pending hseen ih => exact ih
  | case3 seen name pending hseen hnone ih =>
    exact List.Subset.trans (List.subset_append_left seen [name]) ih
  | case4 seen name pending hseen d hd ih =>
    exact List.Subset.trans (List.subset_append_left seen [name]) ih

/-- A walk records the names it starts from. -/
theorem subset_walk : pending ⊆ r.walk seen pending := by
  fun_induction walk r seen pending with
  | case1 seen => exact List.nil_subset seen
  | case2 seen name pending hseen ih =>
    exact List.cons_subset.mpr ⟨seen_subset_walk hseen, ih⟩
  | case3 seen name pending hseen hnone ih =>
    exact List.cons_subset.mpr ⟨seen_subset_walk (by simp), ih⟩
  | case4 seen name pending hseen d hd ih =>
    refine List.cons_subset.mpr ⟨seen_subset_walk (by simp), ?_⟩
    exact List.Subset.trans (List.subset_append_right d.body.names pending) ih

/-- A walk that records `name` records what its declaration mentions. -/
theorem walk_closed (h : name ∈ r.walk seen pending) (hseen : name ∉ seen) :
    r.mentions name ⊆ r.walk seen pending := by
  fun_induction walk r seen pending with
  | case1 seen => exact absurd h hseen
  | case2 seen other pending hother ih => exact ih h hseen
  | case3 seen other pending hother hnone ih =>
    by_cases heq : name = other
    · simp [heq, mentions, hnone]
    · exact ih h (by simp [hseen, heq])
  | case4 seen other pending hother d hd ih =>
    by_cases heq : name = other
    · rw [heq, mentions, hd]
      exact List.Subset.trans (List.subset_append_left d.body.names pending) subset_walk
    · exact ih h (by simp [hseen, heq])

/-- A walk records `name` only if it starts from it or a recorded name mentions it. -/
theorem walk_sound (h : name ∈ r.walk seen pending) (hseen : name ∉ seen) :
    name ∈ pending ∨ ∃ other ∈ r.walk seen pending, name ∈ r.mentions other := by
  -- At its end, or the next name is recorded, is not declared, or has a body to walk through first.
  fun_induction walk r seen pending with
  | case1 seen => exact absurd h hseen
  | case2 seen other pending hother ih =>
    exact (ih h hseen).imp (List.mem_cons_of_mem _) id
  | case3 seen other pending hother hnone ih =>
    by_cases heq : name = other
    · exact .inl (heq ▸ List.mem_cons_self)
    · exact (ih h (by simp [hseen, heq])).imp (List.mem_cons_of_mem _) id
  | case4 seen other pending hother d hd ih =>
    by_cases heq : name = other
    · exact .inl (heq ▸ List.mem_cons_self)
    · rcases ih h (by simp [hseen, heq]) with hmem | hmention
      · rcases List.mem_append.mp hmem with hbody | hpending
        · refine .inr ⟨other, seen_subset_walk (by simp), ?_⟩
          rw [mentions, hd]
          exact hbody
        · exact .inl (List.mem_cons_of_mem _ hpending)
      · exact .inr hmention

end ResolvedKind

/-! ### Walks through runs -/

namespace Resolution

variable {c : Context} {r : ResolvedKind}

/-- A walk goes through the body of a declaration right after its name. -/
private theorem walk_begun_cons {α : Type} {step : Step α} {d : Declaration}
    {begun pending : List String} (hd : r.declaration? d.name = some d) (hnew : d.name ∉ begun)
    (hbody : r.walk (begun ++ [d.name]) (d.body.names ++ pending) =
      r.walk (begun ++ [d.name] ++ step.begun) pending) :
    r.walk begun (d.name :: pending) = r.walk (begun ++ d.name :: step.begun) pending := by
  rw [ResolvedKind.walk_of_declared hnew hd, hbody, List.append_assoc, List.singleton_append]

mutual

/-- A walk through what a type has been resolved to records the declarations made for it. -/
private theorem TypeRun.walk_begun {opened path docs place type names step} :
    TypeRun c opened path docs place type names step → step.Declared r →
      ∀ {begun}, names.Sound c opened begun → ∀ pending,
        r.walk begun (step.result.names ++ pending) = r.walk (begun ++ step.begun) pending
  | .scalar _, _, _, _, _ => by simp [Shape.names, Step.begun]
  | .enum _ _, _, _, _, _ => by simp [Shape.names, Step.begun]
  | .liftedEnum _ _ fresh, hr, _, h, pending => by
    have hfree := h.not_begun (fresh ▸ freshName_not_mem names.used _)
    exact ResolvedKind.walk_of_declared hfree hr.head
  | .array run, hr, _, h, pending => run.walk_begun hr h pending
  | .map run, hr, _, h, pending => run.walk_begun hr h pending
  | .knownStruct known, _, _, h, pending => by
    obtain ⟨before, after, hlifted, -⟩ := List.lookup_eq_some_iff.mp known
    rw [Step.begun, List.map_nil, List.append_nil]
    exact ResolvedKind.walk_of_mem
      (h.lifted _ (hlifted ▸ List.mem_append_right before List.mem_cons_self))
  | .struct _ _ run, hr, _, h, pending => run.walk_begun hr h pending
  | .liftedStruct unknown _ fresh run, hr, _, h, pending => by
    -- The name is recorded before its fields are walked through, as it is given before they are
    -- resolved.
    have hfree := fresh ▸ freshName_not_mem names.used _
    have hfields := run.walk_begun hr.tail
      (h.lift hfree unknown) pending
    exact walk_begun_cons hr.head (h.not_begun hfree) hfields
  | .knownReference known, _, _, h, pending => by
    have hvisited := (h.visited _).mp (List.mem_append_left _ known)
    rw [Step.begun, List.map_nil, List.append_nil]
    exact ResolvedKind.walk_of_mem hvisited.1
  | .reference unknown unopened found run, hr, _, h, pending => by
    have hd := Option.isSome_of_mem found
    have hnew := h.not_begun_of_definition hd unknown unopened
    have hbody := run.walk_begun hr.tail
      (h.opening hd unknown unopened) pending
    exact walk_begun_cons hr.head hnew hbody

private theorem FieldsRun.walk_begun {opened path fields names step} :
    FieldsRun c opened path fields names step → step.Declared r →
      ∀ {begun}, names.Sound c opened begun → ∀ pending,
        r.walk begun (Shape.fieldNames step.result ++ pending) =
          r.walk (begun ++ step.begun) pending
  | .nil, _, _, _, _ => by simp [Shape.fieldNames, Step.begun]
  | @FieldsRun.cons _ _ _ _ _ _ first rest head tail, hr, begun, h, pending => by
    have hhead := head.walk_begun hr.left h
      (Shape.fieldNames rest.result ++ pending)
    have htail := tail.walk_begun hr.right
      (head.sound h).names pending
    calc r.walk begun (first.result.names ++ Shape.fieldNames rest.result ++ pending)
        = r.walk (begun ++ first.begun) (Shape.fieldNames rest.result ++ pending) := by
          rw [List.append_assoc, hhead]
      _ = r.walk (begun ++ (first.begun ++ rest.begun)) pending := by
          rw [htail, List.append_assoc]
      _ = _ := by simp only [Step.begun, List.map_append]

private theorem BodyRun.walk_begun {opened d names step} :
    BodyRun c opened d names step → step.Declared r →
      ∀ {begun}, names.Sound c opened begun → ∀ pending,
        r.walk begun (step.result.names ++ pending) = r.walk (begun ++ step.begun) pending
  | .struct _ run, hr, _, h, pending => run.walk_begun hr h pending
  | .enum _, _, _, _, _ => by simp [Body.names, Step.begun]
  | .synonym _ _ run, hr, _, h, pending => run.walk_begun hr h pending

end

private theorem SectionRun.walk_begun {f names step begun} (run : SectionRun c f names step)
    (hr : step.Declared r) (h : names.Sound c [] begun) (pending : List String) :
    r.walk begun (step.result.type.names ++ pending) = r.walk (begun ++ step.begun) pending := by
  cases run with
  | struct _ run => exact run.walk_begun hr h pending
  | other _ run => exact run.walk_begun hr h pending

/-- A walk through sections records the declarations made for them. -/
theorem SectionsRun.walk_begun {sections names step begun}
    (run : SectionsRun c sections names step) (hr : step.Declared r) (h : names.Sound c [] begun) :
    r.walk begun (Shape.fieldNames step.result) = begun ++ step.begun := by
  induction run generalizing begun with
  | nil => simp [Shape.fieldNames, Step.begun]
  | @cons f sections names first rest head tail ih =>
    have hhead := head.walk_begun hr.left h
      (Shape.fieldNames rest.result)
    have htail := ih hr.right (head.sound h).names
    calc r.walk begun (first.result.type.names ++ Shape.fieldNames rest.result)
        = begun ++ first.begun ++ rest.begun := by rw [hhead, htail]
      _ = _ := by simp only [Step.begun, List.map_append, List.append_assoc]

end Resolution

/-! ### The declarations of a resolved kind -/

/-- That `name` is mentioned in a section or in the body of a declaration of `r`. -/
def ResolvedKind.IsMentioned (r : ResolvedKind) (name : String) : Prop :=
  name ∈ Shape.fieldNames r.envelope ∨ ∃ d ∈ r.declarations, name ∈ d.body.names

/-- The declarations of `r` are those that a walk through its sections records. -/
theorem Kind.resolve_mentionOrder {policy : Policy} {k : Kind} {r : ResolvedKind}
    (h : k.resolve policy = .ok r) : r.declarations.map (·.name) = r.mentionOrder := by
  obtain ⟨step, run, henvelope, hdeclarations, -, hdeclared⟩ := Kind.resolve_sound h
  rw [ResolvedKind.mentionOrder, henvelope, run.walk_begun hdeclared (.start _), hdeclarations]
  rfl

/-- The declarations of `r` are in mention order: a walk through the metadata, the spec and the
status that goes through the body of a declaration at its first mention records exactly their names.
So a name has a declaration if and only if it is mentioned somewhere, and then it has only one. -/
theorem declarations_in_mention_order {policy : Policy} {k : Kind} {r : ResolvedKind}
    (h : k.resolve policy = .ok r) :
    r.declarations.map (·.name) = r.mentionOrder ∧ (r.declarations.map (·.name)).Nodup ∧
      ∀ name, name ∈ r.declarations.map (·.name) ↔ r.IsMentioned name := by
  have horder := Kind.resolve_mentionOrder h
  obtain ⟨step, -, -, hdeclarations, hsound, hdeclared⟩ := Kind.resolve_sound h
  have hnodup : (r.declarations.map (·.name)).Nodup := hdeclarations ▸ hsound.names.nodup
  refine ⟨horder, hnodup, fun name => ⟨fun hname => ?_, fun hname => ?_⟩⟩
  · rw [horder] at hname
    rcases ResolvedKind.walk_sound hname List.not_mem_nil with hsection | ⟨other, -, hother⟩
    · exact .inl hsection
    · obtain ⟨d, hd, hbody⟩ := ResolvedKind.mem_mentions.mp hother
      exact .inr ⟨d, (ResolvedKind.declaration?_eq_some hd).1, hbody⟩
  · rw [horder]
    rcases hname with hsection | ⟨d, hd, hbody⟩
    · exact ResolvedKind.subset_walk hsection
    · have hmem : d.name ∈ r.mentionOrder := horder ▸ List.mem_map_of_mem hd
      refine ResolvedKind.walk_closed hmem List.not_mem_nil ?_
      exact ResolvedKind.mem_mentions.mpr
        ⟨d, hdeclared d (hdeclarations ▸ hd), hbody⟩

namespace Sample

theorem mentionOrder_shop : shop.resolve .nominal = .ok shopResolved ∧
    shopResolved.mentionOrder = ["SpecOffice", "SpecState", "Person", "StatusVisits"] :=
  ⟨resolve_shop, (declarations_in_mention_order resolve_shop).1.symm⟩

end Sample

end KindSchema
