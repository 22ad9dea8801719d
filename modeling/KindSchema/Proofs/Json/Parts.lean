import KindSchema.Proofs.Json.Records
import KindSchema.Proofs.Json.Spelled

/-!
# Readings part by part

What can be said of a reading by looking at its parts one at a time, in any order.

* `whole_of_flaw?` and `whole_of_check`: a value that is skipped or read in full without a flaw is
  whole.
* `PartByPart`: a property that an array or an object has by its parts. Being skipped, being read in
  full and having a spelling are three of them.
-/

namespace KindSchema.Json

/-! ### Flaws of the parts -/

private theorem flawOfItems?_eq_none_iff {items : List Reading} :
    flawOfItems? items = none ↔ ∀ item ∈ items, item.flaw? = none := by
  induction items with
  | nil => exact ⟨fun _ _ hitem => absurd hitem List.not_mem_nil, fun _ => rfl⟩
  | cons item items ih => rw [flawOfItems?, Option.or_eq_none_iff, ih, List.forall_mem_cons]

/-- That `key` is a string that nobody finds fault with who skips it. -/
def Reading.KeyFlawless (key : Reading) : Prop :=
  ∃ token, key = .string token ∧ token.flaw? = none

private theorem flawOfMembers?_cons_eq_none_iff {key value : Reading}
    {members : List (Reading × Reading)} :
    flawOfMembers? ((key, value) :: members) = none ↔
      (key.KeyFlawless ∧ value.flaw? = none) ∧ flawOfMembers? members = none := by
  cases key with
  | string token =>
    rw [flawOfMembers?, Option.or_eq_none_iff, Option.or_eq_none_iff]
    refine and_congr_left' (and_congr_left' ⟨fun h => ⟨token, rfl, h⟩, ?_⟩)
    rintro ⟨_, ⟨⟩, h⟩
    exact h
  | _ => exact ⟨nofun, fun h => nomatch h.1.1⟩

private theorem flawOfMembers?_eq_none_iff {members : List (Reading × Reading)} :
    flawOfMembers? members = none ↔
      ∀ member ∈ members, member.1.KeyFlawless ∧ member.2.flaw? = none := by
  induction members with
  | nil => exact ⟨fun _ _ hmember => absurd hmember List.not_mem_nil, fun _ => rfl⟩
  | cons member members ih =>
    rw [List.forall_mem_cons, ← ih]
    exact flawOfMembers?_cons_eq_none_iff

theorem checkItems_eq_ok_iff {budget : Nat} {items : List Reading} :
    checkItems budget items = .ok () ↔ ∀ item ∈ items, item.check budget = .ok () := by
  induction items with
  | nil => exact ⟨fun _ _ hitem => absurd hitem List.not_mem_nil, fun _ => rfl⟩
  | cons item items ih => rw [checkItems, check_then_eq_ok, ih, List.forall_mem_cons]

/-- That `key` is a string whose text can be wanted. -/
def Reading.KeyReadable (key : Reading) : Prop :=
  ∃ name, key.key = .ok name

private theorem checkMembers_eq_ok_iff {budget : Nat} {members : List (Reading × Reading)} :
    checkMembers budget members = .ok () ↔
      ∀ member ∈ members, member.1.KeyReadable ∧ member.2.check budget = .ok () := by
  induction members with
  | nil => exact ⟨fun _ _ hmember => absurd hmember List.not_mem_nil, fun _ => rfl⟩
  | cons member members ih =>
    rw [List.forall_mem_cons, ← ih, checkMembers, bind_eq_ok]
    simp only [check_then_eq_ok]
    exact ⟨fun ⟨name, hkey, hvalue, hmembers⟩ => ⟨⟨⟨name, hkey⟩, hvalue⟩, hmembers⟩,
      fun ⟨⟨⟨name, hkey⟩, hvalue⟩, hmembers⟩ => ⟨name, hkey, hvalue, hmembers⟩⟩

/-! ### Whole values -/

/-- That `key` is a string that does not break off. -/
def Reading.KeyWhole (key : Reading) : Prop :=
  ∃ token, key = .string token ∧ token.Whole

/-- If the text of `key` is wanted and found, `key` is whole. -/
theorem keyWhole_of_key {key : Reading} {name : String} (h : key.key = .ok name) :
    key.KeyWhole := by
  cases key with
  | string token => exact ⟨token, rfl, .inr ⟨name, h⟩⟩
  | _ => cases h

mutual

/-- A value without a flaw for those who skip it is whole. -/
theorem whole_of_flaw? : ∀ {r : Reading}, r.flaw? = none → r.Whole
  | .null, _ => trivial
  | .bool _, _ => trivial
  | .number _, _ => trivial
  | .string _, h => .inl h
  | .array _ _, h => by
    obtain ⟨hitems, hfinish⟩ := Option.or_eq_none_iff.mp h
    exact ⟨wholeItems_of_flaw? hitems, hfinish⟩
  | .object _ _, h => by
    obtain ⟨hmembers, hfinish⟩ := Option.or_eq_none_iff.mp h
    exact ⟨wholeMembers_of_flaw? hmembers, hfinish⟩

theorem wholeItems_of_flaw? : ∀ {items : List Reading}, flawOfItems? items = none →
    WholeItems items
  | [], _ => trivial
  | _ :: _, h => by
    obtain ⟨hitem, hitems⟩ := Option.or_eq_none_iff.mp h
    exact ⟨whole_of_flaw? hitem, wholeItems_of_flaw? hitems⟩

theorem wholeMembers_of_flaw? : ∀ {members : List (Reading × Reading)},
    flawOfMembers? members = none → WholeMembers members
  | [], _ => trivial
  | (_, _) :: _, h => by
    obtain ⟨⟨⟨token, hkey, hflaw⟩, hvalue⟩, hmembers⟩ := flawOfMembers?_cons_eq_none_iff.mp h
    exact ⟨⟨token, hkey, .inl hflaw⟩, whole_of_flaw? hvalue, wholeMembers_of_flaw? hmembers⟩

end

/-- A value read in full ends without a flaw behind its last part. -/
private theorem finish_eq_none {x : Except Flaw Unit} {finish : Option Flaw}
    (h : (do
      x
      if let some flaw := finish then .error flaw) = .ok ()) : x = .ok () ∧ finish = none := by
  obtain ⟨hx, h⟩ := check_then_eq_ok.mp h
  cases finish with
  | none => exact ⟨hx, rfl⟩
  | some flaw => cases h

mutual

/-- A value that can be read in full is whole. -/
theorem whole_of_check : ∀ {r : Reading} {budget : Nat}, r.check budget = .ok () → r.Whole
  | .null, _, _ => trivial
  | .bool _, _, _ => trivial
  | .number _, _, _ => trivial
  | .string ⟨.ok s, _⟩, _, _ => .inr ⟨s, rfl⟩
  | .array _ _, _ + 1, h =>
    have ⟨hitems, hfinish⟩ := finish_eq_none h
    ⟨wholeItems_of_check hitems, hfinish⟩
  | .object _ _, _ + 1, h =>
    have ⟨hmembers, hfinish⟩ := finish_eq_none h
    ⟨wholeMembers_of_check hmembers, hfinish⟩

theorem wholeItems_of_check : ∀ {items : List Reading} {budget : Nat},
    checkItems budget items = .ok () → WholeItems items
  | [], _, _ => trivial
  | _ :: _, _, h =>
    have ⟨hitem, hitems⟩ := check_then_eq_ok.mp h
    ⟨whole_of_check hitem, wholeItems_of_check hitems⟩

theorem wholeMembers_of_check : ∀ {members : List (Reading × Reading)} {budget : Nat},
    checkMembers budget members = .ok () → WholeMembers members
  | [], _, _ => trivial
  | (_, _) :: _, _, h =>
    have ⟨_, hkey, h⟩ := bind_eq_ok.mp h
    have ⟨hvalue, hmembers⟩ := check_then_eq_ok.mp h
    ⟨keyWhole_of_key hkey, whole_of_check hvalue, wholeMembers_of_check hmembers⟩

end

/-! ### Properties part by part -/

/-- A property that an array or an object without a flaw of its own has by its parts: whatever
change keeps it for all of the parts, `K` for keys and `P` for values, keeps it for the whole. The
property may depend on a budget, and the parts may have another one than the whole. -/
structure PartByPart (K : Reading → Prop) (P : Nat → Reading → Prop) : Prop where
  array : ∀ {items items' : List Reading},
    (∀ n, (∀ item ∈ items, P n item) → ∀ item ∈ items', P n item) →
      ∀ {n}, P n (.array items none) → P n (.array items' none)
  object : ∀ {members members' : List (Reading × Reading)},
    (∀ n, (∀ member ∈ members, K member.1 ∧ P n member.2) →
      ∀ member ∈ members', K member.1 ∧ P n member.2) →
      ∀ {n}, P n (.object members none) → P n (.object members' none)

/-- Being skipped goes part by part. -/
theorem partByPart_flaw? : PartByPart Reading.KeyFlawless fun _ r => r.flaw? = none where
  array := by
    intro items items' hkeep n h
    rw [Reading.flaw?, Option.or_none, flawOfItems?_eq_none_iff] at h ⊢
    exact hkeep n h
  object := by
    intro members members' hkeep n h
    rw [Reading.flaw?, Option.or_none, flawOfMembers?_eq_none_iff] at h ⊢
    exact hkeep n h

theorem check_array_eq_ok_iff {budget : Nat} {items : List Reading} :
    (Reading.array items none).check (budget + 1) = .ok () ↔
      ∀ item ∈ items, item.check budget = .ok () := by
  rw [← checkItems_eq_ok_iff]
  exact (check_then_eq_ok (y := .ok ())).trans (and_iff_left rfl)

private theorem check_object_eq_ok_iff {budget : Nat} {members : List (Reading × Reading)} :
    (Reading.object members none).check (budget + 1) = .ok () ↔
      ∀ member ∈ members, member.1.KeyReadable ∧ member.2.check budget = .ok () := by
  rw [← checkMembers_eq_ok_iff]
  exact (check_then_eq_ok (y := .ok ())).trans (and_iff_left rfl)

/-- Being read in full goes part by part. -/
theorem partByPart_check :
    PartByPart Reading.KeyReadable fun budget r => r.check budget = .ok () where
  -- The parts have one bracket less than the whole, and without brackets nothing is read.
  array := by
    intro items items' hkeep budget h
    cases budget with
    | zero => cases h
    | succ budget =>
      exact check_array_eq_ok_iff.mpr (hkeep budget (check_array_eq_ok_iff.mp h))
  object := by
    intro members members' hkeep budget h
    cases budget with
    | zero => cases h
    | succ budget =>
      exact check_object_eq_ok_iff.mpr (hkeep budget (check_object_eq_ok_iff.mp h))

/-! ### Spellings of the parts -/

/-- That `r` has a spelling. -/
def Reading.Spelled (r : Reading) : Prop :=
  ∃ cs, Spells r cs

/-- That `key` is a string that has a spelling. -/
def Reading.KeySpelled (key : Reading) : Prop :=
  ∃ token cs, key = .string token ∧ IsLexeme (.string token) cs

/-- Whether a reading is neither an array nor an object. -/
def Reading.isScalar : Reading → Bool
  | .array .. | .object .. => false
  | _ => true

private theorem isScalar_readWord {value : Reading} (h : value.isScalar = true)
    (word cs : List Char) :
    (readWord value word cs).1.isScalar = true := by
  induction word generalizing cs with
  | nil => exact h
  | cons w word ih =>
    cases cs with
    | nil => rfl
    | cons c cs =>
      rw [readWord]
      split
      · exact ih cs
      · rfl

private theorem isScalar_readExponent (numeral : Numeral) (cs : List Char) :
    (readExponent numeral cs).1.isScalar = true := by
  unfold readExponent
  dsimp only
  repeat' split
  all_goals rfl

private theorem isScalar_readFraction (numeral : Numeral) (cs : List Char) :
    (readFraction numeral cs).1.isScalar = true := by
  unfold readFraction
  split
  · dsimp only
    split
    · rfl
    · exact isScalar_readExponent _ _
  · exact isScalar_readExponent _ _

private theorem isScalar_readNumeral (negative : Bool) (cs : List Char) :
    (readNumeral negative cs).1.isScalar = true := by
  unfold readNumeral
  split
  · split
    · rfl
    · exact isScalar_readFraction _ _
  · dsimp only
    split
    · rfl
    · exact isScalar_readFraction _ _

private theorem isScalar_readStringBody (sofar : Sofar) (bound cs : List Char) :
    (readStringBody sofar bound cs).1.isScalar = true := by
  induction bound generalizing sofar cs with
  | nil => rfl
  | cons b bound ih =>
    rw [readStringBody]
    split
    · rfl
    · exact ih _ _
    · exact ih _ _
    · rfl

private theorem isScalar_readScalar (cs : List Char) : (readScalar cs).1.isScalar = true := by
  unfold readScalar
  split
  · rfl
  · exact isScalar_readWord rfl _ _
  · exact isScalar_readWord rfl _ _
  · exact isScalar_readWord rfl _ _
  · exact isScalar_readNumeral _ _
  · exact isScalar_readStringBody _ _ _
  · split
    · exact isScalar_readNumeral _ _
    · rfl

private theorem IsLexeme.isScalar {r : Reading} {cs : List Char} (h : IsLexeme r cs) :
    r.isScalar = true := by
  have hread := isScalar_readScalar (cs ++ [])
  rwa [h [] delimited_nil] at hread

/-- Each of the items that a text spells has a spelling. -/
private theorem SpellsItems.spelled {items : List Reading} {cs : List Char}
    (h : SpellsItems items cs) :
    ∀ item ∈ items, item.Spelled := by
  induction items generalizing cs with
  | nil => exact fun _ hitem => absurd hitem List.not_mem_nil
  | cons item items ih =>
    rw [List.forall_mem_cons]
    cases h with
    | last _ h => exact ⟨⟨_, h⟩, fun _ hitem => absurd hitem List.not_mem_nil⟩
    | more _ h _ hrest => exact ⟨⟨_, h⟩, ih hrest⟩

private theorem exists_spellsItems {item : Reading} {items : List Reading}
    (h : ∀ r ∈ item :: items, r.Spelled) : ∃ cs, SpellsItems (item :: items) cs := by
  induction items generalizing item with
  | nil =>
    obtain ⟨cs, hcs⟩ := h item List.mem_cons_self
    exact ⟨_, .last blank_nil hcs blank_nil⟩
  | cons next items ih =>
    obtain ⟨⟨cs, hcs⟩, hitems⟩ := List.forall_mem_cons.mp h
    obtain ⟨rest, hrest⟩ := ih hitems
    exact ⟨_, .more blank_nil hcs blank_nil hrest⟩

private theorem SpellsMember.spelled {member : Reading × Reading} {cs : List Char}
    (h : SpellsMember member cs) : member.1.KeySpelled ∧ member.2.Spelled := by
  cases h with
  | intro _ hkey _ _ h => exact ⟨⟨_, _, rfl, hkey⟩, _, h⟩

/-- Each of the members that a text spells has a spelling. -/
private theorem SpellsMembers.spelled {members : List (Reading × Reading)} {cs : List Char}
    (h : SpellsMembers members cs) :
    ∀ member ∈ members, member.1.KeySpelled ∧ member.2.Spelled := by
  induction members generalizing cs with
  | nil => exact fun _ hmember => absurd hmember List.not_mem_nil
  | cons member members ih =>
    rw [List.forall_mem_cons]
    cases h with
    | last h => exact ⟨h.spelled, fun _ hmember => absurd hmember List.not_mem_nil⟩
    | more h hrest => exact ⟨h.spelled, ih hrest⟩

private theorem exists_spellsMember {member : Reading × Reading}
    (h : member.1.KeySpelled ∧ member.2.Spelled) : ∃ cs, SpellsMember member cs := by
  obtain ⟨key, value⟩ := member
  obtain ⟨⟨token, lex, rfl, hlex⟩, cs, hcs⟩ := h
  exact ⟨_, .intro blank_nil hlex blank_nil blank_nil hcs blank_nil⟩

private theorem exists_spellsMembers {member : Reading × Reading}
    {members : List (Reading × Reading)}
    (h : ∀ m ∈ member :: members, m.1.KeySpelled ∧ m.2.Spelled) :
    ∃ cs, SpellsMembers (member :: members) cs := by
  induction members generalizing member with
  | nil =>
    obtain ⟨cs, hcs⟩ := exists_spellsMember (h member List.mem_cons_self)
    exact ⟨_, .last hcs⟩
  | cons next members ih =>
    obtain ⟨hmember, hmembers⟩ := List.forall_mem_cons.mp h
    obtain ⟨cs, hcs⟩ := exists_spellsMember hmember
    obtain ⟨rest, hrest⟩ := ih hmembers
    exact ⟨_, .more hcs hrest⟩

/-- Having a spelling goes part by part. -/
theorem partByPart_spelled : PartByPart Reading.KeySpelled fun _ r => r.Spelled where
  -- A text that spells the parts is put together anew, without any space.
  array := by
    rintro items items' hkeep n ⟨cs, hcs⟩
    have hitems : ∀ item ∈ items, item.Spelled := by
      cases hcs with
      | lexeme h => cases h.isScalar
      | emptyArray => exact fun _ hitem => absurd hitem List.not_mem_nil
      | array h => exact h.spelled
    have hitems' := hkeep n hitems
    cases items' with
    | nil => exact ⟨_, .emptyArray blank_nil⟩
    | cons item items' =>
      obtain ⟨cs', hcs'⟩ := exists_spellsItems hitems'
      exact ⟨_, .array hcs'⟩
  object := by
    rintro members members' hkeep n ⟨cs, hcs⟩
    have hmembers : ∀ member ∈ members, member.1.KeySpelled ∧ member.2.Spelled := by
      cases hcs with
      | lexeme h => cases h.isScalar
      | emptyObject => exact fun _ hmember => absurd hmember List.not_mem_nil
      | object h => exact h.spelled
    have hmembers' := hkeep n hmembers
    cases members' with
    | nil => exact ⟨_, .emptyObject blank_nil⟩
    | cons member members' =>
      obtain ⟨cs', hcs'⟩ := exists_spellsMembers hmembers'
      exact ⟨_, .object hcs'⟩

/-- Every text `s` has a spelling as a string. -/
theorem isLexeme_stringChars (s : String) : IsLexeme (.string ⟨.ok s, none⟩) (stringChars s) :=
  fun rest _ => readScalar_stringChars s rest

/-- A value `r` that has a spelling is the value of some text. -/
theorem Reading.Spelled.exists_isText {r : Reading} (h : r.Spelled) : ∃ text, IsText r text := by
  obtain ⟨cs, hcs⟩ := h
  exact ⟨String.ofList cs, [], cs, [], blank_nil, hcs, blank_nil, by simp⟩

/-- What is written of `j` is a spelling. -/
theorem isText_compact (j : Json) : IsText j.reading j.compact :=
  have hcheck := check_reading j j.depth (Nat.le_refl _)
  isText_of_ofText (Reading.ofText_compact j) (whole_of_check hcheck)

end KindSchema.Json
