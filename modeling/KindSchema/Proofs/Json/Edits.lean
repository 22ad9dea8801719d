import KindSchema.Proofs.Json.Parts

/-!
# Editing JSON values

Small changes of a reading that a decoder of structs does not notice: `Reordered`, which moves the
members of any object in a value, and for an object that stands for a struct `MembersEdited`, which
may also add a member of a key that the struct does not know.

* `PartByPart.reordered`: whatever goes part by part is kept when members move.
* `RecordFormat.Follows.decode`: a struct is decoded alike before and after an edit, if the decoders
  of its parts are indifferent to edits of them, and if it does not matter which of two keys is put
  into the draft first.
-/

namespace KindSchema.Json

/-- The members of one object somewhere in a value change their places. -/
inductive Reordered : Reading → Reading → Prop
  | here {members members'} (h : members.Perm members') :
    Reordered (.object members none) (.object members' none)
  | item {before item item' after} (h : Reordered item item') :
    Reordered (.array (before ++ item :: after) none) (.array (before ++ item' :: after) none)
  | member {before key value value' after} (h : Reordered value value') :
    Reordered (.object (before ++ (key, value) :: after) none)
      (.object (before ++ (key, value') :: after) none)

/-- That `r` is a string, a truth value or a null. -/
def Reading.IsSimple (r : Reading) : Prop :=
  r = .null ∨ (∃ b, r = .bool b) ∨ ∃ s, r = .string ⟨.ok s, none⟩

/-! ### What an edit keeps part by part -/

section Replace

variable {α : Type} {P : α → Prop} {before after : List α} {a a' : α}

private theorem forall_mem_replace (h : P a → P a') (hall : ∀ x ∈ before ++ a :: after, P x) :
    ∀ x ∈ before ++ a' :: after, P x := by
  rw [List.forall_mem_append, List.forall_mem_cons] at hall ⊢
  exact ⟨hall.1, h hall.2.1, hall.2.2⟩

end Replace

namespace PartByPart

variable {K : Reading → Prop} {P : Nat → Reading → Prop} {n : Nat}
variable {before after : List Reading} {item item' : Reading}
variable {membersBefore membersAfter members members' : List (Reading × Reading)}
variable {key value value' : Reading}

/-- If `item'` in the place of `item` keeps a property, it keeps it for the array. -/
theorem replaceItem (h : PartByPart K P) (hitem : ∀ n, P n item → P n item')
    (hr : P n (.array (before ++ item :: after) none)) :
    P n (.array (before ++ item' :: after) none) :=
  h.array (fun n => forall_mem_replace (hitem n)) hr

/-- If `value'` in the place of `value` keeps a property, it keeps it for the object. -/
theorem replaceValue (h : PartByPart K P) (hvalue : ∀ n, P n value → P n value')
    (hr : P n (.object (membersBefore ++ (key, value) :: membersAfter) none)) :
    P n (.object (membersBefore ++ (key, value') :: membersAfter) none) := by
  have hmember (n : Nat) : K (key, value).1 ∧ P n (key, value).2 → K key ∧ P n value' :=
    And.imp_right (hvalue n)
  exact h.object (fun n => forall_mem_replace (hmember n)) hr

/-- The member with `key` and `value` joins an object. -/
theorem addMember (h : PartByPart K P) (hkey : K key) (hvalue : ∀ n, P n value)
    (hr : P n (.object members none)) : P n (.object ((key, value) :: members) none) :=
  h.object (fun n hall => List.forall_mem_cons.mpr ⟨⟨hkey, hvalue n⟩, hall⟩) hr

/-- What goes part by part is kept from `r` to `r'` when the members of an object change their
places. -/
theorem reordered (h : PartByPart K P) {r r' : Reading} (hedit : Reordered r r') :
    ∀ n, P n r → P n r' := by
  induction hedit with
  | here hperm =>
    exact fun n => h.object fun n hall member hmember => hall member (hperm.mem_iff.mpr hmember)
  | item _ ih => exact fun n => h.replaceItem ih
  | member _ ih => exact fun n => h.replaceValue ih

end PartByPart

private theorem Reordered.flaw? {r r' : Reading} (h : Reordered r r') (hr : r.flaw? = none) :
    r'.flaw? = none :=
  partByPart_flaw?.reordered h 0 hr

section Simple

variable {value : Reading}

private theorem Reading.IsSimple.flaw? (h : value.IsSimple) : value.flaw? = none := by
  rcases h with rfl | ⟨b, rfl⟩ | ⟨s, rfl⟩ <;> rfl

theorem Reading.IsSimple.check (h : value.IsSimple) (budget : Nat) :
    value.check budget = .ok () := by
  rcases h with rfl | ⟨b, rfl⟩ | ⟨s, rfl⟩ <;> rfl

/-- A simple value has a spelling. -/
theorem Reading.IsSimple.spelled (h : value.IsSimple) : value.Spelled := by
  rcases h with rfl | ⟨b, rfl⟩ | ⟨s, rfl⟩
  · exact ⟨['n', 'u', 'l', 'l'], .lexeme fun _ _ => rfl⟩
  · cases b with
    | false => exact ⟨['f', 'a', 'l', 's', 'e'], .lexeme fun _ _ => rfl⟩
    | true => exact ⟨['t', 'r', 'u', 'e'], .lexeme fun _ _ => rfl⟩
  · exact ⟨stringChars s, .lexeme (isLexeme_stringChars s)⟩

end Simple

/-! ### Decoders that are indifferent to edits -/

/-- That `decode` gives the same value after an edit, a pair of readings related by `edited`, if it
gives one before. -/
def Tolerates {α : Type} (edited : Reading → Reading → Prop) (decode : Reading → Decoded α) :
    Prop :=
  ∀ ⦃r r'⦄, edited r r' → ∀ ⦃a⦄, decode r = .ok a → decode r' = .ok a

theorem Tolerates.map {α β : Type} {edited : Reading → Reading → Prop}
    {decode : Reading → Decoded α} (h : Tolerates edited decode) (wrap : α → β) :
    Tolerates edited fun r => do return wrap (← decode r) := by
  intro r r' hedit b hb
  obtain ⟨a, ha, rfl⟩ := bind_return_eq_ok.mp hb
  exact bind_return_eq_ok.mpr ⟨a, h hedit ha, rfl⟩

private theorem decodeItems_replace {α : Type} {decode : Reading → Decoded α} {item item' : Reading}
    {after : List Reading} (h : ∀ ⦃a⦄, decode item = .ok a → decode item' = .ok a) :
    ∀ {before : List Reading} {l : List α},
      decodeItems decode (before ++ item :: after) = .ok l →
        decodeItems decode (before ++ item' :: after) = .ok l
  | [], l, hl => by
    obtain ⟨a, ha, hl⟩ := bind_eq_ok.mp hl
    exact bind_eq_ok.mpr ⟨a, h ha, hl⟩
  | first :: before, l, hl => by
    obtain ⟨a, ha, hl⟩ := bind_eq_ok.mp hl
    obtain ⟨rest, hrest, rfl⟩ := bind_return_eq_ok.mp hl
    exact bind_eq_ok.mpr ⟨a, ha, return_eq_ok (decodeItems_replace h hrest)⟩

/-- A list is decoded alike with `item` and with `item'`, which it is edited to. -/
theorem decodeList_replace {α : Type} {budget : Nat} {decode : Nat → Reading → Decoded α}
    {before after : List Reading} {item item' : Reading} {l : List α}
    (h : ∀ ⦃budget a⦄, decode budget item = .ok a → decode budget item' = .ok a)
    (hl : decodeList budget decode (.array (before ++ item :: after) none) = .ok l) :
    decodeList budget decode (.array (before ++ item' :: after) none) = .ok l := by
  cases budget with
  | zero => cases hl
  | succ budget =>
    obtain ⟨values, hvalues, hl⟩ := bind_eq_ok.mp hl
    exact bind_eq_ok.mpr ⟨values, decodeItems_replace (@h budget) hvalues, hl⟩

/-! ### Structs -/

section Edits

variable {ρ : Type} (edited : ρ → Reading → Reading → Prop) (layout : List (String × ρ))

/-- The members of an object that stands for a struct are edited. The layout gives the keys of the
struct, each with the sort of its value. -/
inductive MembersEdited : List (Reading × Reading) → List (Reading × Reading) → Prop
  | reorder {members members'} (h : members.Perm members') : MembersEdited members members'
  /-- A member of a key that the struct does not know joins in. -/
  | add {members key value} (hkey : key ∉ layout.map (·.1)) (hvalue : value.IsSimple) :
    MembersEdited members ((.string ⟨.ok key, none⟩, value) :: members)
  | known {before key name part value value' after} (hkey : key.key = .ok name)
      (hpart : (name, part) ∈ layout) (h : edited part value value') :
    MembersEdited (before ++ (key, value) :: after) (before ++ (key, value') :: after)
  /-- The value of a key that the struct does not know is edited. -/
  | unknown {before key value value' after}
      (hkey : ∀ name, key.key = .ok name → name ∉ layout.map (·.1)) (h : Reordered value value') :
    MembersEdited (before ++ (key, value) :: after) (before ++ (key, value') :: after)

/-- One of the values that stand for a struct in the order of its keys is edited. -/
inductive ItemsEdited : List Reading → List Reading → Prop
  | intro {before item item' after}
      (h : ∀ key part, layout[before.length]? = some (key, part) → edited part item item') :
    ItemsEdited (before ++ item :: after) (before ++ item' :: after)

/-- A value that stands for a struct is edited. -/
inductive StructEdited : Reading → Reading → Prop
  | members {members members'} (h : MembersEdited edited layout members members') :
    StructEdited (.object members none) (.object members' none)
  | items {items items'} (h : ItemsEdited edited layout items items') :
    StructEdited (.array items none) (.array items' none)

end Edits

namespace RecordFormat

variable {δ α ρ : Type} {format : RecordFormat δ α}

/-- That it does not matter which of two keys is put into a draft of `format` first. -/
def Commutes (format : RecordFormat δ α) : Prop :=
  ∀ ⦃key key'⦄, key ∈ format.keys → key' ∈ format.keys → key ≠ key' →
    ∀ ⦃draft next last value value'⦄, format.put draft key value = .ok next →
      format.put next key' value' = .ok last →
        ∃ other, format.put draft key' value' = .ok other ∧ format.put other key value = .ok last

section Members

variable {draft last : δ} {seen : List String} {key value : Reading}
variable {members members' : List (Reading × Reading)}

/-- The keys put so far may be listed in any order. -/
private theorem putMembers_of_seen {seen' : List String}
    (hseen : ∀ name, name ∈ seen' ↔ name ∈ seen)
    (h : format.putMembers draft seen members = .ok last) :
    format.putMembers draft seen' members = .ok last := by
  induction members generalizing draft seen seen' with
  | nil => exact h
  | cons member members ih =>
    obtain ⟨name, hname, h⟩ := putMembers_cons_eq_ok_iff.mp h
    refine putMembers_cons_eq_ok_iff.mpr ⟨name, hname, h.imp ?_ ?_⟩
    · rintro ⟨hknown, hnew, next, hput, h⟩
      have hcons : ∀ other, other ∈ name :: seen' ↔ other ∈ name :: seen := by
        intro other
        rw [List.mem_cons, List.mem_cons, hseen]
      exact ⟨hknown, fun hmem => hnew ((hseen name).mp hmem), next, hput, ih hcons h⟩
    · exact fun ⟨hunknown, hflaw, h⟩ => ⟨hunknown, hflaw, ih hseen h⟩

/-- Two neighbours may change their places. -/
private theorem putMembers_swap (hcomm : format.Commutes) {member member' : Reading × Reading}
    (h : format.putMembers draft seen (member :: member' :: members) = .ok last) :
    format.putMembers draft seen (member' :: member :: members) = .ok last := by
  obtain ⟨name, hname, h⟩ := putMembers_cons_eq_ok_iff.mp h
  rcases h with ⟨hknown, hnew, next, hput, h⟩ | ⟨hunknown, hflaw, h⟩
  -- Each of the two is put into the draft or skipped; only where both are put do they meet.
  all_goals obtain ⟨name', hname', h⟩ := putMembers_cons_eq_ok_iff.mp h
  all_goals rcases h with ⟨hknown', hnew', next', hput', h⟩ | ⟨hunknown', hflaw', h⟩
  · rw [List.mem_cons, not_or] at hnew'
    obtain ⟨other, hfirst, hsecond⟩ :=
      hcomm hknown hknown' (fun heq => hnew'.1 heq.symm) hput hput'
    have hswap : name ∉ name' :: seen := by
      rw [List.mem_cons, not_or]
      exact ⟨fun heq => hnew'.1 heq.symm, hnew⟩
    have hrest := putMembers_of_seen (fun x => (List.Perm.swap name' name seen).mem_iff) h
    refine putMembers_cons_eq_ok_iff.mpr ⟨name', hname', .inl ⟨hknown', hnew'.2, other, hfirst, ?_⟩⟩
    exact putMembers_cons_eq_ok_iff.mpr ⟨name, hname, .inl ⟨hknown, hswap, next', hsecond, hrest⟩⟩
  · refine putMembers_cons_eq_ok_iff.mpr ⟨name', hname', .inr ⟨hunknown', hflaw', ?_⟩⟩
    exact putMembers_cons_eq_ok_iff.mpr ⟨name, hname, .inl ⟨hknown, hnew, next, hput, h⟩⟩
  · refine putMembers_cons_eq_ok_iff.mpr ⟨name', hname', .inl ⟨hknown', hnew', next', hput', ?_⟩⟩
    exact putMembers_cons_eq_ok_iff.mpr ⟨name, hname, .inr ⟨hunknown, hflaw, h⟩⟩
  · refine putMembers_cons_eq_ok_iff.mpr ⟨name', hname', .inr ⟨hunknown', hflaw', ?_⟩⟩
    exact putMembers_cons_eq_ok_iff.mpr ⟨name, hname, .inr ⟨hunknown, hflaw, h⟩⟩

/-- The first members stay, and the others lead to the same draft. -/
private theorem putMembers_append (before : List (Reading × Reading))
    (hrest : ∀ ⦃draft seen⦄, format.putMembers draft seen members = .ok last →
      format.putMembers draft seen members' = .ok last)
    (h : format.putMembers draft seen (before ++ members) = .ok last) :
    format.putMembers draft seen (before ++ members') = .ok last := by
  induction before generalizing draft seen with
  | nil => exact hrest h
  | cons member before ih =>
    obtain ⟨name, hname, h⟩ := putMembers_cons_eq_ok_iff.mp h
    refine putMembers_cons_eq_ok_iff.mpr ⟨name, hname, h.imp ?_ ?_⟩
    · exact fun ⟨hknown, hnew, next, hput, h⟩ => ⟨hknown, hnew, next, hput, ih h⟩
    · exact fun ⟨hunknown, hflaw, h⟩ => ⟨hunknown, hflaw, ih h⟩

/-- The members of an object lead to the same draft in any order. -/
private theorem putMembers_perm (hcomm : format.Commutes) (hperm : members.Perm members') :
    ∀ {draft seen}, format.putMembers draft seen members = .ok last →
      format.putMembers draft seen members' = .ok last := by
  induction hperm with
  | nil => exact id
  | cons member _ ih => exact fun h => putMembers_append [member] (fun _ _ => ih) h
  | swap member member' members => exact putMembers_swap hcomm
  | trans _ _ ih ih' => exact fun h => ih' (ih h)

end Members

/-! ### Structs given as arrays -/

section Items

variable {items : List Reading} {a : α}

/-- An edit of one of the values, at its place among the keys, leads to the same draft. -/
private theorem putItems_replace {edited : ρ → Reading → Reading → Prop}
    {entries : List (String × ρ)} {before after : List Reading} {item item' : Reading}
    {draft last : δ}
    (hput : ∀ entry ∈ entries, ∀ draft, Tolerates (edited entry.2) (format.put draft entry.1))
    (hitem : ∀ key part, entries[before.length]? = some (key, part) → edited part item item')
    (h : format.putItems draft (entries.map (·.1)) (before ++ item :: after) = .ok (last, [])) :
    format.putItems draft (entries.map (·.1)) (before ++ item' :: after) = .ok (last, []) := by
  -- The place among the keys and the place among the values move on together.
  induction entries generalizing draft before with
  | nil => cases before <;> cases h
  | cons entry entries ih =>
    obtain ⟨hentry, hentries⟩ := List.forall_mem_cons.mp hput
    cases before with
    | nil =>
      obtain ⟨next, hnext, h⟩ := bind_eq_ok.mp h
      exact bind_eq_ok.mpr ⟨next, hentry draft (hitem _ _ rfl) hnext, h⟩
    | cons first before =>
      obtain ⟨next, hnext, h⟩ := bind_eq_ok.mp h
      exact bind_eq_ok.mpr ⟨next, hnext, ih hentries hitem h⟩

end Items

/-! ### Formats that follow a layout -/

/-- That `format` has the keys of `layout`, whose values may be put into a draft in any order, by
decoders that are indifferent to edits in `edited`. -/
structure Follows (edited : ρ → Reading → Reading → Prop) (format : RecordFormat δ α)
    (layout : List (String × ρ)) : Prop where
  keys : format.keys = layout.map (·.1)
  commutes : format.Commutes
  put : ∀ entry ∈ layout, ∀ draft, Tolerates (edited entry.2) (format.put draft entry.1)

namespace Follows

variable {edited : ρ → Reading → Reading → Prop} {layout : List (String × ρ)} {a : α}

/-- Edited members lead to the same draft. -/
private theorem putMembers (h : format.Follows edited layout)
    {members members' : List (Reading × Reading)}
    (hedit : MembersEdited edited layout members members') {draft last : δ} {seen : List String}
    (hput : format.putMembers draft seen members = .ok last) :
    format.putMembers draft seen members' = .ok last := by
  cases hedit with
  | reorder hperm => exact putMembers_perm h.commutes hperm hput
  | @add _ key _ hkey hvalue =>
    exact putMembers_cons_eq_ok_iff.mpr
      ⟨key, rfl, .inr ⟨fun hmem => hkey (h.keys ▸ hmem), hvalue.flaw?, hput⟩⟩
  | @known before _ name part _ _ _ hkey hpart hvalue =>
    -- The members before the edited one are read as before, whatever they put.
    refine putMembers_append before (fun draft seen hput => ?_) hput
    obtain ⟨name', hname', hput⟩ := putMembers_cons_eq_ok_iff.mp hput
    obtain rfl : name = name' := Except.ok.inj (hkey.symm.trans hname')
    refine putMembers_cons_eq_ok_iff.mpr ⟨name, hkey, hput.imp ?_ ?_⟩
    · exact fun ⟨hknown, hnew, next, hnext, hrest⟩ =>
        ⟨hknown, hnew, next, h.put _ hpart draft hvalue hnext, hrest⟩
    · rintro ⟨hunknown, -⟩
      exact absurd (h.keys ▸ List.mem_map_of_mem hpart) hunknown
  | @unknown before _ _ _ _ hkey hvalue =>
    refine putMembers_append before (fun draft seen hput => ?_) hput
    obtain ⟨name, hname, hput⟩ := putMembers_cons_eq_ok_iff.mp hput
    refine putMembers_cons_eq_ok_iff.mpr ⟨name, hname, hput.imp ?_ ?_⟩
    · rintro ⟨hknown, -⟩
      exact absurd (h.keys ▸ hknown) (hkey name hname)
    · exact fun ⟨hunknown, hflaw, hrest⟩ => ⟨hunknown, hvalue.flaw? hflaw, hrest⟩

/-- The members `members'` stand for the same struct as `members`, of which they are an edit. -/
theorem ofMembers (h : format.Follows edited layout) {members members' : List (Reading × Reading)}
    (hedit : MembersEdited edited layout members members')
    (ha : format.ofMembers members none = .ok a) : format.ofMembers members' none = .ok a := by
  obtain ⟨draft, hdraft, ha⟩ := bind_eq_ok.mp ha
  exact bind_eq_ok.mpr ⟨draft, h.putMembers hedit hdraft, ha⟩

/-- The items `items'` stand for the same struct as `items`, of which they are an edit. -/
theorem ofItems (h : format.Follows edited layout) {items items' : List Reading}
    (hedit : ItemsEdited edited layout items items') (ha : format.ofItems items = .ok a) :
    format.ofItems items' = .ok a := by
  obtain ⟨draft, hput, ha⟩ := ofItems_eq_ok_iff.mp ha
  refine ofItems_eq_ok_iff.mpr ⟨draft, ?_, ha⟩
  cases hedit with
  | intro hitem =>
    rw [h.keys] at hput ⊢
    exact putItems_replace h.put hitem hput

/-- A value stands for the same struct after an edit, if `format` follows `layout`. -/
theorem decode {format : Nat → RecordFormat δ α}
    (h : ∀ budget, (format budget).Follows edited layout) (inside : Bool) (budget : Nat) :
    Tolerates (StructEdited edited layout) (RecordFormat.decode inside budget format) := by
  intro r r' hedit a ha
  cases budget with
  | zero => cases hedit <;> cases ha
  | succ budget =>
    cases hedit with
    | members hmembers => exact (h budget).ofMembers hmembers ha
    | items hitems =>
      exact decode_array_eq_ok_iff.mpr ((h budget).ofItems hitems (decode_array_eq_ok_iff.mp ha))

end Follows

end RecordFormat

end KindSchema.Json
