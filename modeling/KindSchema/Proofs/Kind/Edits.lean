import KindSchema.Proofs.Kind.Roles

/-!
# Kinds are decoded alike after an edit

Every decoder of a part of a kind gives the same value before and after an edit of the reading it
decodes. Structs follow their layouts (`fieldFormat_follows` and so on). A type expression is read
in full first, with its `kind` taken out from among its members: `Tagged` says what is left, and
`readTagged_edited` that an edit of the whole is one of what is left.

* `tolerates_decodeLevels`: type expressions, by induction on the levels that may be nested.
* `tolerates_kind`: kinds.
-/

namespace KindSchema

open Json

/-! ### Plain values -/

section Plain

variable {α : Type} {role : Role}

/-- What moves members does not change a plain value that is decoded. -/
private theorem Json.Tolerates.plain {decode : Reading → Decoded α}
    (h : Tolerates Reordered decode) :
    Tolerates (Edited .plain) decode :=
  fun _ _ hedit => h (edited_plain hedit)

private theorem Json.Tolerates.reordered {decode : Reading → Decoded α}
    (h : Tolerates (Edited role) decode) : Tolerates Reordered decode :=
  fun _ _ hedit => h (.inl hedit)

private theorem tolerates_decodeString : Tolerates Reordered decodeString := by
  intro r r' hedit a ha
  cases hedit <;> exact absurd ha unexpected_ne_ok

private theorem tolerates_decodeBool : Tolerates Reordered decodeBool := by
  intro r r' hedit a ha
  cases hedit <;> exact absurd ha unexpected_ne_ok

private theorem tolerates_decodeOptionalString : Tolerates Reordered decodeOptionalString := by
  intro r r' hedit a ha
  cases hedit <;>
  · obtain ⟨s, hs, -⟩ := bind_return_eq_ok.mp ha
    exact absurd hs unexpected_ne_ok

/-- A list is decoded alike if its items are. -/
private theorem tolerates_decodeList {decode : Nat → Reading → Decoded α}
    (h : ∀ budget, Tolerates Reordered (decode budget)) (budget : Nat) :
    Tolerates Reordered (decodeList budget decode) := by
  intro r r' hedit l hl
  cases hedit with
  | here => exact absurd hl unexpected_ne_ok
  | item hitem => exact decodeList_replace (fun budget => h budget hitem) hl
  | member => exact absurd hl unexpected_ne_ok

/-- An object with one member keeps it if nothing can move in its value. -/
private theorem reordered_single {key value r : Reading} {finish : Option Flaw}
    (h : Reordered (.object [(key, value)] finish) r)
    (hvalue : ∀ {value'}, Reordered value value' → value' = value) :
    r = .object [(key, value)] finish := by
  generalize hmembers : [(key, value)] = members at h
  cases h with
  | here hperm =>
    subst hmembers
    rw [List.singleton_perm.mp hperm]
  | @member before key' value' value'' after h =>
    have hmem : (key', value') ∈ [(key, value)] := by
      rw [hmembers]
      exact List.mem_append_right _ List.mem_cons_self
    obtain ⟨rfl, rfl⟩ := Prod.mk.inj (List.mem_singleton.mp hmem)
    rw [hvalue h]

private theorem reordered_empty {r : Reading} {finish : Option Flaw}
    (h : Reordered (.object [] finish) r) : r = .object [] finish := by
  generalize hmembers : ([] : List (Reading × Reading)) = members at h
  cases h with
  | here hperm =>
    subst hmembers
    rw [List.nil_perm.mp hperm]
  | member => cases (List.append_eq_nil_iff.mp hmembers.symm).2

/-- An object that gives a word has one member, whose value is null. -/
theorem decodeChoice_object {budget : Nat} {choices : List (String × α)}
    {members : List (Reading × Reading)} {finish : Option Flaw} {a : α}
    (h : decodeChoice budget choices (.object members finish) = .ok a) :
    ∃ key, members = [(key, .null)] := by
  cases budget with
  | zero => cases h
  | succ budget =>
    cases members with
    | nil => cases h
    | cons member more =>
      -- A choice in an object is its key; a second member is refused.
      obtain ⟨key, value⟩ := member
      obtain ⟨a, ha, h⟩ := bind_eq_ok.mp h
      split at h
      · cases more with
        | nil => exact ⟨key, rfl⟩
        | cons => cases h
      · exact absurd h unexpected_ne_ok

private theorem tolerates_decodeChoice (choices : List (String × α)) (budget : Nat) :
    Tolerates Reordered (decodeChoice budget choices) := by
  intro r r' hedit a ha
  cases r with
  | object members finish =>
    obtain ⟨key, rfl⟩ := decodeChoice_object ha
    obtain rfl := reordered_single hedit nofun
    exact ha
  | array => cases ha
  | _ => cases hedit

/-- An object inside a type expression that gives a word has one member, whose value is null or an
empty object. -/
private theorem decodeChoiceInside_object {choices : List (String × α)}
    {members : List (Reading × Reading)} {finish : Option Flaw} {a : α}
    (h : decodeChoiceInside choices (.object members finish) = .ok a) :
    ∃ key value, members = [(key, value)] ∧
      (value = .null ∨ ∃ finish, value = .object [] finish) := by
  unfold decodeChoiceInside at h
  split at h
  · next heq => cases heq
  · next key value _ heq =>
    cases heq
    obtain ⟨word, -, h⟩ := bind_eq_ok.mp h
    obtain ⟨b, -, h⟩ := bind_eq_ok.mp h
    split at h
    · exact ⟨key, _, rfl, .inl rfl⟩
    · exact ⟨key, _, rfl, .inr ⟨_, rfl⟩⟩
    · exact absurd h unexpected_ne_ok
  · cases h
  · exact absurd h unexpected_ne_ok

private theorem tolerates_decodeChoiceInside (choices : List (String × α)) :
    Tolerates Reordered (decodeChoiceInside choices) := by
  intro r r' hedit a ha
  cases r with
  | object members finish =>
    obtain ⟨key, value, rfl, rfl | ⟨finish', rfl⟩⟩ := decodeChoiceInside_object ha
    · obtain rfl := reordered_single hedit nofun
      exact ha
    · obtain rfl := reordered_single hedit reordered_empty
      exact ha
  | array => exact absurd ha unexpected_ne_ok
  | _ => cases hedit

end Plain

/-! ### Structs -/

section Structs

variable {decodeType : Nat → Reading → Decoded TypeExpr} {inside : Bool} {budget : Nat}

/-- A decoder of lists is indifferent to edits of a list if that of the items is to edits of
them. -/
private theorem tolerates_list {α : Type} {role : Role} {decode : Nat → Reading → Decoded α}
    (h : ∀ budget, Tolerates (Edited role) (decode budget)) (budget : Nat) :
    Tolerates (Edited (.list role)) (decodeList budget decode) := by
  rintro r r' (hedit | hedit) l hl
  · exact tolerates_decodeList (fun budget => (h budget).reordered) budget hedit hl
  · cases hedit with
    | here hlayout => cases hlayout
    | member hlayout => cases hlayout
    | entry hlayout => cases hlayout
    | item hitem => exact decodeList_replace (fun budget => h budget (.inr hitem)) hl

private theorem tolerates_decodeStrings (budget : Nat) :
    Tolerates (Edited .plain) (decodeStrings budget) :=
  (tolerates_decodeList (fun _ => tolerates_decodeString) budget).plain

theorem fieldFormat_follows (h : ∀ budget, Tolerates (Edited .type) (decodeType budget)) :
    (fieldFormat decodeType budget).Follows Edited fieldLayout where
  keys := rfl
  -- Puts under different keys write to different parts of the draft, so they can be exchanged.
  commutes := by
    intro key key' hkey hkey' hne draft next last value value' hput hput'
    simp only [fieldFormat, List.mem_cons, List.not_mem_nil, or_false] at hkey hkey'
    rcases hkey with rfl | rfl | rfl | rfl <;> rcases hkey' with rfl | rfl | rfl | rfl
    all_goals simp only [ne_eq, not_true_eq_false] at hne
    all_goals
      obtain ⟨a, ha, rfl⟩ := bind_return_eq_ok.mp hput
      obtain ⟨b, hb, rfl⟩ := bind_return_eq_ok.mp hput'
      exact ⟨_, return_eq_ok hb, return_eq_ok ha⟩
  put := by
    simp only [fieldLayout, List.forall_mem_cons]
    exact ⟨fun draft => tolerates_decodeString.plain.map _, fun draft => (h budget).map _,
      fun draft => tolerates_decodeBool.plain.map _,
      fun draft => (tolerates_decodeStrings budget).map _, List.forall_mem_nil _⟩

/-- A struct of a layout is decoded alike before and after an edit. -/
private theorem tolerates_struct {δ α : Type} {format : Nat → RecordFormat δ α} (role : Role)
    {layout : Layout} (h : ∀ budget, (format budget).Follows Edited layout)
    (hlayout : ∀ {r other}, role.LaidOut r other → other = layout)
    (hlist : ∀ item, role ≠ .list item) (inside : Bool) (budget : Nat) :
    Tolerates (Edited role) (RecordFormat.decode inside budget format) := by
  intro r r' hedit
  refine RecordFormat.Follows.decode h inside budget ?_
  rcases hedit with hedit | hedit
  · exact structEdited_of_reordered hedit
  · exact structEdited_of_extended hlayout hlist hedit

private theorem tolerates_field (h : ∀ budget, Tolerates (Edited .type) (decodeType budget))
    (inside : Bool) (budget : Nat) :
    Tolerates (Edited .field) (RecordFormat.decode inside budget (fieldFormat decodeType)) :=
  tolerates_struct .field (fun _ => fieldFormat_follows h) (fun h => by cases h; rfl) nofun inside
    budget

private theorem structFormat_follows (h : ∀ budget, Tolerates (Edited .type) (decodeType budget)) :
    (structFormat inside decodeType budget).Follows Edited structLayout where
  keys := rfl
  commutes := by
    intro key key' hkey hkey' hne draft next last value value' hput hput'
    simp only [structFormat, List.mem_cons, List.not_mem_nil, or_false] at hkey hkey'
    rcases hkey with rfl | rfl | rfl <;> rcases hkey' with rfl | rfl | rfl
    all_goals simp only [ne_eq, not_true_eq_false] at hne
    all_goals
      obtain ⟨a, ha, rfl⟩ := bind_return_eq_ok.mp hput
      obtain ⟨b, hb, rfl⟩ := bind_return_eq_ok.mp hput'
      exact ⟨_, return_eq_ok hb, return_eq_ok ha⟩
  put := by
    simp only [structLayout, List.forall_mem_cons]
    exact ⟨fun draft => tolerates_decodeOptionalString.plain.map _,
      fun draft => (tolerates_decodeStrings budget).map _,
      fun draft => (tolerates_list (tolerates_field h inside) budget).map _, List.forall_mem_nil _⟩

end Structs

/-! ### Type expressions -/

private theorem singleFormat_follows {α : Type} {title key : String} {decode : Reading → Decoded α}
    {role : Role} (h : Tolerates (Edited role) decode) :
    (singleFormat title key decode).Follows Edited [(key, role)] where
  keys := rfl
  commutes := by
    intro first second hfirst hsecond hne
    rw [List.mem_singleton.mp hfirst, List.mem_singleton.mp hsecond] at hne
    exact absurd rfl hne
  put := List.forall_mem_singleton.mpr fun _ => h.map _

/-- What a type expression holds besides its tag is edited, in a value with the keys of `layout`. -/
inductive PayloadEdited (layout : Layout) : Payload → Payload → Prop
  | items {items items'} (h : ItemsEdited Edited layout items items') :
    PayloadEdited layout (.items items) (.items items')
  | members {members members'} (h : MembersEdited Edited layout members members') :
    PayloadEdited layout (.members members) (.members members')

/-- A payload stands for the same struct after an edit. -/
private theorem Json.RecordFormat.Follows.payload {δ α : Type} {format : RecordFormat δ α}
    {layout : Layout} (h : format.Follows Edited layout) {payload payload' : Payload}
    (hedit : PayloadEdited layout payload payload') {a : α}
    (ha : payload.decode format = .ok a) : payload'.decode format = .ok a := by
  cases hedit with
  | items hitems => exact h.ofItems hitems ha
  | members hmembers => exact h.ofMembers hmembers ha

section Types

variable {decodeType : Nat → Reading → Decoded TypeExpr} {inside : Bool} {budget : Nat}

/-- A payload stands for the same type expression after an edit. -/
private theorem decodePayload_edited (h : ∀ budget, Tolerates (Edited .type) (decodeType budget))
    {form : TypeForm} {payload payload' : Payload}
    (hedit : PayloadEdited form.payloadLayout payload payload') {t : TypeExpr}
    (ht : form.decodePayload decodeType budget payload = .ok t) :
    form.decodePayload decodeType budget payload' = .ok t := by
  cases form with
  | scalar =>
    obtain ⟨s, hs, rfl⟩ := bind_return_eq_ok.mp ht
    have hword := (tolerates_decodeChoiceInside Scalar.words).plain
    exact return_eq_ok ((singleFormat_follows hword).payload hedit hs)
  | enum =>
    obtain ⟨values, hvalues, rfl⟩ := bind_return_eq_ok.mp ht
    have hstrings := tolerates_decodeStrings budget
    exact return_eq_ok ((singleFormat_follows hstrings).payload hedit hvalues)
  | array =>
    obtain ⟨items, hitems, rfl⟩ := bind_return_eq_ok.mp ht
    exact return_eq_ok ((singleFormat_follows (h budget)).payload hedit hitems)
  | map =>
    obtain ⟨values, hvalues, rfl⟩ := bind_return_eq_ok.mp ht
    exact return_eq_ok ((singleFormat_follows (h budget)).payload hedit hvalues)
  | struct =>
    obtain ⟨s, hs, rfl⟩ := bind_return_eq_ok.mp ht
    exact return_eq_ok ((structFormat_follows h).payload hedit hs)
  | reference =>
    obtain ⟨name, hname, rfl⟩ := bind_return_eq_ok.mp ht
    have hstring := tolerates_decodeString.plain
    exact return_eq_ok ((singleFormat_follows hstring).payload hedit hname)

/-! #### Tagged objects -/

/-- That `member` is not the tag, and that it can be read in full within `budget`. -/
def Untagged (budget : Nat) (member : Reading × Reading) : Prop :=
  ∃ name, member.1.key = .ok name ∧ name ≠ "kind" ∧ member.2.check budget = .ok ()

/-- That the members of an object are a tag, which gives `form`, and some others. -/
inductive Tagged (inside : Bool) (budget : Nat) (form : TypeForm) :
    List (Reading × Reading) → List (Reading × Reading) → Prop
  | intro (before) {key tag after} (hkey : key.key = .ok "kind")
      (hform : TypeForm.decode inside tag = .ok form)
      (hothers : ∀ member ∈ before ++ after, Untagged budget member) :
    Tagged inside budget form (before ++ (key, tag) :: after) (before ++ after)

/-- How the first member of a tagged object is read, which has `key` and `value`. -/
theorem readTagged_cons_eq_ok_iff {form? : Option TypeForm} {key value : Reading}
    {members : List (Reading × Reading)} {result : Option TypeForm × List (Reading × Reading)} :
    readTagged inside budget form? ((key, value) :: members) = .ok result ↔
      (key.key = .ok "kind" ∧ form? = none ∧ ∃ form, TypeForm.decode inside value = .ok form ∧
          readTagged inside budget (some form) members = .ok result) ∨
        (Untagged budget (key, value) ∧ ∃ others,
          readTagged inside budget form? members = .ok (result.1, others) ∧
            result.2 = (key, value) :: others) := by
  rw [readTagged, bind_eq_ok]
  constructor
  · rintro ⟨name, hname, h⟩
    rw [ofFlaw_eq_ok_iff] at hname
    split at h
    · next htag =>
      split at h
      · cases h
      · next hnone =>
        obtain ⟨form, hform, h⟩ := bind_eq_ok.mp h
        exact .inl ⟨htag ▸ hname, Option.not_isSome_iff_eq_none.mp hnone, form, hform, h⟩
    · next hother =>
      obtain ⟨_, hcheck, h⟩ := bind_eq_ok.mp h
      obtain ⟨⟨form, others⟩, hrest, h⟩ := bind_eq_ok.mp h
      cases h
      exact .inr ⟨⟨name, hname, hother, ofFlaw_eq_ok_iff.mp hcheck⟩, others, hrest, rfl⟩
  · rintro (⟨hkey, rfl, form, hform, h⟩ | ⟨⟨name, hname, hother, hcheck⟩, others, hrest, hothers⟩)
    · refine ⟨"kind", ofFlaw_eq_ok_iff.mpr hkey, ?_⟩
      rw [if_pos rfl]
      exact bind_eq_ok.mpr ⟨form, hform, h⟩
    · refine ⟨name, ofFlaw_eq_ok_iff.mpr hname, ?_⟩
      rw [if_neg hother]
      refine bind_eq_ok.mpr ⟨(), ofFlaw_eq_ok_iff.mpr hcheck, ?_⟩
      exact bind_eq_ok.mpr ⟨_, hrest, congrArg Except.ok (Prod.ext rfl hothers.symm)⟩

/-- Behind the tag, all members are others. -/
private theorem readTagged_some_eq_ok_iff {form form' : TypeForm}
    {members others : List (Reading × Reading)} :
    readTagged inside budget (some form) members = .ok (some form', others) ↔
      form' = form ∧ others = members ∧ ∀ member ∈ members, Untagged budget member := by
  induction members generalizing others with
  | nil =>
    constructor
    · rintro ⟨⟩
      exact ⟨rfl, rfl, fun _ hmember => absurd hmember List.not_mem_nil⟩
    · rintro ⟨rfl, rfl, -⟩
      rfl
  | cons member members ih =>
    obtain ⟨key, value⟩ := member
    -- Once a form is known a tag is refused, so all members that follow are kept.
    rw [readTagged_cons_eq_ok_iff, List.forall_mem_cons]
    constructor
    · rintro (⟨-, hnone, -⟩ | ⟨hother, others, hrest, hothers⟩)
      · cases hnone
      · obtain ⟨rfl, rfl, hall⟩ := ih.mp hrest
        exact ⟨rfl, hothers, hother, hall⟩
    · rintro ⟨rfl, rfl, hother, hall⟩
      exact .inr ⟨hother, members, ih.mpr ⟨rfl, rfl, hall⟩, rfl⟩

/-- The members of a tagged object are read if they are a tag and some others. -/
private theorem readTagged_eq_ok_iff {form : TypeForm} {members others : List (Reading × Reading)} :
    readTagged inside budget none members = .ok (some form, others) ↔
      Tagged inside budget form members others := by
  constructor
  · intro h
    induction members generalizing others with
    | nil => cases h
    | cons member members ih =>
      obtain ⟨key, value⟩ := member
      -- The induction stops at the tag; from there on nothing is tagged.
      rcases readTagged_cons_eq_ok_iff.mp h with ⟨hkey, -, form, hform, h⟩ | ⟨hother, rest, h, heq⟩
      · obtain ⟨rfl, rfl, hall⟩ := readTagged_some_eq_ok_iff.mp h
        exact .intro [] hkey hform hall
      · obtain rfl := heq
        cases ih h with
        | @intro before key' tag after hkey hform hall =>
          exact .intro ((key, value) :: before) hkey hform
            (List.forall_mem_cons.mpr ⟨hother, hall⟩)
  · rintro (@⟨before, key, tag, after, hkey, hform, hall⟩)
    induction before with
    | nil =>
      exact readTagged_cons_eq_ok_iff.mpr (.inl ⟨hkey, rfl, form, hform,
        readTagged_some_eq_ok_iff.mpr ⟨rfl, rfl, hall⟩⟩)
    | cons member before ih =>
      obtain ⟨hother, hall⟩ := List.forall_mem_cons.mp hall
      exact readTagged_cons_eq_ok_iff.mpr (.inr ⟨hother, _, ih hall, rfl⟩)

/-- The value of a tag has no parts. -/
private theorem isScalar_of_decode {tag : Reading} {form : TypeForm}
    (h : TypeForm.decode inside tag = .ok form) : tag.isScalar = true := by
  cases tag with
  | array => cases inside <;> exact absurd h unexpected_ne_ok
  | object => cases inside <;> exact absurd h unexpected_ne_ok
  | _ => rfl

/-- Inside another type expression a tag gives the same form. -/
private theorem decode_true_of_decode {tag : Reading} {form : TypeForm}
    (h : TypeForm.decode inside tag = .ok form) : TypeForm.decode true tag = .ok form := by
  cases inside with
  | true => exact h
  | false =>
    cases tag with
    | number => exact absurd h unexpected_ne_ok
    | _ => exact h

namespace Tagged

variable {form : TypeForm} {members members' others : List (Reading × Reading)}

/-- Only one member of a tagged object is the tag. -/
private theorem form_eq (h : Tagged inside budget form members others) {key tag : Reading}
    {form' : TypeForm} (hmem : (key, tag) ∈ members) (hkey : key.key = .ok "kind")
    (hform : TypeForm.decode true tag = .ok form') : form' = form := by
  cases h with
  | @intro before key' tag' after _ hform' hothers =>
    rcases List.mem_cons.mp (List.perm_middle.mem_iff.mp hmem) with heq | hmem
    · obtain ⟨-, rfl⟩ := Prod.mk.inj heq
      exact Except.ok.inj (hform.symm.trans (decode_true_of_decode hform'))
    · obtain ⟨name, hname, hne, -⟩ := hothers _ hmem
      exact absurd (Except.ok.inj (hname.symm.trans hkey)) hne

/-- The members of a tagged object may stand in any order. -/
private theorem perm (h : Tagged inside budget form members others)
    (hperm : members.Perm members') :
    ∃ others', Tagged inside budget form members' others' ∧ others.Perm others' := by
  cases h with
  | @intro before key tag after hkey hform hothers =>
    have hmem : (key, tag) ∈ members' :=
      hperm.mem_iff.mp (List.mem_append_right _ List.mem_cons_self)
    obtain ⟨before', after', rfl⟩ := List.append_of_mem hmem
    have hrest : (before ++ after).Perm (before' ++ after') :=
      ((List.perm_middle.symm.trans hperm).trans List.perm_middle).cons_inv
    refine ⟨_, .intro before' hkey hform fun member hmember => ?_, hrest⟩
    exact hothers member (hrest.mem_iff.mpr hmember)

/-- A member besides the tag may join. -/
private theorem cons (h : Tagged inside budget form members others) {member : Reading × Reading}
    (hmember : Untagged budget member) :
    Tagged inside budget form (member :: members) (member :: others) := by
  cases h with
  | intro before hkey hform hothers =>
    exact .intro (member :: before) hkey hform (List.forall_mem_cons.mpr ⟨hmember, hothers⟩)

end Tagged

/-- A value with parts is not the tag, and may be replaced where it stands.

The induction is on the members before it: the tag may be among them or behind it. -/
private theorem readTagged_replace {key value value' : Reading} {after : List (Reading × Reading)}
    (hscalar : value.isScalar = false)
    (hcheck : value.check budget = .ok () → value'.check budget = .ok ()) :
    ∀ {before : List (Reading × Reading)} {form? : Option TypeForm}
      {result : Option TypeForm × List (Reading × Reading)},
      readTagged inside budget form? (before ++ (key, value) :: after) = .ok result →
        Untagged budget (key, value) ∧ ∃ othersBefore othersAfter,
          result.2 = othersBefore ++ (key, value) :: othersAfter ∧
            readTagged inside budget form? (before ++ (key, value') :: after) =
              .ok (result.1, othersBefore ++ (key, value') :: othersAfter)
  | [], form?, result, h => by
    rcases readTagged_cons_eq_ok_iff.mp h with ⟨-, -, form, hform, -⟩ | ⟨hother, others, h, heq⟩
    · rw [isScalar_of_decode hform] at hscalar
      cases hscalar
    · obtain ⟨name, hname, hne, hvalue⟩ := hother
      refine ⟨⟨name, hname, hne, hvalue⟩, [], others, heq, ?_⟩
      exact readTagged_cons_eq_ok_iff.mpr
        (.inr ⟨⟨name, hname, hne, hcheck hvalue⟩, others, h, rfl⟩)
  | (firstKey, first) :: before, form?, result, h => by
    rcases readTagged_cons_eq_ok_iff.mp h with
      ⟨hkey, hnone, form, hform, h⟩ | ⟨hfirst, others, h, heq⟩
    · obtain ⟨hother, othersBefore, othersAfter, heq, h'⟩ := readTagged_replace hscalar hcheck h
      refine ⟨hother, othersBefore, othersAfter, heq, ?_⟩
      exact readTagged_cons_eq_ok_iff.mpr (.inl ⟨hkey, hnone, form, hform, h'⟩)
    · obtain ⟨hother, othersBefore, othersAfter, hothers, h'⟩ :=
        readTagged_replace hscalar hcheck h
      refine ⟨hother, (firstKey, first) :: othersBefore, othersAfter,
        heq.trans (congrArg _ hothers), ?_⟩
      exact readTagged_cons_eq_ok_iff.mpr (.inr ⟨hfirst, _, h', rfl⟩)

/-- The members in `others`, those of a type expression besides the tag, are edited as those of a
struct. -/
theorem readTagged_edited {form : TypeForm} {members members' others : List (Reading × Reading)}
    (h : readTagged inside budget none members = .ok (some form, others))
    (hedit : MembersEdited Edited form.layout members members') :
    ∃ others', readTagged inside budget none members' = .ok (some form, others') ∧
      MembersEdited Edited form.payloadLayout others others' := by
  cases hedit with
  | reorder hperm =>
    obtain ⟨others', htagged, hothers⟩ := (readTagged_eq_ok_iff.mp h).perm hperm
    exact ⟨others', readTagged_eq_ok_iff.mpr htagged, .reorder hothers⟩
  | @add _ key value hkey hvalue =>
    obtain ⟨hne, hkey⟩ := not_or.mp fun hmem => hkey (List.mem_cons.mpr hmem)
    have hother : Untagged budget (.string ⟨.ok key, none⟩, value) :=
      ⟨key, rfl, hne, hvalue.check budget⟩
    exact ⟨_, readTagged_eq_ok_iff.mpr ((readTagged_eq_ok_iff.mp h).cons hother),
      .add hkey hvalue⟩
  | @known _ key name part value value' _ hkey hpart hvalue =>
    -- The value that is edited is no scalar, so it is not the tag but in the payload.
    obtain ⟨⟨other, hother, hne, -⟩, before, after, heq, h'⟩ :=
      readTagged_replace hvalue.isScalar (hvalue.check budget) h
    obtain rfl : name = other := Except.ok.inj (hkey.symm.trans hother)
    obtain rfl : others = before ++ (key, value) :: after := heq
    have hpayload : (name, part) ∈ form.payloadLayout :=
      (List.mem_cons.mp hpart).resolve_left fun heq => hne (Prod.mk.inj heq).1
    exact ⟨_, h', .known hkey hpayload hvalue⟩
  | @unknown _ key value value' _ hkey hvalue =>
    have hedit : Edited .plain value value' := .inl hvalue
    obtain ⟨-, before, after, heq, h'⟩ :=
      readTagged_replace hedit.isScalar (hedit.check budget) h
    obtain rfl : others = before ++ (key, value) :: after := heq
    refine ⟨_, h', .unknown (fun name hname hmem => hkey name hname ?_) hvalue⟩
    exact List.mem_cons_of_mem _ hmem

/-- A type expression given as an object is decoded by its tag and its other members. -/
private theorem decodeLevels_object_eq_ok_iff {levels : Nat} {members : List (Reading × Reading)}
    {t : TypeExpr} :
    TypeExpr.decodeLevels (levels + 1) inside (budget + 1) (.object members none) = .ok t ↔
      ∃ form others, readTagged inside budget none members = .ok (some form, others) ∧
        form.decodePayload (TypeExpr.decodeLevels levels true) budget (.members others) =
          .ok t := by
  constructor
  · intro h
    obtain ⟨⟨form?, others⟩, htagged, h⟩ := bind_eq_ok.mp h
    obtain ⟨_, -, h⟩ := bind_eq_ok.mp h
    obtain ⟨form, hform, h⟩ := bind_eq_ok.mp h
    obtain rfl := required_eq_ok.mp hform
    exact ⟨form, others, htagged, h⟩
  · rintro ⟨form, others, htagged, h⟩
    exact bind_eq_ok.mpr ⟨(some form, others), htagged, h⟩

/-- A type expression given as an array is decoded by its tag and the other items. -/
private theorem decodeLevels_array_eq_ok_iff {levels : Nat} {tag : Reading} {items : List Reading}
    {t : TypeExpr} :
    TypeExpr.decodeLevels (levels + 1) inside (budget + 1) (.array (tag :: items) none) = .ok t ↔
      ∃ form, TypeForm.decode inside tag = .ok form ∧ checkItems budget items = .ok () ∧
        form.decodePayload (TypeExpr.decodeLevels levels true) budget (.items items) = .ok t := by
  constructor
  · intro h
    obtain ⟨form, hform, h⟩ := bind_eq_ok.mp h
    obtain ⟨_, hitems, h⟩ := bind_eq_ok.mp h
    exact ⟨form, hform, ofFlaw_eq_ok_iff.mp hitems, h⟩
  · rintro ⟨form, hform, hitems, h⟩
    refine bind_eq_ok.mpr ⟨form, hform, ?_⟩
    exact bind_eq_ok.mpr ⟨(), ofFlaw_eq_ok_iff.mpr hitems, h⟩

/-- An edit of a type expression given as an object is one of the members that its form has. -/
private theorem membersEdited_of_edited {form : TypeForm}
    {members others : List (Reading × Reading)} (htagged : Tagged inside budget form members others)
    {r : Reading} (h : Edited .type (.object members none) r) :
    ∃ members', r = .object members' none ∧ MembersEdited Edited form.layout members members' := by
  have hlayout {layout : Layout} (h : Role.type.LaidOut (.object members none) layout) :
      layout = form.layout := by
    cases h with
    | type hmem hkey hform => rw [htagged.form_eq hmem hkey hform]
  have hedit : StructEdited Edited form.layout (.object members none) r :=
    h.elim structEdited_of_reordered (structEdited_of_extended hlayout nofun)
  cases hedit with
  | members hmembers => exact ⟨_, rfl, hmembers⟩

/-- An edit of a type expression given as an array is one of the items besides the tag. -/
private theorem itemsEdited_of_edited {form : TypeForm} {tag : Reading} {items : List Reading}
    (hform : TypeForm.decode inside tag = .ok form) {r : Reading}
    (h : Edited .type (.array (tag :: items) none) r) :
    ∃ items', r = .array (tag :: items') none ∧
      ItemsEdited Edited form.payloadLayout items items' := by
  have hlayout {layout : Layout} (h : Role.type.LaidOut (.array (tag :: items) none) layout) :
      layout = form.layout := by
    cases h with
    | typeItems hform' =>
      rw [Except.ok.inj (hform'.symm.trans (decode_true_of_decode hform))]
  have hedit : StructEdited Edited form.layout (.array (tag :: items) none) r :=
    h.elim structEdited_of_reordered (structEdited_of_extended hlayout nofun)
  generalize hall : tag :: items = all at hedit
  cases hedit with
  | items hitems =>
    cases hitems with
    | @intro before item item' after hitem =>
      cases before with
      | nil =>
        -- The first item is the tag, which has no parts to edit.
        obtain ⟨rfl, -⟩ := List.cons.inj hall
        have hscalar := (hitem _ _ rfl).isScalar
        rw [isScalar_of_decode hform] at hscalar
        cases hscalar
      | cons first before =>
        obtain ⟨rfl, rfl⟩ := List.cons.inj hall
        exact ⟨_, rfl, .intro hitem⟩

/-- A tag `tag` is read in full. -/
theorem check_of_decode {tag : Reading} {form : TypeForm}
    (h : TypeForm.decode inside tag = .ok form) (budget : Nat) : tag.check budget = .ok () := by
  have htag := decode_true_of_decode h
  cases tag with
  | string token =>
    obtain ⟨word, hword, -⟩ := bind_eq_ok.mp htag
    rw [ofFlaw_eq_ok_iff] at hword
    rw [Reading.check, hword]
    rfl
  | number numeral =>
    unfold TypeForm.decode at htag
    dsimp only at htag
    split at htag
    · next hnumber => rw [Reading.check, hnumber]; rfl
    · exact absurd htag unexpected_ne_ok
  | null => rfl
  | bool => rfl
  | _ => cases htag

/-- A type expression is decoded alike before and after an edit. -/
theorem tolerates_decodeLevels (levels : Nat) :
    ∀ (inside : Bool) (budget : Nat),
      Tolerates (Edited .type) (TypeExpr.decodeLevels levels inside budget) := by
  induction levels with
  | zero =>
    intro inside budget r r' _ t ht
    cases ht
  | succ levels ih =>
    intro inside budget r r' hedit t ht
    rcases hedit.ends with ⟨members, rfl⟩ | ⟨items, rfl⟩
    · cases budget with
      | zero => cases ht
      | succ budget =>
        obtain ⟨form, others, htagged, ht⟩ := decodeLevels_object_eq_ok_iff.mp ht
        obtain ⟨members', rfl, hmembers⟩ :=
          membersEdited_of_edited (readTagged_eq_ok_iff.mp htagged) hedit
        obtain ⟨others', htagged', hothers⟩ := readTagged_edited htagged hmembers
        exact decodeLevels_object_eq_ok_iff.mpr
          ⟨form, others', htagged', decodePayload_edited (ih true) (.members hothers) ht⟩
    · cases budget with
      | zero => cases ht
      | succ budget =>
        cases items with
        | nil => cases ht
        | cons tag items =>
          obtain ⟨form, hform, hcheck, ht⟩ := decodeLevels_array_eq_ok_iff.mp ht
          obtain ⟨items', rfl, hitems⟩ := itemsEdited_of_edited hform hedit
          -- The items are read in full before the edited one is looked at by its role.
          have htag := check_of_decode hform budget
          have hall := check_array_eq_ok_iff.mpr
            (List.forall_mem_cons.mpr ⟨htag, checkItems_eq_ok_iff.mp hcheck⟩)
          have hall' := check_array_eq_ok_iff.mp (hedit.check (budget + 1) hall)
          have hcheck' := checkItems_eq_ok_iff.mpr (List.forall_mem_cons.mp hall').2
          exact decodeLevels_array_eq_ok_iff.mpr
            ⟨form, hform, hcheck', decodePayload_edited (ih true) (.items hitems) ht⟩

private theorem tolerates_decode (budget : Nat) :
    Tolerates (Edited .type) (TypeExpr.decode budget) :=
  tolerates_decodeLevels (budget + 1) false budget

end Types

/-! ### Kinds -/

section Kinds

variable {budget : Nat}

private theorem tolerates_structType (budget : Nat) :
    Tolerates (Edited .struct) (StructType.decode budget) :=
  tolerates_struct .struct (fun _ => structFormat_follows tolerates_decode)
    (fun h => by cases h; rfl) nofun false budget

private theorem definitionFormat_follows :
    (definitionFormat budget).Follows Edited definitionLayout where
  keys := rfl
  commutes := by
    intro key key' hkey hkey' hne draft next last value value' hput hput'
    simp only [definitionFormat, List.mem_cons, List.not_mem_nil, or_false] at hkey hkey'
    rcases hkey with rfl | rfl | rfl <;> rcases hkey' with rfl | rfl | rfl
    all_goals simp only [ne_eq, not_true_eq_false] at hne
    all_goals
      obtain ⟨a, ha, rfl⟩ := bind_return_eq_ok.mp hput
      obtain ⟨b, hb, rfl⟩ := bind_return_eq_ok.mp hput'
      exact ⟨_, return_eq_ok hb, return_eq_ok ha⟩
  put := by
    simp only [definitionLayout, List.forall_mem_cons]
    exact ⟨fun draft => tolerates_decodeString.plain.map _,
      fun draft => (tolerates_decodeStrings budget).map _,
      fun draft => (tolerates_decode budget).map _, List.forall_mem_nil _⟩

private theorem tolerates_definition (budget : Nat) :
    Tolerates (Edited .definition) (RecordFormat.decode false budget definitionFormat) :=
  tolerates_struct .definition (fun _ => definitionFormat_follows) (fun h => by cases h; rfl) nofun
    false budget

private theorem sectionFormat_follows : (sectionFormat budget).Follows Edited metadataLayout where
  keys := rfl
  commutes := by
    intro key key' hkey hkey' hne draft next last value value' hput hput'
    simp only [sectionFormat, List.mem_cons, List.not_mem_nil, or_false] at hkey hkey'
    rcases hkey with rfl | rfl <;> rcases hkey' with rfl | rfl
    all_goals simp only [ne_eq, not_true_eq_false] at hne
    all_goals
      obtain ⟨a, ha, rfl⟩ := bind_return_eq_ok.mp hput
      obtain ⟨b, hb, rfl⟩ := bind_return_eq_ok.mp hput'
      exact ⟨_, return_eq_ok hb, return_eq_ok ha⟩
  put := by
    simp only [metadataLayout, List.forall_mem_cons]
    exact ⟨fun draft => (tolerates_decodeStrings budget).map _,
      fun draft => (tolerates_decode budget).map _, List.forall_mem_nil _⟩

private theorem tolerates_section (budget : Nat) :
    Tolerates (Edited .metadata) (RecordFormat.decode false budget sectionFormat) :=
  tolerates_struct .metadata (fun _ => sectionFormat_follows) (fun h => by cases h; rfl) nofun
    false budget

private theorem kindFormat_commutes : (kindFormat budget).Commutes := by
  intro key key' hkey hkey' hne draft next last value value' hput hput'
  simp only [kindFormat, List.mem_cons, List.not_mem_nil, or_false] at hkey hkey'
  rcases hkey with rfl | rfl | rfl | rfl | rfl | rfl | rfl | rfl | rfl | rfl <;>
    rcases hkey' with rfl | rfl | rfl | rfl | rfl | rfl | rfl | rfl | rfl | rfl
  all_goals simp only [ne_eq, not_true_eq_false] at hne
  all_goals
    obtain ⟨a, ha, rfl⟩ := bind_return_eq_ok.mp hput
    obtain ⟨b, hb, rfl⟩ := bind_return_eq_ok.mp hput'
    exact ⟨_, return_eq_ok hb, return_eq_ok ha⟩

private theorem kindFormat_follows : (kindFormat budget).Follows Edited kindLayout where
  keys := rfl
  commutes := kindFormat_commutes
  put := by
    simp only [kindLayout, List.forall_mem_cons]
    exact ⟨fun draft => tolerates_decodeString.plain.map _,
      fun draft => tolerates_decodeOptionalString.plain.map _,
      fun draft => tolerates_decodeOptionalString.plain.map _,
      fun draft => (tolerates_decodeStrings budget).map _,
      fun draft => (tolerates_decodeChoice Maturity.words budget).plain.map _,
      fun draft =>
        (tolerates_decodeList (tolerates_decodeChoice VariantId.words) budget).plain.map _,
      fun draft => (tolerates_section budget).map _,
      fun draft => (tolerates_structType budget).map _,
      fun draft => (tolerates_structType budget).map _,
      fun draft => (tolerates_list tolerates_definition budget).map _, List.forall_mem_nil _⟩

/-- A kind is decoded alike before and after an edit. -/
theorem tolerates_kind (budget : Nat) :
    Tolerates (Edited .kind) (RecordFormat.decode false budget kindFormat) :=
  tolerates_struct .kind (fun _ => kindFormat_follows) (fun h => by cases h; rfl) nofun false budget

end Kinds

end KindSchema
