import KindSchema.Proofs.Kind.Edits
import Mathlib.Logic.Relation

/-!
# Tolerant reading of kinds

A kind is read from a text without regard to the order of the members of its objects, and without
regard to members that nobody asks for.

* `takesWhole_kind`: what is decoded as a kind is whole, so that a text that gives a kind spells a
  value: `Kind.ofText_eq_ok_iff`.
* `Kind.ofText_edited`: a text that spells an edited value gives the same kind.
-/

namespace KindSchema

open Json

/-! ### What is decoded is whole -/

/-- That `decode` takes nothing in which the text breaks off. -/
def TakesWhole {α : Type} (decode : Reading → Decoded α) : Prop :=
  ∀ ⦃r a⦄, decode r = .ok a → r.Whole

section Simple

variable {α β : Type}

private theorem TakesWhole.map {decode : Reading → Decoded α} (h : TakesWhole decode)
    (wrap : α → β) :
    TakesWhole fun r => do return wrap (← decode r) := by
  intro r b hb
  obtain ⟨a, ha, -⟩ := bind_return_eq_ok.mp hb
  exact h ha

private theorem takesWhole_decodeString : TakesWhole decodeString := by
  intro r s h
  cases r with
  | string token => exact .inr ⟨s, ofFlaw_eq_ok_iff.mp h⟩
  | _ => exact absurd h unexpected_ne_ok

private theorem takesWhole_decodeOptionalString : TakesWhole decodeOptionalString := by
  intro r s h
  cases r with
  | null => trivial
  | _ =>
    obtain ⟨s, hs, -⟩ := bind_return_eq_ok.mp h
    exact takesWhole_decodeString hs

private theorem takesWhole_decodeBool : TakesWhole decodeBool := by
  intro r b h
  cases r with
  | bool => trivial
  | _ => exact absurd h unexpected_ne_ok

private theorem wholeItems_of_decodeItems {decode : Reading → Decoded α} (h : TakesWhole decode)
    {items : List Reading} {l : List α} (hl : decodeItems decode items = .ok l) :
    WholeItems items := by
  induction items generalizing l with
  | nil => trivial
  | cons item items ih =>
    obtain ⟨a, ha, hl⟩ := bind_eq_ok.mp hl
    obtain ⟨rest, hrest, -⟩ := bind_return_eq_ok.mp hl
    exact ⟨h ha, ih hrest⟩

private theorem takesWhole_decodeList {decode : Nat → Reading → Decoded α}
    (h : ∀ budget, TakesWhole (decode budget)) (budget : Nat) :
    TakesWhole (decodeList budget decode) := by
  intro r l hl
  cases r with
  | array items finish =>
    cases budget with
    | zero => cases hl
    | succ budget =>
      obtain ⟨values, hvalues, hl⟩ := bind_eq_ok.mp hl
      obtain ⟨_, hfinish, -⟩ := bind_return_eq_ok.mp hl
      exact ⟨wholeItems_of_decodeItems (h budget) hvalues, proceed_eq_ok_iff.mp hfinish⟩
  | _ => exact absurd hl unexpected_ne_ok

private theorem takesWhole_decodeStrings (budget : Nat) : TakesWhole (decodeStrings budget) :=
  takesWhole_decodeList (fun _ => takesWhole_decodeString) budget

private theorem keyWhole_of_decodeIdentifier {choices : List (String × α)} {key : Reading} {a : α}
    (h : decodeIdentifier choices key = .ok a) : key.KeyWhole := by
  cases key with
  | string token =>
    obtain ⟨word, hword, -⟩ := bind_eq_ok.mp h
    exact ⟨token, rfl, .inr ⟨word, ofFlaw_eq_ok_iff.mp hword⟩⟩
  | _ => exact absurd h unexpected_ne_ok

private theorem takesWhole_decodeChoice (choices : List (String × α)) (budget : Nat) :
    TakesWhole (decodeChoice budget choices) := by
  intro r a h
  cases r with
  | string token =>
    obtain ⟨word, hword, -⟩ := bind_eq_ok.mp h
    exact .inr ⟨word, ofFlaw_eq_ok_iff.mp hword⟩
  | object members finish =>
    obtain ⟨key, rfl⟩ := decodeChoice_object h
    cases budget with
    | zero => cases h
    | succ budget =>
      obtain ⟨b, hb, h⟩ := bind_eq_ok.mp h
      obtain ⟨_, hfinish, -⟩ := bind_return_eq_ok.mp h
      exact ⟨⟨keyWhole_of_decodeIdentifier hb, trivial, trivial⟩, proceed_eq_ok_iff.mp hfinish⟩
  | _ => cases h

end Simple

/-! #### Structs -/

section Structs

variable {δ α : Type}

/-- That `format` puts nothing into a draft in which the text breaks off. -/
def Json.RecordFormat.PutsWhole (format : RecordFormat δ α) : Prop :=
  ∀ key ∈ format.keys, ∀ draft, TakesWhole (format.put draft key)

private theorem wholeMembers_of_putMembers {format : RecordFormat δ α} (h : format.PutsWhole)
    {draft last : δ} {seen : List String} {members : List (Reading × Reading)}
    (hput : format.putMembers draft seen members = .ok last) : WholeMembers members := by
  induction members generalizing draft seen with
  | nil => trivial
  | cons member members ih =>
    obtain ⟨name, hname, hput⟩ := RecordFormat.putMembers_cons_eq_ok_iff.mp hput
    rcases hput with ⟨hknown, -, next, hnext, hput⟩ | ⟨-, hflaw, hput⟩
    · exact ⟨keyWhole_of_key hname, h name hknown draft hnext, ih hput⟩
    · exact ⟨keyWhole_of_key hname, whole_of_flaw? hflaw, ih hput⟩

private theorem wholeItems_of_putItems {format : RecordFormat δ α} {keys : List String}
    (h : ∀ key ∈ keys, ∀ draft, TakesWhole (format.put draft key)) {draft last : δ}
    {items : List Reading} (hput : format.putItems draft keys items = .ok (last, [])) :
    WholeItems items := by
  induction keys generalizing draft items with
  | nil =>
    cases hput
    trivial
  | cons key keys ih =>
    obtain ⟨hkey, hkeys⟩ := List.forall_mem_cons.mp h
    cases items with
    | nil => trivial
    | cons item items =>
      obtain ⟨next, hnext, hput⟩ := bind_eq_ok.mp hput
      exact ⟨hkey draft hnext, ih hkeys hput⟩

/-- A struct outside of type expressions is decoded from a whole value. -/
private theorem takesWhole_struct {format : Nat → RecordFormat δ α}
    (h : ∀ budget, (format budget).PutsWhole) (budget : Nat) :
    TakesWhole (RecordFormat.decode false budget format) := by
  intro r a ha
  cases r with
  | array items finish =>
    cases budget with
    | zero => cases ha
    | succ budget =>
      obtain ⟨hfinish, ha⟩ := RecordFormat.decode_array_outside_iff.mp ha
      obtain ⟨draft, hput, -⟩ := RecordFormat.ofItems_eq_ok_iff.mp ha
      exact ⟨wholeItems_of_putItems (h budget) hput, hfinish⟩
  | object members finish =>
    cases budget with
    | zero => cases ha
    | succ budget =>
      obtain ⟨draft, hput, ha⟩ := bind_eq_ok.mp ha
      obtain ⟨_, hfinish, -⟩ := bind_eq_ok.mp ha
      exact ⟨wholeMembers_of_putMembers (h budget) hput, proceed_eq_ok_iff.mp hfinish⟩
  | _ => exact absurd ha unexpected_ne_ok

end Structs

/-! #### Type expressions and kinds -/

private theorem wholeMembers_of_readTagged {inside : Bool} {budget : Nat} {form? : Option TypeForm}
    {members : List (Reading × Reading)} {result : Option TypeForm × List (Reading × Reading)}
    (h : readTagged inside budget form? members = .ok result) : WholeMembers members := by
  induction members generalizing form? result with
  | nil => trivial
  | cons member members ih =>
    rcases readTagged_cons_eq_ok_iff.mp h with
      ⟨hkey, -, form, hform, h⟩ | ⟨⟨name, hkey, -, hcheck⟩, others, h, -⟩
    · exact ⟨keyWhole_of_key hkey, whole_of_check (check_of_decode hform budget), ih h⟩
    · exact ⟨keyWhole_of_key hkey, whole_of_check hcheck, ih h⟩

/-- A type expression is read in full, so that it is whole. -/
private theorem takesWhole_decodeLevels (levels : Nat) (inside : Bool) (budget : Nat) :
    TakesWhole (TypeExpr.decodeLevels levels inside budget) := by
  intro r t h
  cases levels with
  | zero => cases h
  | succ levels =>
    unfold TypeExpr.decodeLevels at h
    split at h
    · cases h
    · cases h
    · obtain ⟨_, -, h⟩ := bind_eq_ok.mp h
      cases h
    · next tag items finish budget =>
      obtain ⟨form, hform, h⟩ := bind_eq_ok.mp h
      obtain ⟨_, hitems, h⟩ := bind_eq_ok.mp h
      obtain ⟨_, hfinish, -⟩ := bind_eq_ok.mp h
      have htag := whole_of_check (check_of_decode hform budget)
      exact ⟨⟨htag, wholeItems_of_check (ofFlaw_eq_ok_iff.mp hitems)⟩,
        proceed_eq_ok_iff.mp hfinish⟩
    · obtain ⟨tagged, htagged, h⟩ := bind_eq_ok.mp h
      obtain ⟨_, hfinish, -⟩ := bind_eq_ok.mp h
      exact ⟨wholeMembers_of_readTagged htagged, proceed_eq_ok_iff.mp hfinish⟩
    · exact absurd h unexpected_ne_ok

private theorem takesWhole_type (budget : Nat) : TakesWhole (TypeExpr.decode budget) :=
  takesWhole_decodeLevels _ _ _

private theorem takesWhole_field (budget : Nat) :
    TakesWhole (RecordFormat.decode false budget (fieldFormat TypeExpr.decode)) := by
  refine takesWhole_struct (fun budget => ?_) budget
  simp only [RecordFormat.PutsWhole, fieldFormat, List.forall_mem_cons]
  exact ⟨fun draft => takesWhole_decodeString.map _, fun draft => (takesWhole_type budget).map _,
    fun draft => takesWhole_decodeBool.map _, fun draft => (takesWhole_decodeStrings budget).map _,
    List.forall_mem_nil _⟩

private theorem takesWhole_structType (budget : Nat) : TakesWhole (StructType.decode budget) := by
  refine takesWhole_struct (fun budget => ?_) budget
  simp only [RecordFormat.PutsWhole, structFormat, List.forall_mem_cons]
  exact ⟨fun draft => takesWhole_decodeOptionalString.map _,
    fun draft => (takesWhole_decodeStrings budget).map _,
    fun draft => (takesWhole_decodeList takesWhole_field budget).map _, List.forall_mem_nil _⟩

private theorem takesWhole_definition (budget : Nat) :
    TakesWhole (RecordFormat.decode false budget definitionFormat) := by
  refine takesWhole_struct (fun budget => ?_) budget
  simp only [RecordFormat.PutsWhole, definitionFormat, List.forall_mem_cons]
  exact ⟨fun draft => takesWhole_decodeString.map _,
    fun draft => (takesWhole_decodeStrings budget).map _,
    fun draft => (takesWhole_type budget).map _, List.forall_mem_nil _⟩

private theorem takesWhole_section (budget : Nat) :
    TakesWhole (RecordFormat.decode false budget sectionFormat) := by
  refine takesWhole_struct (fun budget => ?_) budget
  simp only [RecordFormat.PutsWhole, sectionFormat, List.forall_mem_cons]
  exact ⟨fun draft => (takesWhole_decodeStrings budget).map _,
    fun draft => (takesWhole_type budget).map _, List.forall_mem_nil _⟩

theorem takesWhole_kind (budget : Nat) :
    TakesWhole (RecordFormat.decode false budget kindFormat) := by
  refine takesWhole_struct (fun budget => ?_) budget
  simp only [RecordFormat.PutsWhole, kindFormat, List.forall_mem_cons]
  exact ⟨fun draft => takesWhole_decodeString.map _,
    fun draft => takesWhole_decodeOptionalString.map _,
    fun draft => takesWhole_decodeOptionalString.map _,
    fun draft => (takesWhole_decodeStrings budget).map _,
    fun draft => (takesWhole_decodeChoice Maturity.words budget).map _,
    fun draft => (takesWhole_decodeList (takesWhole_decodeChoice VariantId.words) budget).map _,
    fun draft => (takesWhole_section budget).map _,
    fun draft => (takesWhole_structType budget).map _,
    fun draft => (takesWhole_structType budget).map _,
    fun draft => (takesWhole_decodeList takesWhole_definition budget).map _, List.forall_mem_nil _⟩

/-! ### Edited texts -/

namespace Kind

/-- The text `text` gives the kind `k` if it spells a value that is decoded as `k`. -/
theorem ofText_eq_ok_iff {text : String} {k : Kind} : ofText text = .ok k ↔
    ∃ r, IsText r text ∧ RecordFormat.decode false nestingLimit kindFormat r = .ok k := by
  constructor
  · intro h
    rcases hread : Reading.ofText text with ⟨r, trailing⟩
    rw [ofText, hread] at h
    obtain ⟨k', hk, h⟩ := bind_eq_ok.mp h
    obtain ⟨_, htrailing, rfl⟩ := bind_return_eq_ok.mp h
    rw [proceed_eq_ok_iff.mp htrailing] at hread
    exact ⟨r, isText_of_ofText hread (takesWhole_kind nestingLimit hk), hk⟩
  · rintro ⟨r, htext, hk⟩
    rw [ofText, Reading.ofText_of_isText htext]
    exact bind_eq_ok.mpr ⟨k, hk, rfl⟩

/-- If `text` gives the kind `k`, it spells a value. However often members of the objects in the
value are moved, and members of unknown keys added to those that stand for a struct or a type
expression, the edited value has a spelling, and every text that spells it gives `k`. -/
theorem ofText_edited {text : String} {k : Kind} (h : ofText text = .ok k) :
    (∃ r, IsText r text) ∧ ∀ r, IsText r text →
      ∀ r', Relation.ReflTransGen (Edited .kind) r r' →
        (∃ text', IsText r' text') ∧ ∀ text', IsText r' text' → ofText text' = .ok k := by
  obtain ⟨r, hr, hk⟩ := ofText_eq_ok_iff.mp h
  refine ⟨⟨r, hr⟩, fun r₀ hr₀ r' hedits => ?_⟩
  have hsame := (Reading.ofText_of_isText hr).symm.trans (Reading.ofText_of_isText hr₀)
  obtain rfl : r = r₀ := (Prod.mk.inj hsame).1
  -- Each single edit keeps the spelling and the kind.
  have hedited : r'.Spelled ∧ RecordFormat.decode false nestingLimit kindFormat r' = .ok k := by
    induction hedits with
    | refl =>
      obtain ⟨_, cs, _, -, hcs, -⟩ := hr
      exact ⟨⟨cs, hcs⟩, hk⟩
    | tail _ hedit ih => exact ⟨hedit.spelled ih.1, tolerates_kind nestingLimit hedit ih.2⟩
  exact ⟨hedited.1.exists_isText, fun text' htext' => ofText_eq_ok_iff.mpr ⟨r', htext', hedited.2⟩⟩

end Kind

namespace Sample

def vase : Kind where
  name := "Vase"
  spec := { fields := [{ name := "flowers", type := .array .string }] }

def vaseField (type : Json) : Json :=
  .object [("name", .string "flowers"), ("type", type)]

/-- A kind with one field of the type that `type` stands for. -/
def vaseWith (type : Json) : Json :=
  .object [("name", .string "Vase"), ("spec", .object [("fields", .array [vaseField type])])]

/-- An edit of the type of the field is one of the kind. -/
private theorem edited_vaseWith {type type' : Json} (h : Edited .type type.reading type'.reading) :
    Edited .kind (vaseWith type).reading (vaseWith type').reading := by
  rcases h with h | h
  · exact .inl (@Reordered.member [_] _ _ _ _ (@Reordered.member [] _ _ _ _
      (@Reordered.item [] _ _ _ (@Reordered.member [_] _ _ _ _ h))))
  · have htype : ("type", Role.type) ∈ fieldLayout := .tail _ (.head _)
    have hfields : ("fields", Role.list .field) ∈ structLayout := .tail _ (.tail _ (.head _))
    have hspec : ("spec", Role.struct) ∈ kindLayout := by simp [kindLayout]
    have hfield : Extended .field (vaseField type).reading (vaseField type').reading :=
      @Extended.member _ [_] _ _ _ _ _ _ _ .field rfl htype h
    have hlist : Extended (.list .field) (.array [(vaseField type).reading] none)
        (.array [(vaseField type').reading] none) := @Extended.item _ [] _ _ _ hfield
    exact .inr (@Extended.member _ [_] _ _ _ _ _ _ _ .kind rfl hspec
      (@Extended.member _ [] _ _ _ _ _ _ _ .struct rfl hfields hlist))

def flower : Json :=
  .object [("kind", .string "scalar"), ("scalar", .string "string")]

def flowerNoted : Json :=
  .object [("note", .bool true), ("kind", .string "scalar"), ("scalar", .string "string")]

/-- The `kind` of an array may stand behind its items, and the type of these may hold a note. -/
theorem ofText_vaseWith :
    Kind.ofText (vaseWith (.object [("kind", .string "array"), ("items", flower)])).compact =
      .ok vase ∧
    Kind.ofText (vaseWith (.object [("items", flowerNoted), ("kind", .string "array")])).compact =
      .ok vase := by
  have hread := Kind.ofText_eq_ok_iff.mpr
    ⟨_, isText_compact (vaseWith (.object [("kind", .string "array"), ("items", flower)])), rfl⟩
  -- First the two members of the type change places, then a note is added to the inner type.
  have hmove : Edited .type (Json.object [("kind", .string "array"), ("items", flower)]).reading
      (Json.object [("items", flower), ("kind", .string "array")]).reading :=
    .inl (.here (.swap _ _ _))
  have hflower : Extended .type flower.reading flowerNoted.reading :=
    .here (@Role.LaidOut.type _ none _ _ .scalar (.head _) rfl rfl)
      (show "note" ∉ ["kind", "scalar"] by decide) (.inr (.inl ⟨true, rfl⟩))
  have hitems : ("items", Role.type) ∈ TypeForm.layout .array := .tail _ (.head _)
  have hnote : Edited .type (Json.object [("items", flower), ("kind", .string "array")]).reading
      (Json.object [("items", flowerNoted), ("kind", .string "array")]).reading :=
    .inr (@Extended.member _ [] _ _ _ _ _ _ _
      (@Role.LaidOut.type _ none _ _ .array (.tail _ (.head _)) rfl rfl) rfl hitems hflower)
  have hedits := (Relation.ReflTransGen.single (edited_vaseWith hmove)).tail
    (edited_vaseWith hnote)
  exact ⟨hread,
    ((Kind.ofText_edited hread).2 _ (isText_compact _) _ hedits).2 _ (isText_compact _)⟩

end Sample

end KindSchema
