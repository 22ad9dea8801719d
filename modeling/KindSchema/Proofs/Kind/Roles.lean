import KindSchema.Proofs.Json.Edits
import KindSchema.Proofs.Kind.Nesting

/-!
# What stands for what in the text of a kind

The role of a value in the JSON form of a kind says which struct it stands for, if any, and the
layout of the struct says which role the value of each key has. A type expression has the layout of
the form that its `kind` names.

`Extended` adds a member of an unknown key to one of the objects that stand for a struct or a type
expression, wherever it is. An edit of a value of some role, `Edited`, is that or a change of the
order of members anywhere.

* `Edited.check`, `Edited.spelled`: what is read in full, or has a spelling, has it after an edit.
* `structEdited_of_reordered`, `structEdited_of_extended`: an edit of a value that stands for a
  struct, said by the layout of the struct.
-/

namespace KindSchema

open Json

/-! ### Roles and layouts -/

/-- What a value stands for. -/
inductive Role
  /-- A text, a word or a list of texts, or a value that is skipped. -/
  | plain
  | list (item : Role)
  | kind
  | metadata
  | struct
  | field
  | definition
  | type

/-- The keys of a struct in the order of declaration, with the roles of their values. -/
abbrev Layout := List (String × Role)

def fieldLayout : Layout :=
  [("name", .plain), ("type", .type), ("optional", .plain), ("docs", .plain)]

def structLayout : Layout :=
  [("name", .plain), ("docs", .plain), ("fields", .list .field)]

def definitionLayout : Layout :=
  [("name", .plain), ("docs", .plain), ("type", .type)]

def metadataLayout : Layout :=
  [("docs", .plain), ("type", .type)]

def kindLayout : Layout :=
  [("name", .plain), ("machineName", .plain), ("pluralName", .plain), ("description", .plain),
    ("maturity", .plain), ("variants", .plain), ("metadata", .metadata), ("spec", .struct),
    ("status", .struct), ("definitions", .list .definition)]

/-- The keys of a type expression of some form besides its tag. -/
def TypeForm.payloadLayout : TypeForm → Layout
  | .scalar => [("scalar", .plain)]
  | .enum => [("values", .plain)]
  | .array => [("items", .type)]
  | .map => [("values", .type)]
  | .struct => structLayout
  | .reference => [("name", .plain)]

/-- The keys of a type expression of the form `form`. -/
def TypeForm.layout (form : TypeForm) : Layout :=
  ("kind", .plain) :: form.payloadLayout

/-- The layout that a value has by its role. -/
inductive Role.LaidOut : Role → Reading → Layout → Prop
  | kind {r} : LaidOut .kind r kindLayout
  | metadata {r} : LaidOut .metadata r metadataLayout
  | struct {r} : LaidOut .struct r structLayout
  | field {r} : LaidOut .field r fieldLayout
  | definition {r} : LaidOut .definition r definitionLayout
  /-- The form of a type expression is given by the member `kind`, wherever it stands. -/
  | type {members finish key tag form} (hmem : (key, tag) ∈ members) (hkey : key.key = .ok "kind")
      (hform : TypeForm.decode true tag = .ok form) :
    LaidOut .type (.object members finish) form.layout
  | typeItems {tag items finish form} (hform : TypeForm.decode true tag = .ok form) :
    LaidOut .type (.array (tag :: items) finish) form.layout

/-! ### Edits -/

/-- A member of an unknown key with a simple value joins an object that stands for a struct or for a
type expression, somewhere in a value of a role. -/
inductive Extended : Role → Reading → Reading → Prop
  | here {role members layout key value} (hlayout : role.LaidOut (.object members none) layout)
      (hkey : key ∉ layout.map (·.1)) (hvalue : value.IsSimple) :
    Extended role (.object members none)
      (.object ((.string ⟨.ok key, none⟩, value) :: members) none)
  | member {role before key value value' after layout name part}
      (hlayout : role.LaidOut (.object (before ++ (key, value) :: after) none) layout)
      (hkey : key.key = .ok name) (hpart : (name, part) ∈ layout) (h : Extended part value value') :
    Extended role (.object (before ++ (key, value) :: after) none)
      (.object (before ++ (key, value') :: after) none)
  /-- A struct may be given as an array of its values. -/
  | entry {role before item item' after layout name part}
      (hlayout : role.LaidOut (.array (before ++ item :: after) none) layout)
      (hpart : layout[before.length]? = some (name, part)) (h : Extended part item item') :
    Extended role (.array (before ++ item :: after) none) (.array (before ++ item' :: after) none)
  | item {role before item item' after} (h : Extended role item item') :
    Extended (.list role) (.array (before ++ item :: after) none)
      (.array (before ++ item' :: after) none)

/-- That `r'` is `r`, a value of `role`, after the members of an object somewhere in it have changed
their places, or one has joined in. -/
def Edited (role : Role) (r r' : Reading) : Prop :=
  Reordered r r' ∨ Extended role r r'

/-- What goes part by part is kept when a member joins in. -/
private theorem Json.PartByPart.extended {K : Reading → Prop} {P : Nat → Reading → Prop}
    (h : PartByPart K P) (hkey : ∀ key, K (.string ⟨.ok key, none⟩))
    (hvalue : ∀ {value}, value.IsSimple → ∀ n, P n value) {role : Role} {r r' : Reading}
    (hedit : Extended role r r') : ∀ n, P n r → P n r' := by
  induction hedit with
  | here _ _ hsimple => exact fun n => h.addMember (hkey _) (hvalue hsimple)
  | member _ _ _ _ ih => exact fun n => h.replaceValue ih
  | entry _ _ _ ih => exact fun n => h.replaceItem ih
  | item _ ih => exact fun n => h.replaceItem ih

section Kept

variable {role : Role} {r r' : Reading}

/-- If `r` is read in full, so is its edit `r'`. -/
theorem Edited.check (h : Edited role r r') (budget : Nat) (hr : r.check budget = .ok ()) :
    r'.check budget = .ok () := by
  rcases h with h | h
  · exact partByPart_check.reordered h budget hr
  · exact partByPart_check.extended (fun key => ⟨key, rfl⟩) Reading.IsSimple.check h budget hr

/-- If `r` has a spelling, so has its edit `r'`. -/
theorem Edited.spelled (h : Edited role r r') (hr : r.Spelled) : r'.Spelled := by
  rcases h with h | h
  · exact partByPart_spelled.reordered h 0 hr
  · exact partByPart_spelled.extended
      (fun key => ⟨_, stringChars key, rfl, isLexeme_stringChars key⟩)
      (fun hvalue _ => hvalue.spelled) h 0 hr

/-- Only objects and arrays that end as they should are edited. -/
theorem Edited.ends (h : Edited role r r') :
    (∃ members, r = .object members none) ∨ ∃ items, r = .array items none := by
  rcases h with h | h
  · cases h with
    | here => exact .inl ⟨_, rfl⟩
    | item => exact .inr ⟨_, rfl⟩
    | member => exact .inl ⟨_, rfl⟩
  · cases h with
    | here => exact .inl ⟨_, rfl⟩
    | member => exact .inl ⟨_, rfl⟩
    | entry => exact .inr ⟨_, rfl⟩
    | item => exact .inr ⟨_, rfl⟩

theorem Edited.isScalar (h : Edited role r r') : r.isScalar = false := by
  rcases h.ends with ⟨members, rfl⟩ | ⟨items, rfl⟩ <;> rfl

/-- Nothing joins a plain value. -/
theorem edited_plain (h : Edited .plain r r') : Reordered r r' := by
  rcases h with h | h
  · exact h
  · cases h with
    | here hlayout => cases hlayout
    | member hlayout => cases hlayout
    | entry hlayout => cases hlayout

end Kept

/-- The members of an object are edited wherever one of them is. -/
theorem structEdited_of_reordered {layout : Layout} {r r' : Reading} (h : Reordered r r') :
    StructEdited Edited layout r r' := by
  cases h with
  | here hperm => exact .members (.reorder hperm)
  | item h => exact .items (.intro fun _ _ _ => .inl h)
  | @member _ key _ _ _ h =>
    by_cases hknown : ∃ name, key.key = .ok name ∧ name ∈ layout.map (·.1)
    · obtain ⟨name, hkey, hname⟩ := hknown
      obtain ⟨⟨_, part⟩, hpart, rfl⟩ := List.mem_map.mp hname
      exact .members (.known hkey hpart (.inl h))
    · exact .members (.unknown (fun name hkey hname => hknown ⟨name, hkey, hname⟩) h)

/-- An edit of `r`, a value that stands for a struct, is one of a member of it or of an item. -/
theorem structEdited_of_extended {role : Role} {layout : Layout} {r r' : Reading}
    (hlayout : ∀ {other}, role.LaidOut r other → other = layout)
    (hlist : ∀ item, role ≠ .list item) (h : Extended role r r') :
    StructEdited Edited layout r r' := by
  cases h with
  | here h hkey hvalue => exact .members (.add (hlayout h ▸ hkey) hvalue)
  | member h hkey hpart hvalue => exact .members (.known hkey (hlayout h ▸ hpart) (.inr hvalue))
  | entry h hpart hitem =>
    obtain rfl := hlayout h
    refine .items (.intro fun key part hother => ?_)
    obtain ⟨-, rfl⟩ := Prod.mk.inj (Option.some.inj (hpart.symm.trans hother))
    exact .inr hitem
  | item => exact absurd rfl (hlist _)

end KindSchema
