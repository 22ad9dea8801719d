import Mathlib.Data.List.Forall2
import KindSchema.Go.Files
import KindSchema.Proofs.Kind.Validation

/-!
# Go types of shapes

What a Go type must be to be written for a shape, said without field paths and without the checks of
names. A property of all Go types is proved of the relations here, by their cases.

* `isTypeOf_of_typeOf`, `areMembersOf_of_membersOf`: what a shape and some fields become.
* `isDeclarationOf_of_typeDeclaration`: what a declaration becomes.
* `fileOf_writes`, `typesFile_writes`: a file has a type for each of the bodies it is made of.
-/

namespace KindSchema

namespace Go

/-! ### Types -/

/-- The member for the field `f`, given its `name` and the Go type of the shape of `f`. -/
def memberOf (f : Field Shape) (name : String) (type : GoType) : Member GoType where
  docs := f.docs
  key := f.name
  name := name
  type := if f.optional && needsPointer f.type then .pointer type else type
  omitEmpty := f.optional

/-- If `g` does not see pointers, it does not see whether the field `f` is optional. -/
theorem memberOf_type_of_pointer {α : Type} {g : GoType → α} (hg : ∀ t, g (.pointer t) = g t)
    (f : Field Shape) (name : String) (type : GoType) : g (memberOf f name type).type = g type := by
  unfold memberOf
  dsimp only
  split
  · exact hg type
  · rfl

mutual

/-- That a Go type is written for a shape. There is none for an enumeration, which has to be
declared. -/
inductive IsTypeOf : Shape → GoType → Prop
  | scalar (kind : Scalar) : IsTypeOf (.scalar kind) (.scalar kind)
  | named (name : String) : IsTypeOf (.named name) (.named name)
  | array {items : Shape} {type : GoType} (h : IsTypeOf items type) :
    IsTypeOf (.array items) (.slice type)
  | map {values : Shape} {type : GoType} (h : IsTypeOf values type) :
    IsTypeOf (.map values) (.map type)
  | struct {fields : List (Field Shape)} {members : List (Member GoType)}
    (h : AreMembersOf fields members) : IsTypeOf (.struct fields) (.struct members)

/-- That some members are written for some fields, one for each. -/
inductive AreMembersOf : List (Field Shape) → List (Member GoType) → Prop
  | nil : AreMembersOf [] []
  | cons {f : Field Shape} {name : String} {type : GoType} {fields : List (Field Shape)}
    {members : List (Member GoType)} (hname : Naming.identifier? f.name = some name)
    (htype : IsTypeOf f.type type) (hmembers : AreMembersOf fields members) :
    AreMembersOf (f :: fields) (memberOf f name type :: members)

end

mutual

/-- The Go type that is made of `shape` is written for it. -/
theorem isTypeOf_of_typeOf : ∀ {shape : Shape} {path : String} {type : GoType},
    typeOf path shape = .ok type → IsTypeOf shape type
  | .scalar kind, _, _, h => by
    cases h
    exact .scalar kind
  | .enum _, _, _, h => by cases h
  | .array items, _, _, h => by
    obtain ⟨inner, hinner, rfl⟩ := bind_return_eq_ok.mp h
    exact .array (isTypeOf_of_typeOf hinner)
  | .map values, _, _, h => by
    obtain ⟨inner, hinner, rfl⟩ := bind_return_eq_ok.mp h
    exact .map (isTypeOf_of_typeOf hinner)
  | .struct fields, _, _, h => by
    obtain ⟨members, hmembers, rfl⟩ := bind_return_eq_ok.mp h
    exact .struct (areMembersOf_of_membersOf hmembers)
  | .named name, _, _, h => by
    cases h
    exact .named name

/-- The members that are made of `fields` are written for them. -/
theorem areMembersOf_of_membersOf : ∀ {fields : List (Field Shape)} {path : String}
    {earlier : List (String × String)} {members : List (Member GoType)},
    membersOf path earlier fields = .ok members → AreMembersOf fields members
  | [], _, _, _, h => by
    cases h
    exact .nil
  | ⟨key, type, optional, docs⟩ :: fields, path, earlier, members, h => by
    rw [membersOf] at h
    split at h
    · cases h
    · next name hname =>
      obtain ⟨goType, hgoType, h⟩ := bind_eq_ok.mp h
      split at h
      · cases h
      · obtain ⟨rest, hrest, rfl⟩ := bind_return_eq_ok.mp h
        exact .cons hname (isTypeOf_of_typeOf hgoType) (areMembersOf_of_membersOf hrest)

end

/-! ### Declarations -/

/-- That a declared type is what is written for a body. -/
inductive IsUnderlyingOf : Body → Underlying → Prop
  | struct {fields : List (Field Shape)} {members : List (Member GoType)}
    (h : AreMembersOf fields members) : IsUnderlyingOf (.struct fields) (.struct members)
  | enum (values : List String) : IsUnderlyingOf (.enum values) .enum
  | synonym {shape : Shape} {type : GoType} (h : IsTypeOf shape type) :
    IsUnderlyingOf (.synonym shape) (.type type)

/-- That `t` is what is written for `body`, under `name` and with the documentation `docs`. -/
structure IsDeclarationOf (name : String) (docs : List String) (body : Body)
    (t : TypeDeclaration) : Prop where
  name_eq : t.name = name
  docs_eq : t.docs = docs
  underlying : IsUnderlyingOf body t.underlying

section Declarations

variable {name : String} {docs : List String} {t : TypeDeclaration}

theorem isDeclarationOf_of_structDeclaration {fields : List (Field Shape)}
    (h : structDeclaration name docs fields = .ok t) :
    IsDeclarationOf name docs (.struct fields) t := by
  obtain ⟨members, hmembers, rfl⟩ := bind_return_eq_ok.mp h
  exact ⟨rfl, rfl, .struct (areMembersOf_of_membersOf hmembers)⟩

theorem isDeclarationOf_of_shapeDeclaration {shape : Shape}
    (h : shapeDeclaration name docs shape = .ok t) :
    IsDeclarationOf name docs (.synonym shape) t := by
  obtain ⟨type, htype, rfl⟩ := bind_return_eq_ok.mp h
  exact ⟨rfl, rfl, .synonym (isTypeOf_of_typeOf htype)⟩

/-- The Go declaration of `d` is written for its body. -/
theorem isDeclarationOf_of_typeDeclaration {d : Declaration} (h : typeDeclaration d = .ok t) :
    IsDeclarationOf d.name d.docs d.body t := by
  obtain ⟨name, docs, body, origin⟩ := d
  cases body with
  | struct fields => exact isDeclarationOf_of_structDeclaration h
  | enum values =>
    cases h
    exact ⟨rfl, rfl, .enum values⟩
  | synonym shape => exact isDeclarationOf_of_shapeDeclaration h

end Declarations

/-! ### Files -/

/-- That the types of `file` are written for `bodies`, one for each. -/
def Writes (file : File) (bodies : List Body) : Prop :=
  ∃ types, List.Forall₂ (fun body t => IsUnderlyingOf body t.underlying) bodies types ∧
    file.types.Perm types

section Files

variable {package : String} {usesTime : Bool} {root : Except Unsupported TypeDeclaration}
  {declarations : List Declaration} {file : File}

/-- The file that is made of `root` and `declarations` has a type for the root, and one for each of
the declarations. -/
theorem fileOf_writes {body : Body} (hroot : ∀ t, root = .ok t → IsUnderlyingOf body t.underlying)
    (h : fileOf package usesTime root declarations = .ok file) :
    Writes file (body :: declarations.map (·.body)) := by
  obtain ⟨t, ht, h⟩ := bind_eq_ok.mp h
  obtain ⟨types, htypes, h⟩ := bind_eq_ok.mp h
  obtain ⟨blocks, -, rfl⟩ := bind_return_eq_ok.mp h
  have hbodies := (mapM_eq_ok.mp htypes).imp fun _ _ ht =>
    (isDeclarationOf_of_typeDeclaration ht).underlying
  exact ⟨t :: types, .cons (hroot t ht) (List.forall₂_map_left_iff.mpr hbodies),
    List.mergeSort_perm _ _⟩

/-- The file says that it uses times if `usesTime` tells it so. -/
theorem fileOf_usesTime (h : fileOf package usesTime root declarations = .ok file) :
    file.usesTime = usesTime := by
  obtain ⟨_, -, h⟩ := bind_eq_ok.mp h
  obtain ⟨_, -, h⟩ := bind_eq_ok.mp h
  obtain ⟨_, -, rfl⟩ := bind_return_eq_ok.mp h
  rfl

/-- The file of `r` has a type for the kind, and one for each declaration that its sections depend
on. -/
theorem typesFile_writes {params : Params} {r : ResolvedKind} (h : typesFile params r = .ok file) :
    Writes file (.struct (r.presented params).envelope ::
      (r.presented params).reachableDeclarations.map (·.body)) :=
  fileOf_writes (fun _ ht => (isDeclarationOf_of_structDeclaration ht).underlying) h

end Files

end Go

end KindSchema
