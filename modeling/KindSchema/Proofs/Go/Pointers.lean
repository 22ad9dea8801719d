import KindSchema.Proofs.Go.Failures
import KindSchema.Proofs.Go.ShapeTypes

/-!
# Pointers in Go files

An optional field may be missing, which takes a value for what is not there. The types of arrays, of
maps and of values of any form have one, `nil`; a field of another type is made a pointer. This is
decided by the field alone: a name that is declared for an array or a map is taken for a type that
has no such value.

* `HasNil`: the shapes whose types have it, names included.
* `IsTypeOf.structs`, `Writes.exists_members`: the structs of a file, at any depth, are those of the
  bodies that it is written for.
* `pointerRule_memberOf`: when the type of a member is a pointer, and when it should be.
* `typesFile_pointers`: the fields of a kind, one by one.
-/

namespace KindSchema

namespace Go

/-! ### Structs -/

mutual

/-- The structs in a Go type, at any depth, itself included. -/
def GoType.structs : GoType → List (List (Member GoType))
  | .scalar _ => []
  | .named _ => []
  | .pointer target => structs target
  | .slice items => structs items
  | .map values => structs values
  | .struct members => members :: memberStructs members

/-- The structs in the types of some members. -/
def GoType.memberStructs : List (Member GoType) → List (List (Member GoType))
  | [] => []
  | ⟨_, _, _, type, _⟩ :: members => type.structs ++ memberStructs members

end

/-- The structs in `t`. -/
def TypeDeclaration.structs (t : TypeDeclaration) : List (List (Member GoType)) :=
  match t.underlying with
  | .struct members => members :: GoType.memberStructs members
  | .enum => []
  | .type type => type.structs

/-- The members in `f`, at any depth. -/
def File.members (f : File) : List (Member GoType) :=
  (f.types.flatMap (·.structs)).flatten

/-- That `m` is written for the field `f`. -/
def IsMemberOf (f : Field Shape) (m : Member GoType) : Prop :=
  ∃ name type, Naming.identifier? f.name = some name ∧ IsTypeOf f.type type ∧
    m = memberOf f name type

private theorem AreMembersOf.forall₂ {fields : List (Field Shape)} {members : List (Member GoType)}
    (h : AreMembersOf fields members) : List.Forall₂ IsMemberOf fields members := by
  cases h with
  | nil => exact .nil
  | cons hname htype hmembers => exact .cons ⟨_, _, hname, htype, rfl⟩ hmembers.forall₂

mutual

/-- The structs of `type` are written for those of `shape`. -/
theorem IsTypeOf.structs : ∀ {shape : Shape} {type : GoType}, IsTypeOf shape type →
    List.Forall₂ AreMembersOf shape.structs type.structs
  | _, _, .scalar kind => by
    rw [Shape.structs, GoType.structs]
    exact .nil
  | _, _, .named name => by
    rw [Shape.structs, GoType.structs]
    exact .nil
  | _, _, .array h => by
    rw [Shape.structs, GoType.structs]
    exact IsTypeOf.structs h
  | _, _, .map h => by
    rw [Shape.structs, GoType.structs]
    exact IsTypeOf.structs h
  | _, _, .struct h => by
    rw [Shape.structs, GoType.structs]
    exact .cons h (AreMembersOf.structs h)

theorem AreMembersOf.structs : ∀ {fields : List (Field Shape)} {members : List (Member GoType)},
    AreMembersOf fields members →
      List.Forall₂ AreMembersOf (Shape.fieldStructs fields) (GoType.memberStructs members)
  | _, _, .nil => by
    rw [Shape.fieldStructs, GoType.memberStructs]
    exact .nil
  | _, _, @AreMembersOf.cons f name type _ _ _ htype hmembers => by
    have hpointer : (memberOf f name type).type.structs = type.structs :=
      memberOf_type_of_pointer (fun t => by rw [GoType.structs]) f name type
    rw [Shape.fieldStructs, GoType.memberStructs, hpointer]
    exact List.rel_append (IsTypeOf.structs htype) (AreMembersOf.structs hmembers)

end

private theorem IsUnderlyingOf.structs {body : Body} {t : TypeDeclaration}
    (h : IsUnderlyingOf body t.underlying) :
    List.Forall₂ AreMembersOf body.shape.structs t.structs := by
  obtain ⟨name, docs, underlying⟩ := t
  cases h with
  | struct hmembers =>
    rw [Body.shape, Shape.structs]
    exact .cons hmembers hmembers.structs
  | enum values =>
    rw [Body.shape, Shape.structs]
    exact .nil
  | synonym htype => exact htype.structs

/-- The members of `file` are written for the fields of `bodies`, at any depth. -/
theorem Writes.exists_members {file : File} {bodies : List Body} (h : Writes file bodies) :
    ∃ members, file.members.Perm members ∧
      List.Forall₂ IsMemberOf (bodies.flatMap (·.shape.structs)).flatten members := by
  obtain ⟨types, htypes, hperm⟩ := h
  have hstructs := List.rel_flatMap htypes fun _ _ hbody => IsUnderlyingOf.structs hbody
  have hmembers := hstructs.imp fun _ _ => AreMembersOf.forall₂
  refine ⟨(types.flatMap (·.structs)).flatten, ?_, List.rel_flatten hmembers⟩
  rw [File.members]
  exact (hperm.flatMap_right _).flatten

/-! ### Nil values -/

/-- That the type of a shape of `k` has a nil value: it is an array, a map, a value of any form, or
a name that is declared for a shape whose type has one. -/
inductive HasNil (k : ResolvedKind) : Shape → Prop
  | array (items : Shape) : HasNil k (.array items)
  | map (values : Shape) : HasNil k (.map values)
  | any : HasNil k (.scalar .any)
  | synonym {name : String} {d : Declaration} {shape : Shape} (hd : k.declaration? name = some d)
    (hbody : d.body = .synonym shape) (h : HasNil k shape) : HasNil k (.named name)

/-- That `type` is a pointer. -/
def IsPointer (type : GoType) : Prop :=
  ∃ target, type = .pointer target

/-- No pointer is written for a shape alone. -/
private theorem IsTypeOf.not_isPointer {shape : Shape} {type : GoType} (h : IsTypeOf shape type) :
    ¬ IsPointer type := by
  rintro ⟨target, rfl⟩
  cases h

/-- A shape is taken for one whose type has no nil value if this is so, and if it is a name. -/
private theorem needsPointer_iff (k : ResolvedKind) {shape : Shape} :
    needsPointer shape = true ↔ ¬ HasNil k shape ∨ ∃ name, shape = .named name := by
  cases shape with
  | scalar kind =>
    rw [needsPointer, bne_iff_ne, or_iff_left nofun]
    refine not_congr ⟨fun hany => hany ▸ .any, fun h => ?_⟩
    cases h
    rfl
  | enum values => exact iff_of_true rfl (.inl nofun)
  | array items =>
    have hnil : ¬¬ HasNil k (.array items) := not_not.mpr (.array items)
    exact iff_of_false Bool.false_ne_true (not_or.mpr ⟨hnil, nofun⟩)
  | map values =>
    have hnil : ¬¬ HasNil k (.map values) := not_not.mpr (.map values)
    exact iff_of_false Bool.false_ne_true (not_or.mpr ⟨hnil, nofun⟩)
  | struct fields => exact iff_of_true rfl (.inl nofun)
  -- The constructor is all that is looked at: a name gets a pointer, whatever it stands for.
  | named name => exact iff_of_true rfl (.inr ⟨name, rfl⟩)

/-- What is known of `m`, the member for the field `f`: its key, whether this may be missing, and
when its type is a pointer. If `f` is optional, this is right unless its type is a name that is
declared for a shape whose type has a nil value. -/
structure PointerRule (k : ResolvedKind) (f : Field Shape) (m : Member GoType) : Prop where
  key_eq : m.key = f.name
  omitEmpty_eq : m.omitEmpty = f.optional
  isPointer_iff : IsPointer m.type ↔
    f.optional = true ∧ (¬ HasNil k f.type ∨ ∃ name, f.type = .named name)
  right_iff : f.optional = true → ((IsPointer m.type ↔ ¬ HasNil k f.type) ↔
    ¬ ∃ name, f.type = .named name ∧ HasNil k (.named name))

private theorem IsMemberOf.pointerRule (k : ResolvedKind) {f : Field Shape} {m : Member GoType}
    (h : IsMemberOf f m) : PointerRule k f m := by
  obtain ⟨name, type, -, htype, rfl⟩ := h
  -- No shape has a pointer as its type, so a member has one only if it was made one here.
  have hpointer : IsPointer (memberOf f name type).type ↔
      f.optional = true ∧ (¬ HasNil k f.type ∨ ∃ name, f.type = .named name) := by
    rw [← needsPointer_iff, ← Bool.and_eq_true]
    unfold memberOf
    dsimp only
    split
    · next hneeds => exact iff_of_true ⟨type, rfl⟩ hneeds
    · next hneeds => exact iff_of_false htype.not_isPointer hneeds
  refine ⟨rfl, rfl, hpointer, fun hoptional => ?_⟩
  rw [hpointer, and_iff_right hoptional]
  constructor
  · rintro hright ⟨name, hname, hnil⟩
    exact hright.mp (.inr ⟨name, hname⟩) (hname ▸ hnil)
  · intro hnone
    refine ⟨fun hpointer => hpointer.elim id fun ⟨name, hname⟩ hnil => ?_, .inl⟩
    exact hnone ⟨name, hname, hname ▸ hnil⟩

/-! ### The fields of a kind -/

/-- The fields that the Go file of `r` has to write, at any depth. -/
def writtenFields (params : Params) (r : ResolvedKind) : List (Field Shape) :=
  (writtenStructs params r).flatten

/-- The members in `file`, the Go file of `r`, are, in some order, one for each of its fields. An
optional one is a pointer exactly if the type of its field has no nil value, unless this type is a
name that is declared for an array, a map or a value of any form, perhaps through other names: for
such a field, too, it is a pointer. -/
theorem typesFile_pointers {params : Params} {r : ResolvedKind} {file : File}
    (h : typesFile params r = .ok file) :
    ∃ members, file.members.Perm members ∧
      List.Forall₂ (PointerRule (r.presented params)) (writtenFields params r) members := by
  obtain ⟨members, hperm, hmembers⟩ := (typesFile_writes h).exists_members
  rw [List.flatMap_cons, List.flatMap_map] at hmembers
  exact ⟨members, hperm, hmembers.imp fun _ _ => IsMemberOf.pointerRule _⟩

end Go

namespace Sample

open Go

/-- A kind with an optional field of a type that is declared for an array. -/
def parcel : Kind where
  name := "Parcel"
  metadata := { type := .struct { fields := [] } }
  spec := { fields := [
    { name := "note", type := .scalar .string, optional := true },
    { name := "labels", type := .array (.scalar .string), optional := true },
    { name := "tags", type := .reference "Tags", optional := true }] }
  status := { fields := [] }
  definitions := [{ name := "Tags", type := .array (.scalar .string) }]

/-- The kind, resolved. -/
def parcelResolved : ResolvedKind where
  name := "Parcel"
  machineName := "parcel"
  description := []
  metadata := { name := "metadata", type := .struct [] }
  spec := { name := "spec", type := .struct [
    { name := "note", type := .scalar .string, optional := true },
    { name := "labels", type := .array (.scalar .string), optional := true },
    { name := "tags", type := .named "Tags", optional := true }] }
  status := { name := "status", type := .struct [] }
  declarations := [⟨"Tags", [], .synonym (.array (.scalar .string)), .defined⟩]

private theorem resolve_parcel : parcel.resolve .nominal = .ok parcelResolved := by
  with_unfolding_all rfl

/-- The Go file of the kind. -/
def parcelFile : File where
  package := "parcel"
  usesTime := false
  blocks := []
  types := [
    { name := "Parcel", docs := [], underlying := .struct [
      ⟨[], "metadata", "Metadata", .struct [], false⟩,
      ⟨[], "spec", "Spec", .struct [
        ⟨[], "note", "Note", .pointer (.scalar .string), true⟩,
        ⟨[], "labels", "Labels", .slice (.scalar .string), true⟩,
        ⟨[], "tags", "Tags", .pointer (.named "Tags"), true⟩], false⟩,
      ⟨[], "status", "Status", .struct [], false⟩] },
    { name := "Tags", docs := [], underlying := .type (.slice (.scalar .string)) }]

private theorem typesFile_parcel : typesFile {} parcelResolved = .ok parcelFile := by
  have hsorted : parcelFile.types.mergeSort (fun a b => decide (a.name ≤ b.name)) =
      parcelFile.types := List.mergeSort_of_pairwise (by decide)
  have huntimed : ((parcelResolved.presented {}).envelope.any (usesTime ·.type) ||
      declarationsUseTime (parcelResolved.presented {}).reachableDeclarations) = false := by
    with_unfolding_all rfl
  unfold typesFile
  dsimp only
  rw [huntimed]
  refine bind_eq_ok.mpr ⟨parcelFile.types[0], by with_unfolding_all rfl, ?_⟩
  refine bind_eq_ok.mpr ⟨[parcelFile.types[1]], by with_unfolding_all rfl, ?_⟩
  exact bind_return_eq_ok.mpr ⟨[], by with_unfolding_all rfl,
    congrArg (File.mk "parcel" false []) hsorted⟩

/-- The members in the file of the kind. -/
theorem typesFile_pointers_parcel : typesFile {} parcelResolved = .ok parcelFile ∧
    ∃ members, parcelFile.members.Perm members ∧
      List.Forall₂ (PointerRule (parcelResolved.presented {})) (writtenFields {} parcelResolved)
        members :=
  ⟨typesFile_parcel, typesFile_pointers typesFile_parcel⟩

/-- The type of the field is declared for an array, which has a nil value, but in Go it is a
pointer. -/
theorem pointer_to_tags_parcel : parcel.resolve .nominal = .ok parcelResolved ∧
    typesFile {} parcelResolved = .ok parcelFile ∧
    { name := "tags", type := .named "Tags", optional := true } ∈ writtenFields {} parcelResolved ∧
    HasNil (parcelResolved.presented {}) (.named "Tags") ∧
    ⟨[], "tags", "Tags", .pointer (.named "Tags"), true⟩ ∈ parcelFile.members := by
  have hfield : (writtenFields {} parcelResolved)[5]? =
      some { name := "tags", type := .named "Tags", optional := true } := by
    with_unfolding_all rfl
  have hmember : parcelFile.members[5]? =
      some ⟨[], "tags", "Tags", .pointer (.named "Tags"), true⟩ := by
    with_unfolding_all rfl
  exact ⟨resolve_parcel, typesFile_parcel, List.mem_of_getElem? hfield,
    .synonym rfl rfl (.array _), List.mem_of_getElem? hmember⟩

end Sample

end KindSchema
