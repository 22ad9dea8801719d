import KindSchema.Proofs.Go.Declarations
import KindSchema.Proofs.Go.FileParts

/-!
# The names in the text of a Go file

What a Go file declares and mentions is told from its declarations. Here it is found in the text:
the names among the parts of a file are those of its types and constants, in order.

* `namesOf_rowsParts`: how rows are aligned does not matter to the names in their types.
* `namesOf_typeParts`: the text of a type has the names that the type mentions, and a name for each
  leaf type in it, by induction on types.
* `fileText_eq`: the text of a file has each block of constants and each declaration once, in order.
* `prints_fileText`: what a text says that is the one of a file.
-/

namespace KindSchema.Go

/-! ### Leaf types -/

mutual

/-- The leaf types in a Go type, at any depth. -/
def GoType.scalars : GoType → List Scalar
  | .scalar kind => [kind]
  | .named _ => []
  | .pointer target => scalars target
  | .slice items => scalars items
  | .map values => scalars values
  | .struct members => memberScalars members

/-- The leaf types in the types of some members. -/
def GoType.memberScalars : List (Member GoType) → List Scalar
  | [] => []
  | ⟨_, _, _, type, _⟩ :: members => type.scalars ++ memberScalars members

end

/-- The leaf types in `t`. -/
def TypeDeclaration.scalars (t : TypeDeclaration) : List Scalar :=
  match t.underlying with
  | .struct members => GoType.memberScalars members
  | .enum => []
  | .type type => type.scalars

/-! ### Types -/

/-- The names with the role `role` that the text of `type` has. -/
def GoType.namesWith (role : NameRole) (type : GoType) : List String :=
  match role with
  | .declared => []
  | .constant => []
  | .mentioned => type.names
  | .builtin => type.scalars.map scalarName

/-- The names with the role `role` that the types of `members` have. -/
def GoType.memberNamesWith (role : NameRole) (members : List (Member GoType)) : List String :=
  match role with
  | .declared => []
  | .constant => []
  | .mentioned => GoType.memberNames members
  | .builtin => (GoType.memberScalars members).map scalarName

variable (role : NameRole)

private theorem namesOf_docParts (level : Nat) (docs : List String) :
    namesOf role (docParts level docs) = [] := by
  induction docs with
  | nil => rfl
  | cons line docs ih => exact ih

private theorem RowParts.namesOf_parts (level nameWidth typeWidth : Nat) (r : RowParts) :
    namesOf role (r.parts level nameWidth typeWidth) = namesOf role r.type := by
  unfold RowParts.parts
  rw [namesOf_append, namesOf_docParts]
  split
  · simp [namesOf, FilePart.names]
  · simp [namesOf, FilePart.names]

private theorem namesOf_runParts (level : Nat) (run : List RowParts) :
    namesOf role (runParts level run) = run.flatMap fun r => namesOf role r.type := by
  simp only [runParts, namesOf_flatMap, RowParts.namesOf_parts]

private theorem namesOf_furtherRunsParts (level : Nat) (runs : List (List RowParts)) :
    namesOf role (furtherRunsParts level runs) =
      runs.flatten.flatMap fun r => namesOf role r.type := by
  induction runs with
  | nil => rfl
  | cons run runs ih =>
    have hblank : namesOf role
        (if opensWithDocs (run.map (·.row)) then [.code ("" ++ "\n")] else []) = [] := by
      split <;> rfl
    rw [furtherRunsParts, namesOf_append, namesOf_append, hblank, List.nil_append,
      namesOf_runParts, ih, List.flatten_cons, List.flatMap_append]

/-- However `rows` are aligned, they have the names of their types in order. -/
theorem namesOf_rowsParts (level : Nat) (rows : List RowParts) :
    namesOf role (rowsParts level rows) = rows.flatMap fun r => namesOf role r.type := by
  unfold rowsParts
  have hflatten := List.flatten_splitBy (fun a b : RowParts => a.row.continues b.row) rows
  cases hruns : rows.splitBy fun a b => a.row.continues b.row with
  | nil =>
    rw [hruns] at hflatten
    rw [← hflatten]
    rfl
  | cons run runs =>
    rw [hruns] at hflatten
    dsimp only
    rw [namesOf_append, namesOf_runParts, namesOf_furtherRunsParts, ← List.flatMap_append,
      ← List.flatten_cons, hflatten]

mutual

/-- The text of `type` has the names that it mentions, and one for each leaf type. -/
theorem namesOf_typeParts (level : Nat) : ∀ type : GoType,
    namesOf role (typeParts level type) = type.namesWith role
  | .scalar kind => by
    cases role <;> simp [typeParts, GoType.namesWith, GoType.names, GoType.scalars, namesOf,
      FilePart.names]
  | .named name => by
    cases role <;> simp [typeParts, GoType.namesWith, GoType.names, GoType.scalars, namesOf,
      FilePart.names]
  | .pointer target => by
    rw [typeParts, namesOf_cons, namesOf_typeParts level target]
    cases role <;> simp [GoType.namesWith, GoType.names, GoType.scalars, FilePart.names]
  | .slice items => by
    rw [typeParts, namesOf_cons, namesOf_typeParts level items]
    cases role <;> simp [GoType.namesWith, GoType.names, GoType.scalars, FilePart.names]
  | .map values => by
    rw [typeParts, namesOf_cons, namesOf_typeParts level values]
    cases role <;> simp [GoType.namesWith, GoType.names, GoType.scalars, FilePart.names]
  | .struct [] => by
    cases role <;> simp [typeParts, GoType.namesWith, GoType.names, GoType.scalars,
      GoType.memberNames, GoType.memberScalars, namesOf, FilePart.names]
  | .struct (member :: members) => by
    rw [typeParts, namesOf_cons, namesOf_append, namesOf_rowsParts,
      namesOf_rowPartsOf (level + 1) (member :: members)]
    cases role <;> simp [GoType.namesWith, GoType.memberNamesWith, GoType.names, GoType.scalars,
      namesOf, FilePart.names]

theorem namesOf_rowPartsOf (level : Nat) : ∀ members : List (Member GoType),
    ((rowPartsOf level members).flatMap fun r => namesOf role r.type) =
      GoType.memberNamesWith role members
  | [] => by
    cases role <;> simp [rowPartsOf, GoType.memberNamesWith, GoType.memberNames,
      GoType.memberScalars]
  | ⟨docs, key, name, type, omitEmpty⟩ :: members => by
    rw [rowPartsOf, List.flatMap_cons, namesOf_rowPartsOf level members,
      namesOf_typeParts level type]
    cases role <;> simp [GoType.namesWith, GoType.memberNamesWith, GoType.memberNames,
      GoType.memberScalars]

end

/-! ### Declarations -/

/-- The names with the role `role` in the declaration `t`. -/
def TypeDeclaration.namesWith (role : NameRole) (t : TypeDeclaration) : List String :=
  match role with
  | .declared => [t.name]
  | .constant => []
  | .mentioned => t.mentions
  | .builtin => t.scalars.map scalarName

/-- The names with the role `role` in the block of constants `b`. Each constant is written with its
type. -/
def ConstantBlock.namesWith (role : NameRole) (b : ConstantBlock) : List String :=
  match role with
  | .declared => []
  | .constant => b.constants.map (·.1)
  | .mentioned => b.constants.map fun _ => b.type
  | .builtin => []

private theorem namesOf_declarationParts (t : TypeDeclaration) :
    namesOf role (declarationParts t) = t.namesWith role := by
  obtain ⟨name, docs, underlying⟩ := t
  -- The comment above a declaration repeats its name, but only as text.
  have hcomment : namesOf role (typeCommentParts name docs) = [] := by
    cases docs with
    | nil => rfl
    | cons first rest => exact namesOf_docParts role 0 rest
  rw [declarationParts, namesOf_append, hcomment]
  cases underlying with
  | struct members =>
    simp only [underlyingParts, namesOf_cons, namesOf_append, namesOf_rowsParts,
      namesOf_rowPartsOf]
    cases role <;> simp [TypeDeclaration.namesWith, TypeDeclaration.mentions,
      TypeDeclaration.scalars, GoType.memberNamesWith, namesOf, FilePart.names]
  | enum =>
    cases role <;> simp [underlyingParts, TypeDeclaration.namesWith, TypeDeclaration.mentions,
      TypeDeclaration.scalars, namesOf, FilePart.names]
  | type type =>
    simp only [underlyingParts, namesOf_cons, namesOf_append, namesOf_typeParts]
    cases role <;> simp [TypeDeclaration.namesWith, TypeDeclaration.mentions,
      TypeDeclaration.scalars, GoType.namesWith, namesOf, FilePart.names]

private theorem namesOf_blockParts (b : ConstantBlock) :
    namesOf role (blockParts b) = b.namesWith role := by
  have hlines (width : Nat) : namesOf role (b.constants.flatMap (constantParts b.type width)) =
      b.namesWith role := by
    rw [namesOf_flatMap]
    cases role <;> simp [constantParts, ConstantBlock.namesWith, namesOf, FilePart.names,
      List.map_eq_flatMap, -List.map_const']
  rw [blockParts, namesOf_cons, namesOf_append, hlines]
  exact List.append_nil _

/-! ### Files -/

private theorem namesOf_fileParts (f : File) : namesOf role (fileParts f) =
    f.blocks.flatMap (·.namesWith role) ++ f.types.flatMap (·.namesWith role) := by
  simp only [fileParts, openingParts, namesOf_append, namesOf_flatMap, namesOf_cons,
    namesOf_blockParts, namesOf_declarationParts]
  simp [namesOf, FilePart.names]

/-- The text that opens `f`: the clause of its package, and its import. -/
def openingText (f : File) : String :=
  "package " ++ f.package ++ "\n" ++ if f.usesTime then "\nimport (\n\t\"time\"\n)\n" else ""

/-- Behind its opening, the text of `f` has the blocks of constants and then the declarations, each
once, in order and behind a blank line. -/
theorem fileText_eq (f : File) : fileText f = openingText f ++
    String.join ((f.blocks.map blockText ++ f.types.map declarationText).map ("\n" ++ ·)) := by
  rw [fileText, openingText, List.map_append, String.join_append, List.map_map, List.map_map,
    ← String.append_assoc]
  rfl

/-- That `text` is the one of the file `f`: its parts make it up; behind the opening, it has each
block of constants and each declaration once, in order; and the names in it are those of the types
that the file declares, of its constants, of the types that are mentioned, and of the leaf types, a
name for each. -/
structure Prints (f : File) (text : String) : Prop where
  text_eq : text = outputOf (fileParts f)
  sections : text = openingText f ++
    String.join ((f.blocks.map blockText ++ f.types.map declarationText).map ("\n" ++ ·))
  declared : namesOf .declared (fileParts f) = f.types.map (·.name)
  constants : namesOf .constant (fileParts f) = f.constants
  mentioned : namesOf .mentioned (fileParts f) =
    (f.blocks.flatMap fun b => b.constants.map fun _ => b.type) ++ f.types.flatMap (·.mentions)
  builtin : namesOf .builtin (fileParts f) =
    f.types.flatMap fun t => t.scalars.map scalarName

/-- The text of `f` is that of the file. -/
theorem prints_fileText (f : File) : Prints f (fileText f) := by
  refine ⟨(outputOf_fileParts f).symm, fileText_eq f, ?_, ?_, ?_, ?_⟩ <;> rw [namesOf_fileParts]
  · simp [ConstantBlock.namesWith, TypeDeclaration.namesWith, List.map_eq_flatMap]
  · simp [ConstantBlock.namesWith, TypeDeclaration.namesWith, File.constants]
  · simp [ConstantBlock.namesWith, TypeDeclaration.namesWith]
  · simp [ConstantBlock.namesWith, TypeDeclaration.namesWith]

end KindSchema.Go
