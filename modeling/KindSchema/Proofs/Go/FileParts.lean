import Mathlib.Data.List.SplitBy
import KindSchema.Proofs.Go.DeclaredNames
import KindSchema.Proofs.Text.Comments

/-!
# The parts of Go files

The text of a Go file as parts, in which the documentation and the names of types and constants can
be told from the code around them.

* `outputOf_fileParts`: the parts make up the text of the file.
* `isLaid_fileParts`: every comment begins on a new line. Rows of members are whole lines, and a
  type can stand anywhere on a line, by induction on types.
* `commentsOf_fileParts`: the comments among the parts are those of the file, which are read off its
  types alone. How rows are aligned does not matter to them.
-/

namespace KindSchema.Go

/-! ### Rows -/

/-- The line `line` of documentation at `level`. -/
def docComment (level : Nat) (line : String) : Comment :=
  if line = "" then ⟨tabs level ++ "//", ""⟩ else ⟨tabs level ++ "// ", line⟩

/-- The lines of `docs`, documentation at `level`. -/
def docParts (level : Nat) (docs : List String) : List FilePart :=
  (docs.map (docComment level)).map .comment

/-- A row whose type is made of parts. -/
structure RowParts where
  docs : List String
  name : String
  type : List FilePart
  tag : String

namespace RowParts

/-- The row that the parts `r` make up. -/
def row (r : RowParts) : Row where
  docs := r.docs
  name := r.name
  type := outputOf r.type
  tag := r.tag

/-- The parts of `r` at `level`, in columns of the widths `nameWidth` and `typeWidth`. -/
def parts (level nameWidth typeWidth : Nat) (r : RowParts) : List FilePart :=
  docParts level r.docs ++
    if r.row.isMultiline then
      .code (tabs level ++ r.name ++ " ") :: (r.type ++ [.code (" " ++ r.tag ++ "\n")])
    else
      .code (tabs level ++ padTo nameWidth r.name ++ " ") :: (r.type ++
        [.code (repeated (typeWidth - r.row.type.length) " " ++ " " ++ r.tag ++ "\n")])

end RowParts

/-- The parts of the rows of `run` at `level`, aligned. -/
def runParts (level : Nat) (run : List RowParts) : List FilePart :=
  run.flatMap (·.parts level (columnWidth (run.map (·.row.name)))
    (columnWidth (run.map (·.row.type))))

/-- The parts of the runs after the first, at `level`. -/
def furtherRunsParts (level : Nat) : List (List RowParts) → List FilePart
  | [] => []
  | run :: runs =>
    (if opensWithDocs (run.map (·.row)) then [.code ("" ++ "\n")] else []) ++ runParts level run ++
      furtherRunsParts level runs

/-- The parts of `rows` at `level`. -/
def rowsParts (level : Nat) (rows : List RowParts) : List FilePart :=
  match rows.splitBy fun a b => a.row.continues b.row with
  | [] => []
  | run :: runs => runParts level run ++ furtherRunsParts level runs

/-! ### Types -/

mutual

/-- The parts of a type that stands at `level`. -/
def typeParts (level : Nat) : GoType → List FilePart
  | .scalar kind => [.name .builtin (scalarName kind)]
  | .named name => [.name .mentioned name]
  | .pointer target => .code "*" :: typeParts level target
  | .slice items => .code "[]" :: typeParts level items
  | .map values => .code "map[string]" :: typeParts level values
  | .struct [] => [.code "struct\x7b\x7d"]
  | .struct (member :: members) =>
    .code ("struct \x7b" ++ "\n") ::
      (rowsParts (level + 1) (rowPartsOf (level + 1) (member :: members)) ++
        [.code (tabs level ++ "\x7d")])

/-- The rows of the members of a struct at `level`. -/
def rowPartsOf (level : Nat) : List (Member GoType) → List RowParts
  | [] => []
  | ⟨docs, key, name, type, omitEmpty⟩ :: members =>
    { docs, name, type := typeParts level type, tag := tagText key omitEmpty } ::
      rowPartsOf level members

end

/-! ### Files -/

/-- The comment of the type `name`, the first line of which starts with `name`. -/
def typeCommentParts (name : String) : List String → List FilePart
  | [] => [.code ("// " ++ name ++ " defines model for " ++ name ++ "." ++ "\n")]
  | first :: rest =>
    .comment ⟨if first = name ∨ (name ++ " ").isPrefixOf first then "// " else "// " ++ name ++ " ",
      first⟩ :: docParts 0 rest

/-- The parts of what follows the name in the declaration of a type. -/
def underlyingParts : Underlying → List FilePart
  | .struct members =>
    .code ("struct \x7b" ++ "\n") :: (rowsParts 1 (rowPartsOf 1 members) ++ [.code "\x7d"])
  | .enum => [.code "string"]
  | .type type => typeParts 0 type

/-- The parts of `d`. -/
def declarationParts (d : TypeDeclaration) : List FilePart :=
  typeCommentParts d.name d.docs ++
    .code "type " :: .name .declared d.name :: .code " " ::
      (underlyingParts d.underlying ++ [.code ("" ++ "\n")])

/-- The parts of the line of `constant`, of the given type, whose name fills a column of `width`. -/
def constantParts (type : String) (width : Nat) (constant : String × String) : List FilePart :=
  [.code "\t", .name .constant constant.1, .code (repeated (width - constant.1.length) " " ++ " "),
    .name .mentioned type, .code (" = " ++ stringLiteral constant.2 ++ "\n")]

/-- The parts of the block `b`. -/
def blockParts (b : ConstantBlock) : List FilePart :=
  .code ("// Defines values for " ++ b.type ++ ".\nconst (\n") ::
    (b.constants.flatMap (constantParts b.type (columnWidth (b.constants.map (·.1)))) ++
      [.code (")" ++ "\n")])

/-- The parts that open `f`: the clause of its package, and its import. -/
def openingParts (f : File) : List FilePart :=
  [.code ("package " ++ f.package ++ "\n"),
    .code (if f.usesTime then "\nimport (\n\t\"time\"\n)\n" else "")]

/-- The parts of `f`. -/
def fileParts (f : File) : List FilePart :=
  openingParts f ++ (f.blocks.flatMap fun b => .code ("" ++ "\n") :: blockParts b) ++
  f.types.flatMap fun d => .code ("" ++ "\n") :: declarationParts d

/-! ### The text of the parts -/

private theorem outputOf_docParts (level : Nat) (docs : List String) :
    outputOf (docParts level docs) = String.join (docs.map (commentLine level)) := by
  have hline (line : String) : (FilePart.comment (docComment level line)).output =
      commentLine level line := by
    unfold docComment commentLine
    split
    · rw [FilePart.output, String.append_assoc, String.append_assoc]
      rfl
    · rfl
  rw [outputOf, docParts, List.map_map, List.map_map]
  exact congrArg String.join (List.map_congr_left fun line _ => hline line)

private theorem RowParts.outputOf_parts (level nameWidth typeWidth : Nat) (r : RowParts) :
    outputOf (r.parts level nameWidth typeWidth) = r.row.text level nameWidth typeWidth := by
  unfold RowParts.parts Row.text
  rw [outputOf_append, outputOf_docParts]
  split
  · simp [FilePart.output, RowParts.row, String.append_assoc]
  · simp [FilePart.output, RowParts.row, padTo, String.append_assoc]

private theorem outputOf_runParts (level : Nat) (run : List RowParts) :
    outputOf (runParts level run) = runText level (run.map (·.row)) := by
  simp only [runParts, runText, outputOf_flatMap, RowParts.outputOf_parts, List.map_map]
  rfl

private theorem outputOf_furtherRunsParts (level : Nat) (runs : List (List RowParts)) :
    outputOf (furtherRunsParts level runs) =
      furtherRunsText level (runs.map (List.map (·.row))) := by
  induction runs with
  | nil => rfl
  | cons run runs ih =>
    rw [furtherRunsParts, outputOf_append, outputOf_append, outputOf_runParts, ih, List.map_cons,
      furtherRunsText]
    split <;> rfl

/-- Runs of elements of which something is known are runs of what is known. -/
private theorem splitBy_map {α β : Type} (f : α → β) (r : β → β → Bool) (xs : List α) :
    (xs.map f).splitBy r = (xs.splitBy fun a b => r (f a) (f b)).map (List.map f) := by
  -- The loop of `List.splitBy` has two accumulators, so the statement is made for all of them.
  have hloop (xs : List α) (a : α) (g : List α) (gs : List (List α)) :
      List.splitBy.loop r (xs.map f) (f a) (g.map f) (gs.map (List.map f)) =
        (List.splitBy.loop (fun a b => r (f a) (f b)) xs a g gs).map (List.map f) := by
    induction xs generalizing a g gs with
    | nil => simp [List.splitBy.loop]
    | cons b xs ih =>
      rw [List.map_cons, List.splitBy.loop, List.splitBy.loop]
      split
      · exact ih b (a :: g) gs
      · have := ih b [] ((a :: g).reverse :: gs)
        simpa using this
  cases xs with
  | nil => rfl
  | cons a xs => exact hloop xs a [] []

private theorem outputOf_rowsParts (level : Nat) (rows : List RowParts) :
    outputOf (rowsParts level rows) = rowsText level (rows.map (·.row)) := by
  unfold rowsParts rowsText
  rw [splitBy_map]
  cases rows.splitBy fun a b => a.row.continues b.row with
  | nil => rfl
  | cons run runs =>
    rw [outputOf_append, outputOf_runParts, outputOf_furtherRunsParts]
    rfl

mutual

/-- The parts of a type make up its text. -/
private theorem outputOf_typeParts (level : Nat) : ∀ type : GoType,
    outputOf (typeParts level type) = typeText level type
  | .scalar _ => by simp [typeParts, typeText, FilePart.output]
  | .named _ => by simp [typeParts, typeText, FilePart.output]
  | .pointer target => by
    rw [typeParts, typeText, outputOf_cons, outputOf_typeParts level target, FilePart.output]
  | .slice items => by
    rw [typeParts, typeText, outputOf_cons, outputOf_typeParts level items, FilePart.output]
  | .map values => by
    rw [typeParts, typeText, outputOf_cons, outputOf_typeParts level values, FilePart.output]
  | .struct [] => by simp [typeParts, typeText, FilePart.output]
  | .struct (member :: members) => by
    rw [typeParts, typeText, outputOf_cons, outputOf_append, outputOf_rowsParts,
      rows_rowPartsOf (level + 1) (member :: members)]
    simp [FilePart.output, String.append_assoc]

/-- The parts of some rows make up the rows. -/
private theorem rows_rowPartsOf (level : Nat) : ∀ members : List (Member GoType),
    (rowPartsOf level members).map (·.row) = rowsOf level members
  | [] => rfl
  | ⟨docs, key, name, type, omitEmpty⟩ :: members => by
    rw [rowPartsOf, rowsOf, List.map_cons, rows_rowPartsOf level members, RowParts.row,
      outputOf_typeParts level type]

end

private theorem outputOf_underlyingParts (u : Underlying) :
    outputOf (underlyingParts u) = underlyingText u := by
  cases u with
  | struct members =>
    rw [underlyingParts, underlyingText, outputOf_cons, outputOf_append, outputOf_rowsParts,
      rows_rowPartsOf]
    simp [FilePart.output, String.append_assoc]
  | enum => simp [underlyingParts, underlyingText, FilePart.output]
  | type type => exact outputOf_typeParts 0 type

private theorem outputOf_typeCommentParts (name : String) (docs : List String) :
    outputOf (typeCommentParts name docs) = typeComment name docs := by
  cases docs with
  | nil => simp [typeCommentParts, typeComment, FilePart.output, String.append_assoc]
  | cons first rest =>
    rw [typeCommentParts, typeComment, outputOf_cons, outputOf_docParts, FilePart.output]
    split <;> rfl

private theorem outputOf_declarationParts (d : TypeDeclaration) :
    outputOf (declarationParts d) = declarationText d := by
  rw [declarationParts, declarationText, outputOf_append, outputOf_typeCommentParts, outputOf_cons,
    outputOf_cons, outputOf_cons, outputOf_append, outputOf_underlyingParts]
  simp [FilePart.output, String.append_assoc]

private theorem outputOf_constantParts (type : String) (width : Nat) (constant : String × String) :
    outputOf (constantParts type width constant) =
      "\t" ++ padTo width constant.1 ++ " " ++ type ++ " = " ++ stringLiteral constant.2 ++
        "\n" := by
  simp only [constantParts, outputOf_cons, outputOf_nil, FilePart.output, padTo,
    String.append_assoc, String.append_empty]

private theorem outputOf_blockParts (b : ConstantBlock) :
    outputOf (blockParts b) = blockText b := by
  rw [blockParts, outputOf_cons, outputOf_append, outputOf_flatMap]
  unfold blockText
  simp [outputOf_constantParts, FilePart.output, String.append_assoc]

/-- The parts of `f` make up its text. -/
theorem outputOf_fileParts (f : File) : outputOf (fileParts f) = fileText f := by
  rw [fileParts, fileText, outputOf_append, outputOf_append, outputOf_flatMap, outputOf_flatMap]
  simp only [outputOf_cons, outputOf_blockParts, outputOf_declarationParts]
  simp [openingParts, FilePart.output, String.append_assoc]

/-! ### Lines -/

private theorem isWhole_docParts (level : Nat) (docs : List String) :
    IsWhole (docParts level docs) :=
  .comments _

private theorem RowParts.isWhole_parts {r : RowParts} (h : IsInline r.type)
    (level nameWidth typeWidth : Nat) : IsWhole (r.parts level nameWidth typeWidth) := by
  refine (isWhole_docParts level r.docs).append ?_
  split
  · exact .enclosed h _ _
  · exact .enclosed h _ _

private theorem isWhole_runParts {level : Nat} {run : List RowParts}
    (h : ∀ r ∈ run, IsInline r.type) :
    IsWhole (runParts level run) :=
  .flatMap fun r hr => r.isWhole_parts (h r hr) _ _ _

private theorem isWhole_furtherRunsParts {level : Nat} {runs : List (List RowParts)}
    (h : ∀ run ∈ runs, ∀ r ∈ run, IsInline r.type) : IsWhole (furtherRunsParts level runs) := by
  induction runs with
  | nil => exact .nil
  | cons run runs ih =>
    obtain ⟨hrun, hruns⟩ := List.forall_mem_cons.mp h
    have hblank :
        IsWhole (if opensWithDocs (run.map (·.row)) then [.code ("" ++ "\n")] else []) := by
      split
      · exact .code ""
      · exact .nil
    exact (hblank.append (isWhole_runParts hrun)).append (ih hruns)

/-- Rows are whole lines if their types can stand anywhere on a line. -/
private theorem isWhole_rowsParts {level : Nat} {rows : List RowParts}
    (h : ∀ r ∈ rows, IsInline r.type) : IsWhole (rowsParts level rows) := by
  unfold rowsParts
  have hflatten := List.flatten_splitBy (fun a b : RowParts => a.row.continues b.row) rows
  cases hruns : rows.splitBy fun a b => a.row.continues b.row with
  | nil => exact .nil
  | cons run runs =>
    rw [hruns] at hflatten
    have hall : ∀ run' ∈ run :: runs, ∀ r ∈ run', IsInline r.type := fun run' hrun' r hr =>
      h r (hflatten ▸ List.mem_flatten.mpr ⟨run', hrun', hr⟩)
    obtain ⟨hrun, hruns⟩ := List.forall_mem_cons.mp hall
    exact (isWhole_runParts hrun).append (isWhole_furtherRunsParts hruns)

mutual

/-- A type can stand anywhere on a line. -/
private theorem isInline_typeParts (level : Nat) : ∀ type : GoType, IsInline (typeParts level type)
  | .scalar _ => fun _ => trivial
  | .named _ => fun _ => trivial
  | .pointer target => fun _ => isInline_typeParts level target _
  | .slice items => fun _ => isInline_typeParts level items _
  | .map values => fun _ => isInline_typeParts level values _
  | .struct [] => fun _ => trivial
  | .struct (member :: members) =>
    (isWhole_rowsParts (isInline_rowPartsOf (level + 1) (member :: members))).isInline _ _

private theorem isInline_rowPartsOf (level : Nat) : ∀ members : List (Member GoType),
    ∀ r ∈ rowPartsOf level members, IsInline r.type
  | [] => fun _ hr => absurd hr List.not_mem_nil
  | ⟨docs, key, name, type, omitEmpty⟩ :: members => by
    rw [rowPartsOf]
    exact List.forall_mem_cons.mpr
      ⟨isInline_typeParts level type, isInline_rowPartsOf level members⟩

end

private theorem isInline_underlyingParts (u : Underlying) : IsInline (underlyingParts u) := by
  cases u with
  | struct members => exact (isWhole_rowsParts (isInline_rowPartsOf 1 members)).isInline _ _
  | enum => exact fun _ => trivial
  | type type => exact isInline_typeParts 0 type

private theorem isWhole_typeCommentParts (name : String) (docs : List String) :
    IsWhole (typeCommentParts name docs) := by
  cases docs with
  | nil => exact .code _
  | cons first rest => exact .comments (_ :: rest.map (docComment 0))

/-- The declaration of a type is whole lines. -/
private theorem isWhole_declarationParts (d : TypeDeclaration) : IsWhole (declarationParts d) := by
  have hline : IsInline (.code "type " :: .name .declared d.name :: .code " " ::
      underlyingParts d.underlying) := fun _ => isInline_underlyingParts d.underlying _
  exact (isWhole_typeCommentParts d.name d.docs).append (.ended hline "")

/-- A block of constants is whole lines. -/
private theorem isWhole_blockParts (b : ConstantBlock) : IsWhole (blockParts b) := by
  have hlines (width : Nat) (constants : List (String × String)) :
      IsInline (constants.flatMap (constantParts b.type width)) := by
    induction constants with
    | nil => exact fun _ => trivial
    | cons constant constants ih =>
      intro start
      rw [List.flatMap_cons, isLaid_append]
      exact ⟨trivial, ih _⟩
  rw [blockParts]
  exact .enclosed (hlines _ _) _ _

/-- In `f`, every comment begins on a new line. -/
theorem isLaid_fileParts (f : File) : IsLaid true (fileParts f) := by
  have hopening : IsWhole (openingParts f) := by
    unfold openingParts
    split
    · exact (IsWhole.code _).append (.code "\nimport (\n\t\"time\"\n)")
    · exact (IsWhole.code _).append ⟨trivial, rfl⟩
  have hblocks : IsWhole (f.blocks.flatMap fun b => .code ("" ++ "\n") :: blockParts b) :=
    .flatMap fun b _ => (IsWhole.code "").append (isWhole_blockParts b)
  have htypes : IsWhole (f.types.flatMap fun d => .code ("" ++ "\n") :: declarationParts d) :=
    .flatMap fun d _ => (IsWhole.code "").append (isWhole_declarationParts d)
  exact ((hopening.append hblocks).append htypes).laid

/-! ### Comments -/

mutual

/-- The comments in a type that stands at `level`. -/
def GoType.comments (level : Nat) : GoType → List Comment
  | .scalar _ => []
  | .named _ => []
  | .pointer target => comments level target
  | .slice items => comments level items
  | .map values => comments level values
  | .struct members => memberComments (level + 1) members

/-- The comments of the members of a struct at `level`, and those in their types. -/
def GoType.memberComments (level : Nat) : List (Member GoType) → List Comment
  | [] => []
  | ⟨docs, _, _, type, _⟩ :: members =>
    docs.map (docComment level) ++ type.comments level ++ memberComments level members

end

/-- The comments of the documentation of the type `name`. -/
def typeComments (name : String) : List String → List Comment
  | [] => []
  | first :: rest =>
    ⟨if first = name ∨ (name ++ " ").isPrefixOf first then "// " else "// " ++ name ++ " ",
      first⟩ :: rest.map (docComment 0)

/-- The comments of `d`. -/
def TypeDeclaration.comments (d : TypeDeclaration) : List Comment :=
  typeComments d.name d.docs ++
    match d.underlying with
    | .struct members => GoType.memberComments 1 members
    | .enum => []
    | .type type => type.comments 0

/-- The comments of `f`. -/
def File.comments (f : File) : List Comment :=
  f.types.flatMap (·.comments)

private theorem commentsOf_docParts (level : Nat) (docs : List String) :
    commentsOf (docParts level docs) = docs.map (docComment level) := by
  induction docs with
  | nil => rfl
  | cons line docs ih => exact congrArg (docComment level line :: ·) ih

/-- The comments of `r` at `level`. -/
def RowParts.comments (level : Nat) (r : RowParts) : List Comment :=
  r.docs.map (docComment level) ++ commentsOf r.type

private theorem RowParts.commentsOf_parts (level nameWidth typeWidth : Nat) (r : RowParts) :
    commentsOf (r.parts level nameWidth typeWidth) = r.comments level := by
  unfold RowParts.parts RowParts.comments
  rw [commentsOf_append, commentsOf_docParts]
  split
  · simp [commentsOf]
  · simp [commentsOf]

private theorem commentsOf_runParts (level : Nat) (run : List RowParts) :
    commentsOf (runParts level run) = run.flatMap (·.comments level) := by
  simp only [runParts, commentsOf_flatMap, RowParts.commentsOf_parts]

private theorem commentsOf_furtherRunsParts (level : Nat) (runs : List (List RowParts)) :
    commentsOf (furtherRunsParts level runs) = runs.flatten.flatMap (·.comments level) := by
  induction runs with
  | nil => rfl
  | cons run runs ih =>
    have hblank : commentsOf
        (if opensWithDocs (run.map (·.row)) then [.code ("" ++ "\n")] else []) = [] := by
      split <;> rfl
    rw [furtherRunsParts, commentsOf_append, commentsOf_append, hblank, List.nil_append,
      commentsOf_runParts, ih, List.flatten_cons, List.flatMap_append]

/-- However rows are aligned, they have their comments in order. -/
private theorem commentsOf_rowsParts (level : Nat) (rows : List RowParts) :
    commentsOf (rowsParts level rows) = rows.flatMap (·.comments level) := by
  unfold rowsParts
  have hflatten := List.flatten_splitBy (fun a b : RowParts => a.row.continues b.row) rows
  cases hruns : rows.splitBy fun a b => a.row.continues b.row with
  | nil =>
    rw [hruns] at hflatten
    rw [← hflatten]
    rfl
  | cons run runs =>
    rw [hruns] at hflatten
    dsimp only
    rw [commentsOf_append, commentsOf_runParts, commentsOf_furtherRunsParts, ← List.flatMap_append,
      ← List.flatten_cons, hflatten]

mutual

/-- The parts of a type have its comments. -/
private theorem commentsOf_typeParts (level : Nat) : ∀ type : GoType,
    commentsOf (typeParts level type) = type.comments level
  | .scalar _ => by rw [typeParts, GoType.comments]; rfl
  | .named _ => by rw [typeParts, GoType.comments]; rfl
  | .pointer target => by
    rw [typeParts, GoType.comments, commentsOf, commentsOf_typeParts level target]
  | .slice items => by
    rw [typeParts, GoType.comments, commentsOf, commentsOf_typeParts level items]
  | .map values => by
    rw [typeParts, GoType.comments, commentsOf, commentsOf_typeParts level values]
  | .struct [] => by rw [typeParts, GoType.comments, GoType.memberComments]; rfl
  | .struct (member :: members) => by
    rw [typeParts, GoType.comments, commentsOf, commentsOf_append, commentsOf_rowsParts,
      comments_rowPartsOf (level + 1) (member :: members)]
    exact List.append_nil _

private theorem comments_rowPartsOf (level : Nat) : ∀ members : List (Member GoType),
    (rowPartsOf level members).flatMap (·.comments level) = GoType.memberComments level members
  | [] => by rw [GoType.memberComments]; rfl
  | ⟨docs, key, name, type, omitEmpty⟩ :: members => by
    rw [rowPartsOf, List.flatMap_cons, comments_rowPartsOf level members, GoType.memberComments,
      RowParts.comments, commentsOf_typeParts level type]

end

private theorem commentsOf_declarationParts (d : TypeDeclaration) :
    commentsOf (declarationParts d) = d.comments := by
  have hdocs : commentsOf (typeCommentParts d.name d.docs) = typeComments d.name d.docs := by
    cases d.docs with
    | nil => rfl
    | cons first rest => exact congrArg _ (commentsOf_docParts 0 rest)
  have hunderlying : commentsOf (underlyingParts d.underlying) =
      match d.underlying with
      | .struct members => GoType.memberComments 1 members
      | .enum => []
      | .type type => type.comments 0 := by
    cases d.underlying with
    | struct members =>
      rw [underlyingParts, commentsOf, commentsOf_append, commentsOf_rowsParts,
        comments_rowPartsOf]
      exact List.append_nil _
    | enum => rfl
    | type type => exact commentsOf_typeParts 0 type
  rw [declarationParts, TypeDeclaration.comments, commentsOf_append, hdocs, commentsOf, commentsOf,
    commentsOf, commentsOf_append, hunderlying]
  exact congrArg _ (List.append_nil _)

private theorem commentsOf_blockParts (b : ConstantBlock) : commentsOf (blockParts b) = [] := by
  rw [blockParts, commentsOf, commentsOf_append, commentsOf_flatMap]
  simp [constantParts, commentsOf]

/-- The parts of `f` have its comments. -/
theorem commentsOf_fileParts (f : File) : commentsOf (fileParts f) = f.comments := by
  rw [fileParts, commentsOf_append, commentsOf_append, commentsOf_flatMap, commentsOf_flatMap]
  simp only [openingParts, commentsOf, commentsOf_blockParts, commentsOf_declarationParts]
  simp [File.comments]

end KindSchema.Go
