import KindSchema.Proofs.Go.FileParts
import KindSchema.Proofs.Run.Artifacts

/-!
# Documentation in Go files

Documentation and the header of a run stand in Go files as comments. Each line of documentation is
put behind a leader of its own, and so is the header.

* `File.map_text_comments`: the texts of the comments are the documentation, in order.
* `keepsComments_contentParts_iff`: their text is on lines that are comments exactly if it goes on
  as a comment after each line break of its own, as no leader is put there.
* `Rendering.mem_docs_iff`: the documentation in the files of a kind is that of its parts.
* `Pipeline.generate_comments`: so it is for whatever a pipeline generates.
-/

namespace KindSchema

namespace Go

/-! ### Documentation -/

mutual

/-- The documentation in a Go type. -/
def GoType.docs : GoType → List String
  | .scalar _ => []
  | .named _ => []
  | .pointer target => docs target
  | .slice items => docs items
  | .map values => docs values
  | .struct members => memberDocs members

/-- The documentation of some members and in their types. -/
def GoType.memberDocs : List (Member GoType) → List String
  | [] => []
  | ⟨docs, _, _, type, _⟩ :: members => docs ++ type.docs ++ memberDocs members

end

/-- The documentation of `d` and in its declaration. -/
def TypeDeclaration.allDocs (d : TypeDeclaration) : List String :=
  d.docs ++
    match d.underlying with
    | .struct members => GoType.memberDocs members
    | .enum => []
    | .type type => type.docs

/-- The documentation in `f`. -/
def File.docs (f : File) : List String :=
  f.types.flatMap (·.allDocs)

/-- A line of documentation is the text of its comment. -/
private theorem map_text_docComment (level : Nat) (docs : List String) :
    (docs.map (docComment level)).map (·.text) = docs := by
  have hline (line : String) : (docComment level line).text = line := by
    unfold docComment
    split
    · next h => exact h.symm
    · rfl
  rw [List.map_map]
  exact List.map_id'' hline docs

mutual

private theorem GoType.map_text_comments (level : Nat) : ∀ type : GoType,
    (type.comments level).map (·.text) = type.docs
  | .scalar _ => by rw [GoType.comments, GoType.docs]; rfl
  | .named _ => by rw [GoType.comments, GoType.docs]; rfl
  | .pointer target => by
    rw [GoType.comments, GoType.docs, GoType.map_text_comments level target]
  | .slice items => by
    rw [GoType.comments, GoType.docs, GoType.map_text_comments level items]
  | .map values => by
    rw [GoType.comments, GoType.docs, GoType.map_text_comments level values]
  | .struct members => by
    rw [GoType.comments, GoType.docs, GoType.map_text_memberComments (level + 1) members]

private theorem GoType.map_text_memberComments (level : Nat) : ∀ members : List (Member GoType),
    (GoType.memberComments level members).map (·.text) = GoType.memberDocs members
  | [] => by rw [GoType.memberComments, GoType.memberDocs]; rfl
  | ⟨docs, _, _, type, _⟩ :: members => by
    rw [GoType.memberComments, GoType.memberDocs, List.map_append, List.map_append,
      map_text_docComment, GoType.map_text_comments level type,
      GoType.map_text_memberComments level members]

end

private theorem TypeDeclaration.map_text_comments (d : TypeDeclaration) :
    d.comments.map (·.text) = d.allDocs := by
  have hdocs : (typeComments d.name d.docs).map (·.text) = d.docs := by
    cases d.docs with
    | nil => rfl
    | cons first rest => exact congrArg (first :: ·) (map_text_docComment 0 rest)
  rw [TypeDeclaration.comments, TypeDeclaration.allDocs, List.map_append, hdocs]
  cases d.underlying with
  | struct members => exact congrArg _ (GoType.map_text_memberComments 1 members)
  | enum => rfl
  | type type => exact congrArg _ (GoType.map_text_comments 0 type)

/-- The texts of the comments of `f` are its documentation. -/
theorem File.map_text_comments (f : File) : f.comments.map (·.text) = f.docs := by
  rw [File.comments, File.docs, List.map_flatMap]
  simp only [TypeDeclaration.map_text_comments]

/-! ### Leaders -/

private theorem toList_tabs (level : Nat) : (tabs level).toList = List.replicate level '\t' := by
  induction level with
  | zero => rfl
  | succ level ih =>
    rw [tabs, repeated, List.replicate_succ, String.join_cons, String.toList_append]
    exact congrArg ('\t' :: ·) ih

/-- What is a comment is one behind tabs. -/
private theorem isCommentLine_tabs {behind : String} (h : isCommentLine behind.toList = true)
    (level : Nat) : isCommentLine (tabs level ++ behind).toList = true := by
  have htabs : ∀ c ∈ (tabs level).toList, (c == '\t') = true := by
    intro c hc
    rw [toList_tabs] at hc
    exact beq_iff_eq.mpr (List.eq_of_mem_replicate hc)
  unfold isCommentLine at h ⊢
  rwa [String.toList_append, List.dropWhile_append_of_pos htabs]

/-- The leader of documentation makes it a comment and is on one line. -/
private theorem docComment_leader (level : Nat) (line : String) :
    isCommentLine (docComment level line).leader.toList = true ∧
      '\n' ∉ (docComment level line).leader.toList := by
  have hleader (behind : String) (h : behind = "//" ∨ behind = "// ") :
      isCommentLine (tabs level ++ behind).toList = true ∧
        '\n' ∉ (tabs level ++ behind).toList := by
    refine ⟨isCommentLine_tabs ?_ level, ?_⟩
    · rcases h with rfl | rfl <;> decide
    · rw [String.toList_append, toList_tabs, List.mem_append, not_or]
      refine ⟨fun hmem => absurd (List.eq_of_mem_replicate hmem) (by decide), ?_⟩
      rcases h with rfl | rfl <;> decide
  unfold docComment
  split
  · exact hleader _ (.inl rfl)
  · exact hleader _ (.inr rfl)

mutual

/-- The comments in a type are lines of documentation. -/
private theorem GoType.exists_docComment :
    ∀ (level : Nat) (type : GoType), ∀ c ∈ type.comments level,
    ∃ level line, c = docComment level line
  | _, .scalar _ => by
    rw [GoType.comments]
    exact fun c hc => absurd hc List.not_mem_nil
  | _, .named _ => by
    rw [GoType.comments]
    exact fun c hc => absurd hc List.not_mem_nil
  | level, .pointer target => by
    rw [GoType.comments]
    exact GoType.exists_docComment level target
  | level, .slice items => by
    rw [GoType.comments]
    exact GoType.exists_docComment level items
  | level, .map values => by
    rw [GoType.comments]
    exact GoType.exists_docComment level values
  | level, .struct members => by
    rw [GoType.comments]
    exact GoType.exists_docComment_of_members (level + 1) members

private theorem GoType.exists_docComment_of_members :
    ∀ (level : Nat) (members : List (Member GoType)),
    ∀ c ∈ GoType.memberComments level members, ∃ level line, c = docComment level line
  | _, [] => by
    rw [GoType.memberComments]
    exact fun c hc => absurd hc List.not_mem_nil
  | level, ⟨docs, _, _, type, _⟩ :: members => by
    rw [GoType.memberComments, List.forall_mem_append, List.forall_mem_append]
    refine ⟨⟨List.forall_mem_map.mpr fun line _ => ⟨level, line, rfl⟩, ?_⟩, ?_⟩
    · exact GoType.exists_docComment level type
    · exact GoType.exists_docComment_of_members level members

end

/-- The leaders in a declaration make comments, and are on one line if the name of the type is. -/
private theorem TypeDeclaration.leaders (d : TypeDeclaration) : ∀ c ∈ d.comments,
    isCommentLine c.leader.toList = true ∧
      ('\n' ∉ d.name.toList → '\n' ∉ c.leader.toList) := by
  have hdoc (level : Nat) (line : String) := docComment_leader level line
  rw [TypeDeclaration.comments, List.forall_mem_append]
  constructor
  -- The first line stands behind the name of the type, unless it begins with it.
  · cases d.docs with
    | nil => exact fun c hc => absurd hc List.not_mem_nil
    | cons first rest =>
      refine List.forall_mem_cons.mpr ⟨?_, List.forall_mem_map.mpr fun line _ => ?_⟩
      · have hslashes : isCommentLine "// ".toList = true := by decide
        dsimp only
        split
        · exact ⟨hslashes, fun _ => by decide⟩
        · refine ⟨?_, fun hname => ?_⟩
          · rw [String.toList_append, String.toList_append]
            exact isCommentLine_append (isCommentLine_append hslashes _) _
          · simpa [String.toList_append] using hname
      · exact ⟨(hdoc 0 line).1, fun _ => (hdoc 0 line).2⟩
  · have hunderlying : ∀ c ∈ (match d.underlying with
        | .struct members => GoType.memberComments 1 members
        | .enum => []
        | .type type => type.comments 0), ∃ level line, c = docComment level line := by
      cases d.underlying with
      | struct members => exact GoType.exists_docComment_of_members 1 members
      | enum => exact fun c hc => absurd hc List.not_mem_nil
      | type type => exact GoType.exists_docComment 0 type
    intro c hc
    obtain ⟨level, line, rfl⟩ := hunderlying c hc
    exact ⟨(hdoc level line).1, fun _ => (hdoc level line).2⟩

/-! ### Files -/

/-- The parts of the header that names the main generator by `main` and the generator `g` of a
file. -/
def headerParts (g : Generator) (main : String) : List FilePart :=
  [.code ("// Code generated - EDITING IS FUTILE. DO NOT EDIT.\n//\n// Generated by:" ++ "\n"),
    .comment ⟨"//     ", withSlashes main⟩,
    .code ("// Using generator:\n//     " ++ g.name ++ "\n" ++ "\n")]

/-- The parts of the file `f` of `g` with its `header`, if it has one. -/
def contentParts (header : Option String) (g : Generator) (f : File) : List FilePart :=
  header.toList.flatMap (headerParts g) ++ fileParts f

/-- The texts that are put into `f` as comments, with its `header`. -/
def commentTexts (header : Option String) (f : File) : List String :=
  header.toList.map withSlashes ++ f.docs

section Content

variable (header : Option String) (g : Generator) (f : File)

/-- The parts of a file make up its content. -/
private theorem outputOf_contentParts {path : Path} (h : commentLeader? path = some "//") :
    outputOf (contentParts header g f) =
      match header with
      | some main => withHeader path main g.name (fileText f)
      | none => fileText f := by
  rw [contentParts, outputOf_append, outputOf_fileParts]
  cases header with
  | none => exact String.empty_append
  | some main =>
    have hheader : outputOf (headerParts g main) ++ fileText f =
        withHeader path main g.name (fileText f) := by
      rw [← String.toList_inj]
      simp [headerParts, withHeader, h, FilePart.output]
    simpa using hheader

private theorem isLaid_contentParts : IsLaid true (contentParts header g f) := by
  have hheader : IsWhole (header.toList.flatMap (headerParts g)) :=
    .flatMap fun main _ => ((IsWhole.code _).append (.comments [_])).append (.code _)
  refine isLaid_append.mpr ⟨hheader.laid, ?_⟩
  rw [hheader.ends]
  exact isLaid_fileParts f

private theorem commentsOf_contentParts : commentsOf (contentParts header g f) =
    header.toList.map (fun main => ⟨"//     ", withSlashes main⟩) ++ f.comments := by
  rw [contentParts, commentsOf_append, commentsOf_fileParts]
  cases header <;> rfl

/-- The comments of a file have the header and the documentation as their texts. -/
private theorem map_text_contentParts :
    (commentsOf (contentParts header g f)).map (·.text) = commentTexts header f := by
  rw [commentsOf_contentParts, List.map_append, File.map_text_comments, List.map_map]
  rfl

/-- The text of the comments is on lines that are comments exactly if that of each comment is. -/
private theorem keepsComments_contentParts_iff_forall :
    KeepsComments (markedOf (contentParts header g f)) ↔
      ∀ c ∈ commentsOf (contentParts header g f), KeepsComments c.marked :=
  keepsComments_markedOf_iff (isLaid_contentParts header g f)

variable {header} {f}

/-- Where no type has a name with a line break, the text of the comments is on lines that are
comments exactly if it goes on as a comment after its own line breaks. -/
theorem keepsComments_contentParts_iff (hnames : ∀ t ∈ f.types, '\n' ∉ t.name.toList) :
    KeepsComments (markedOf (contentParts header g f)) ↔
      ∀ text ∈ commentTexts header f, ContinuesComment text := by
  have hleaders : ∀ c ∈ commentsOf (contentParts header g f),
      isCommentLine c.leader.toList = true ∧ '\n' ∉ c.leader.toList := by
    rw [commentsOf_contentParts, List.forall_mem_append]
    constructor
    · have hheader : isCommentLine "//     ".toList = true ∧ '\n' ∉ "//     ".toList := by decide
      exact List.forall_mem_map.mpr fun _ _ => hheader
    · intro c hc
      obtain ⟨t, ht, hc⟩ := List.mem_flatMap.mp hc
      obtain ⟨hcomment, hbreak⟩ := t.leaders c hc
      exact ⟨hcomment, hbreak (hnames t ht)⟩
  rw [keepsComments_contentParts_iff_forall, ← map_text_contentParts header g f,
    List.forall_mem_map]
  refine forall₂_congr fun c hc => ?_
  obtain ⟨hcomment, hbreak⟩ := hleaders c hc
  exact Comment.keepsComments_iff hcomment hbreak

end Content

end Go

/-! ### The documentation of a kind -/

namespace Shape

mutual

/-- The documentation of the fields in a shape, at any depth. -/
def docs : Shape → List String
  | .scalar _ => []
  | .enum _ => []
  | .array items => docs items
  | .map values => docs values
  | .struct fields => fieldDocs fields
  | .named _ => []

/-- The documentation of some fields and in their types. -/
def fieldDocs : List (Field Shape) → List String
  | [] => []
  | ⟨_, type, _, docs⟩ :: fields => docs ++ type.docs ++ fieldDocs fields

end

end Shape

/-- The documentation of the fields in a body. -/
def Body.docs : Body → List String
  | .struct fields => Shape.fieldDocs fields
  | .enum _ => []
  | .synonym shape => shape.docs

namespace Go

mutual

/-- A Go type has the documentation of its shape. -/
private theorem IsTypeOf.docs : ∀ {shape : Shape} {type : GoType},
    IsTypeOf shape type → type.docs = shape.docs
  | _, _, .scalar _ => by rw [GoType.docs, Shape.docs]
  | _, _, .named _ => by rw [GoType.docs, Shape.docs]
  | _, _, .array h => by rw [GoType.docs, Shape.docs, IsTypeOf.docs h]
  | _, _, .map h => by rw [GoType.docs, Shape.docs, IsTypeOf.docs h]
  | _, _, .struct h => by rw [GoType.docs, Shape.docs, AreMembersOf.docs h]

/-- The members of a Go struct have the documentation of the fields. -/
private theorem AreMembersOf.docs :
    ∀ {fields : List (Field Shape)} {members : List (Member GoType)},
    AreMembersOf fields members → GoType.memberDocs members = Shape.fieldDocs fields
  | _, _, .nil => by rw [GoType.memberDocs, Shape.fieldDocs]
  | _, _, @AreMembersOf.cons f name type _ _ _ htype hmembers => by
    have hpointer : (memberOf f name type).type.docs = type.docs :=
      memberOf_type_of_pointer (fun t => by rw [GoType.docs]) f name type
    rw [GoType.memberDocs, Shape.fieldDocs, hpointer, IsTypeOf.docs htype,
      AreMembersOf.docs hmembers]
    rfl

end

private theorem IsDeclarationOf.allDocs {name : String} {docs : List String} {body : Body}
    {t : TypeDeclaration} (h : IsDeclarationOf name docs body t) :
    t.allDocs = docs ++ body.docs := by
  obtain ⟨name, docs, underlying⟩ := t
  obtain ⟨-, rfl, hunderlying⟩ := h
  cases hunderlying with
  | struct hmembers => exact congrArg (docs ++ ·) hmembers.docs
  | enum values => rfl
  | synonym htype => exact congrArg (docs ++ ·) htype.docs

section Declarations

variable {name : String} {docs : List String} {t : TypeDeclaration}

private theorem structDeclaration_docs {fields : List (Field Shape)}
    (h : structDeclaration name docs fields = .ok t) :
    t.allDocs = docs ++ Shape.fieldDocs fields :=
  (isDeclarationOf_of_structDeclaration h).allDocs

private theorem shapeDeclaration_docs {shape : Shape}
    (h : shapeDeclaration name docs shape = .ok t) :
    t.allDocs = docs ++ shape.docs :=
  (isDeclarationOf_of_shapeDeclaration h).allDocs

/-- The Go declaration of a declaration has its documentation. -/
private theorem typeDeclaration_docs {d : Declaration} (h : typeDeclaration d = .ok t) :
    t.allDocs = d.docs ++ d.body.docs :=
  (isDeclarationOf_of_typeDeclaration h).allDocs

private theorem Declares.allDocs {declarations : List Declaration} {types : List TypeDeclaration}
    (h : Declares declarations types) : types.flatMap (·.allDocs) =
      declarations.flatMap fun d => d.docs ++ d.body.docs := by
  induction h with
  | nil => rfl
  | cons hd _ ih => rw [List.flatMap_cons, List.flatMap_cons, ih, typeDeclaration_docs hd]

private theorem DeclaresSections.allDocs {sections : List (Field Shape)}
    {roots : List TypeDeclaration} (h : DeclaresSections sections roots) :
    roots.flatMap (·.allDocs) = Shape.fieldDocs sections := by
  induction h with
  | nil => rw [List.flatMap_nil, Shape.fieldDocs]
  | cons hf _ ih => rw [List.flatMap_cons, ih, shapeDeclaration_docs hf, Shape.fieldDocs]

/-- Files have the documentation of their own types and of the declarations. -/
private theorem Covers.mem_docs_iff {files : List File} {own : List TypeDeclaration}
    {declarations : List Declaration} (h : Covers files own declarations) {text : String} :
    text ∈ files.flatMap (·.docs) ↔ text ∈ own.flatMap (·.allDocs) ∨
      text ∈ declarations.flatMap fun d => d.docs ++ d.body.docs := by
  obtain ⟨types, hdeclares, hperm⟩ := h.types
  have hdocs : files.flatMap (·.docs) = (files.flatMap (·.types)).flatMap (·.allDocs) :=
    List.flatMap_assoc.symm
  rw [hdocs, (hperm.flatMap_right _).mem_iff, List.flatMap_append, List.mem_append,
    hdeclares.allDocs]

end Declarations

/-- The documentation that the files of `r` have to write: the description, that of the sections and
their fields, and that of the declarations which these depend on. -/
def writtenDocs (params : Params) (r : ResolvedKind) : List String :=
  r.description ++ Shape.fieldDocs (r.presented params).envelope ++
    (r.presented params).reachableDeclarations.flatMap fun d => d.docs ++ d.body.docs

/-- The struct of a kind repeats what the sections themselves are documented with. -/
private theorem mem_fieldDocs_of_sectionMembers {r : ResolvedKind} {text : String}
    (h : text ∈ Shape.fieldDocs (sectionMembers r)) : text ∈ Shape.fieldDocs r.envelope := by
  rw [sectionMembers] at h
  generalize r.envelope = sections at h ⊢
  induction sections with
  | nil => exact h
  | cons f sections ih =>
    obtain ⟨name, type, optional, docs⟩ := f
    rw [List.map_cons, Field.withType, Shape.fieldDocs, Shape.docs, List.append_nil,
      List.mem_append] at h
    rw [Shape.fieldDocs, List.append_assoc, List.mem_append, List.mem_append]
    exact h.imp_right fun h => .inr (ih h)

/-- The documentation in `files`, the files of `k`, is that of the kind and its parts. -/
theorem Rendering.mem_docs_iff {policy : Policy} {k : Kind} {r : ResolvedKind} {params : Params}
    {files : List File} (h : k.resolve policy = .ok r) (hfiles : Rendering params r files)
    {text : String} : text ∈ files.flatMap (·.docs) ↔ text ∈ writtenDocs params r := by
  rw [writtenDocs, List.mem_append]
  cases hfiles with
  | types hfile =>
    obtain ⟨root, hroot, hcovers⟩ := fileOf_covers hfile
    rw [hcovers.mem_docs_iff, List.flatMap_singleton, structDeclaration_docs hroot]
  | sections hfiles =>
    obtain ⟨root, roots, hroot, hroots, hcovers⟩ :=
      sectionFiles_declares (Kind.resolve_nodup h) hfiles
    rw [hcovers.mem_docs_iff, List.flatMap_cons, structDeclaration_docs hroot, hroots.allDocs,
      List.mem_append, List.mem_append, List.mem_append]
    have hmembers : text ∈ Shape.fieldDocs (sectionMembers (r.presented params)) → _ :=
      mem_fieldDocs_of_sectionMembers
    tauto

/-! ### Generated files -/

/-- That `f` with `header` is the Go file whose content is `content`, and what its comments are:
their texts are the header and the documentation, and stay on lines that are comments exactly if
each comment does for itself. Names of types aside, this is so if texts go on as comments after line
breaks, and in particular if they have none. -/
structure IsCommented (header : Option String) (g : Generator) (f : File) (content : String) :
    Prop where
  characters_eq : (markedOf (contentParts header g f)).map (·.1) = content.toList
  texts_eq : (commentsOf (contentParts header g f)).map (·.text) = commentTexts header f
  keeps_iff_forall : KeepsComments (markedOf (contentParts header g f)) ↔
    ∀ c ∈ commentsOf (contentParts header g f), KeepsComments c.marked
  keeps_iff : (∀ t ∈ f.types, '\n' ∉ t.name.toList) →
    (KeepsComments (markedOf (contentParts header g f)) ↔
      ∀ text ∈ commentTexts header f, ContinuesComment text)
  keeps_of_not_mem : (∀ t ∈ f.types, '\n' ∉ t.name.toList) →
    (∀ text ∈ commentTexts header f, '\n' ∉ text.toList) →
      KeepsComments (markedOf (contentParts header g f))

/-- A generator of Go makes of a kind the text of its Go files. -/
private theorem render_eq_ok {g : Generator} (hg : g = .goTypes ∨ g = .goSectionTypes)
    {params : Params} {r : ResolvedKind} {files : List RenderedFile}
    (h : g.render params r = .ok files) :
    ∃ goFiles, Rendering params r goFiles ∧
      List.Forall₂ (fun file f => file.content = fileText f) files goFiles := by
  rcases hg with rfl | rfl
  · obtain ⟨file, hfile, rfl⟩ := bind_return_eq_ok.mp h
    exact ⟨[file], .types hfile, .cons rfl .nil⟩
  · obtain ⟨goFiles, hfiles, rfl⟩ := bind_return_eq_ok.mp h
    refine ⟨_, .sections hfiles, ?_⟩
    rw [List.forall₂_map_left_iff, List.forall₂_map_right_iff]
    exact List.forall₂_same.mpr fun _ _ => rfl

end Go

namespace Pipeline

variable {p : Pipeline} {k : Kind} {g : Generator} {v : Variant} {files : List GeneratedFile}
  (hg : g = .goTypes ∨ g = .goSectionTypes) (h : p.generate k g v = .ok files)
include hg h

/-- The path of a Go file says that comments begin with two slashes. -/
private theorem commentLeader?_of_mem_generate {file : GeneratedFile} (hfile : file ∈ files) :
    commentLeader? file.path = some "//" := by
  -- Each ending has a stem, so that no file is a dot file without an extension.
  have hendings : ∀ ending ∈ g.endings, ∃ stem, ending = stem ++ "." ++ "go" ∧ stem ≠ "" := by
    rcases hg with rfl | rfl
    · exact List.forall_mem_singleton.mpr ⟨"_types_gen", by decide⟩
    · simp only [Generator.endings, List.forall_mem_cons]
      exact ⟨⟨"_gen", by decide⟩, ⟨"_metadata_gen", by decide⟩, ⟨"_spec_gen", by decide⟩,
        ⟨"_status_gen", by decide⟩, fun ending hending => absurd hending List.not_mem_nil⟩
  have hperKind : g.isAggregate = false := by rcases hg with rfl | rfl <;> rfl
  obtain ⟨name, hname, hartifact⟩ := exists_artifact_of_mem_generate hperKind h hfile
  obtain ⟨ending, hending, rfl⟩ := List.mem_map.mp hname
  obtain ⟨stem, rfl, hstem⟩ := hendings ending hending
  have hpath : file.path.fileName? = some (k.machineName ++ stem ++ "." ++ "go") := by
    rw [hartifact.path_eq, hartifact.proper.fileName?_path]
    simp only [String.append_assoc]
  have hextension : file.path.extension? = some "go" :=
    Path.extension?_eq_some hpath (by simpa using fun _ => hstem) (by decide)
  rw [commentLeader?, hextension]
  rfl

/-- What a generator of Go generates of `k`. The texts of the comments in the files are the header,
and the documentation of the kind and its parts. They stay on lines that are comments exactly if
they go on as comments after their own line breaks. -/
theorem generate_comments : ∃ r goFiles, k.resolve .nominal = .ok r ∧
    Go.Rendering v.effective r goFiles ∧
    (∀ text, text ∈ goFiles.flatMap (·.docs) ↔ text ∈ Go.writtenDocs v.effective r) ∧
    List.Forall₂ (fun file f => Go.IsCommented v.effective.header g f file.content) files
      goFiles := by
  have hleaders : ∀ file ∈ files, commentLeader? file.path = some "//" :=
    fun file hfile => commentLeader?_of_mem_generate hg h hfile
  obtain ⟨r, hr, h⟩ := bind_eq_ok.mp h
  obtain ⟨rendered, hrendered, h⟩ := bind_eq_ok.mp h
  cases h
  have hresolve : k.resolve .nominal = .ok r := by
    rcases hg with rfl | rfl <;> exact mapError_eq_ok.mp hr
  obtain ⟨goFiles, hfiles, hcontents⟩ := Go.render_eq_ok hg (mapError_eq_ok.mp hrendered)
  refine ⟨r, goFiles, hresolve, hfiles, fun _ => hfiles.mem_docs_iff hresolve, ?_⟩
  -- The leader is read from the path and the parts from the content.
  rw [List.forall₂_map_left_iff]
  have hall := (List.forall₂_and_left ..).mpr ⟨List.forall_mem_map.mp hleaders, hcontents⟩
  refine hall.imp fun file f ⟨hleader, hcontent⟩ => ⟨?_, ?_, ?_, ?_, ?_⟩
  · rw [map_markedOf, Go.outputOf_contentParts _ g f hleader, ← hcontent]
    rfl
  · exact Go.map_text_contentParts _ g f
  · exact Go.keepsComments_contentParts_iff_forall _ g f
  · exact Go.keepsComments_contentParts_iff g
  · exact fun hnames htexts => (Go.keepsComments_contentParts_iff g hnames).mpr fun text htext =>
      continuesComment_of_not_mem (htexts text htext)

end Pipeline

namespace Sample

/-- A kind with a field whose one line of documentation has a line break. -/
def leaflet : Kind where
  name := "Leaflet"
  description := ["A leaflet."]
  metadata := { type := .struct { fields := [] } }
  spec := { fields := [{ name := "page", type := .scalar .string, docs := ["first\nsecond"] }] }
  status := { fields := [] }

/-- The kind, resolved. -/
def leafletResolved : ResolvedKind where
  name := "Leaflet"
  machineName := "leaflet"
  description := ["A leaflet."]
  metadata := { name := "metadata", type := .struct [] }
  spec := { name := "spec", type := .struct [
    { name := "page", type := .scalar .string, docs := ["first\nsecond"] }] }
  status := { name := "status", type := .struct [] }
  declarations := []

private theorem resolve_leaflet : leaflet.resolve .nominal = .ok leafletResolved := by
  with_unfolding_all rfl

/-- The Go file of the kind. -/
def leafletFile : Go.File where
  package := "leaflet"
  usesTime := false
  blocks := []
  types := [{
    name := "Leaflet"
    docs := ["A leaflet."]
    underlying := .struct [
      ⟨[], "metadata", "Metadata", .struct [], false⟩,
      ⟨[], "spec", "Spec", .struct [⟨["first\nsecond"], "page", "Page", .scalar .string, false⟩],
        false⟩,
      ⟨[], "status", "Status", .struct [], false⟩] }]

private theorem typesFile_leaflet : Go.typesFile {} leafletResolved = .ok leafletFile := by
  with_unfolding_all rfl

/-- The comments in what is generated of the kind. -/
theorem generate_comments_leaflet : ∃ files,
    ({ generators := [.goTypes] } : Pipeline).generate leaflet .goTypes { id := .noParams } =
      .ok files ∧
    ∃ r goFiles, leaflet.resolve .nominal = .ok r ∧ Go.Rendering {} r goFiles ∧
      (∀ text, text ∈ goFiles.flatMap (·.docs) ↔ text ∈ Go.writtenDocs {} r) ∧
      List.Forall₂ (fun file f => Go.IsCommented none .goTypes f file.content) files goFiles := by
  have hfiles : ∃ files, ({ generators := [.goTypes] } : Pipeline).generate leaflet .goTypes
      { id := .noParams } = .ok files := by
    refine exists_bind_eq_ok_iff.mpr ⟨leafletResolved, ?_, ?_⟩
    · exact mapError_eq_ok.mpr resolve_leaflet
    · have hrender : Generator.goTypes.render {} leafletResolved =
          .ok [{ name := "leaflet_types_gen.go", content := Go.fileText leafletFile }] :=
        bind_return_eq_ok.mpr ⟨leafletFile, typesFile_leaflet, rfl⟩
      exact exists_bind_eq_ok_iff.mpr ⟨_, mapError_eq_ok.mpr hrender, _, rfl⟩
  obtain ⟨files, h⟩ := hfiles
  exact ⟨files, h, Pipeline.generate_comments (.inl rfl) h⟩

/-- The second line of the documentation is not in a comment. -/
theorem second_line_leaflet : leaflet.resolve .nominal = .ok leafletResolved ∧
    Go.typesFile {} leafletResolved = .ok leafletFile ∧
    ∃ line ∈ textLines (markedOf (Go.contentParts none .goTypes leafletFile)),
      line.map (·.1) = "second".toList ∧ isCommentLine (line.map (·.1)) = false := by
  refine ⟨resolve_leaflet, typesFile_leaflet, markAll true "second", ?_, rfl, by decide⟩
  rw [textLines_markedOf (Go.isLaid_contentParts none .goTypes leafletFile), List.mem_flatMap]
  refine ⟨⟨"\t\t// ", "first\nsecond"⟩, ?_, by decide +kernel⟩
  rw [Go.commentsOf_contentParts]
  with_unfolding_all decide

end Sample

end KindSchema
