import KindSchema.Proofs.Go.SectionFiles
import KindSchema.Proofs.Go.ShapeTypes

/-!
# Imports of Go files

A Go file may import nothing it does not use, and must import what it uses. The one package that the
files of a kind need is that of times.

* `importsTime_fileText_iff`: the text of a file imports it as the file says.
* `usesTime_iff`: a shape uses times if there is a time in it, at any depth.
* `IsTypeOf.scalars`: the times in a Go type are those of its shape.
* `render_importsTime_iff`: the files of a kind. In the files of sections, a time in a declaration
  counts for the first section to depend on it.
-/

namespace KindSchema

/-! ### Leaf types -/

namespace Shape

mutual

/-- The leaf types in a shape, at any depth. -/
def scalars : Shape → List Scalar
  | .scalar kind => [kind]
  | .enum _ => []
  | .array items => scalars items
  | .map values => scalars values
  | .struct fields => fieldScalars fields
  | .named _ => []

/-- The leaf types in the types of some fields. -/
def fieldScalars : List (Field Shape) → List Scalar
  | [] => []
  | ⟨_, type, _, _⟩ :: fields => scalars type ++ fieldScalars fields

end

end Shape

/-- The leaf types in a body. -/
def Body.scalars : Body → List Scalar
  | .struct fields => Shape.fieldScalars fields
  | .enum _ => []
  | .synonym shape => shape.scalars

namespace Go

/-! ### Shapes that use times -/

mutual

/-- A shape uses times if a time is among its leaf types. -/
theorem usesTime_iff : ∀ shape : Shape, usesTime shape = true ↔ Scalar.dateTime ∈ shape.scalars
  | .scalar kind => by
    rw [usesTime, Shape.scalars, beq_iff_eq, List.mem_singleton, eq_comm]
  | .enum _ => by
    rw [usesTime, Shape.scalars]
    exact iff_of_false Bool.false_ne_true List.not_mem_nil
  | .named _ => by
    rw [usesTime, Shape.scalars]
    exact iff_of_false Bool.false_ne_true List.not_mem_nil
  | .array items => by rw [usesTime, Shape.scalars, usesTime_iff items]
  | .map values => by rw [usesTime, Shape.scalars, usesTime_iff values]
  | .struct fields => by rw [usesTime, Shape.scalars, fieldsUseTime_iff fields]

theorem fieldsUseTime_iff : ∀ fields : List (Field Shape),
    fieldsUseTime fields = true ↔ Scalar.dateTime ∈ Shape.fieldScalars fields
  | [] => by
    rw [fieldsUseTime, Shape.fieldScalars]
    exact iff_of_false Bool.false_ne_true List.not_mem_nil
  | ⟨_, type, _, _⟩ :: fields => by
    rw [fieldsUseTime, Shape.fieldScalars, Bool.or_eq_true, List.mem_append, usesTime_iff type,
      fieldsUseTime_iff fields]

end

/-- The fields `fields` use times if the type of one of them does. -/
theorem fieldsUseTime_eq_any (fields : List (Field Shape)) :
    fieldsUseTime fields = fields.any (usesTime ·.type) := by
  induction fields with
  | nil => rw [fieldsUseTime, List.any_nil]
  | cons f fields ih => rw [fieldsUseTime, ih, List.any_cons]

/-- Declarations use times if a time is among the leaf types of one of their bodies. -/
private theorem declarationsUseTime_iff (declarations : List Declaration) :
    declarationsUseTime declarations = true ↔
      ∃ body ∈ declarations.map (·.body), Scalar.dateTime ∈ body.scalars := by
  simp only [declarationsUseTime, List.any_eq_true, List.mem_map, exists_exists_and_eq_and]
  refine exists_congr fun d => and_congr_right fun _ => ?_
  obtain ⟨name, docs, body, origin⟩ := d
  cases body with
  | struct fields => exact fieldsUseTime_iff fields
  | enum values => exact iff_of_false Bool.false_ne_true List.not_mem_nil
  | synonym shape => exact usesTime_iff shape

/-! ### Leaf types of shapes -/

mutual

/-- The leaf types of `shape` are those of `type`, which is written for it. -/
theorem IsTypeOf.scalars : ∀ {shape : Shape} {type : GoType},
    IsTypeOf shape type → type.scalars = shape.scalars
  | _, _, .scalar kind => by rw [GoType.scalars, Shape.scalars]
  | _, _, .named name => by rw [GoType.scalars, Shape.scalars]
  | _, _, .array h => by rw [GoType.scalars, Shape.scalars, IsTypeOf.scalars h]
  | _, _, .map h => by rw [GoType.scalars, Shape.scalars, IsTypeOf.scalars h]
  | _, _, .struct h => by rw [GoType.scalars, Shape.scalars, AreMembersOf.scalars h]

theorem AreMembersOf.scalars : ∀ {fields : List (Field Shape)} {members : List (Member GoType)},
    AreMembersOf fields members → GoType.memberScalars members = Shape.fieldScalars fields
  | _, _, .nil => by rw [GoType.memberScalars, Shape.fieldScalars]
  | _, _, @AreMembersOf.cons f name type _ _ _ htype hmembers => by
    have hpointer : (memberOf f name type).type.scalars = type.scalars :=
      memberOf_type_of_pointer (fun t => by rw [GoType.scalars]) f name type
    rw [GoType.memberScalars, Shape.fieldScalars, hpointer, IsTypeOf.scalars htype,
      AreMembersOf.scalars hmembers]

end

private theorem IsUnderlyingOf.scalars {body : Body} {t : TypeDeclaration}
    (h : IsUnderlyingOf body t.underlying) : t.scalars = body.scalars := by
  obtain ⟨name, docs, underlying⟩ := t
  cases h with
  | struct hmembers => exact hmembers.scalars
  | enum values => rfl
  | synonym htype => exact htype.scalars

/-- A leaf type is in a file if it is in one of the bodies that the file is written for. -/
private theorem Writes.exists_mem_scalars_iff {file : File} {bodies : List Body}
    (h : Writes file bodies) {kind : Scalar} : (∃ t ∈ file.types, kind ∈ t.scalars) ↔
      ∃ body ∈ bodies, kind ∈ body.scalars := by
  obtain ⟨types, htypes, hperm⟩ := h
  have hscalars : types.map (·.scalars) = bodies.map (·.scalars) := by
    clear hperm
    induction htypes with
    | nil => rfl
    | cons hbody _ ih => rw [List.map_cons, List.map_cons, hbody.scalars, ih]
  rw [← List.mem_flatMap, ← List.mem_flatMap, (hperm.flatMap_right _).mem_iff, List.flatMap_def,
    List.flatMap_def, hscalars]

/-! ### The import -/

/-- That `text` begins with `opening`. -/
def BeginsWith (opening text : String) : Prop :=
  ∃ rest, text = opening ++ rest

private theorem BeginsWith.append {opening text : String} (h : BeginsWith opening text)
    (rest : String) :
    BeginsWith opening (text ++ rest) := by
  obtain ⟨first, rfl⟩ := h
  exact ⟨first ++ rest, String.append_assoc ..⟩

private theorem BeginsWith.prepend {opening text : String} (h : BeginsWith opening text)
    (first : String) :
    BeginsWith (first ++ opening) (first ++ text) := by
  obtain ⟨rest, rfl⟩ := h
  exact ⟨rest, (String.append_assoc ..).symm⟩

/-- That `text` begins as a Go file of `package` that imports the package of times. -/
def ImportsTime (package text : String) : Prop :=
  BeginsWith ("package " ++ package ++ "\n" ++ "\nimport (\n\t\"time\"\n)\n") text

/-- Declarations of types begin with comments. -/
private theorem beginsWith_declarationText (d : TypeDeclaration) :
    BeginsWith "//" (declarationText d) := by
  have hslashes : BeginsWith "//" "// " := ⟨" ", rfl⟩
  have hcomment : BeginsWith "//" (typeComment d.name d.docs) := by
    unfold typeComment
    split
    · exact (((hslashes.append _).append _).append _).append _
    · refine BeginsWith.append ?_ _
      split
      · exact (hslashes.append _).append _
      · exact (((hslashes.append _).append _).append _).append _
  exact ((((hcomment.append _).append _).append _).append _).append _

/-- Blocks of constants begin with comments. -/
private theorem beginsWith_blockText (b : ConstantBlock) : BeginsWith "//" (blockText b) := by
  have hline : BeginsWith "//" "// Defines values for " := ⟨" Defines values for ", rfl⟩
  exact (((hline.append _).append _).append _).append _

/-- What is made of texts that begin alike begins so, unless there are none. -/
private theorem join_eq_empty_or_beginsWith {opening : String} {texts : List String}
    (h : ∀ text ∈ texts, BeginsWith opening text) :
    String.join texts = "" ∨ BeginsWith opening (String.join texts) := by
  cases texts with
  | nil => exact .inl rfl
  | cons text texts =>
    rw [String.join_cons]
    exact .inr ((h text List.mem_cons_self).append _)

/-- The file `f` imports the package of times exactly if it uses times. -/
theorem importsTime_fileText_iff (f : File) :
    ImportsTime f.package (fileText f) ↔ f.usesTime = true := by
  let texts := f.blocks.map (fun b => "\n" ++ blockText b) ++
    f.types.map fun d => "\n" ++ declarationText d
  have hfile : fileText f = "package " ++ f.package ++ "\n" ++
      (if f.usesTime then "\nimport (\n\t\"time\"\n)\n" else "") ++ String.join texts := by
    rw [fileText, String.join_append, ← String.append_assoc]
  have htexts : ∀ text ∈ texts, BeginsWith "\n//" text := by
    refine List.forall_mem_append.mpr ⟨List.forall_mem_map.mpr ?_, List.forall_mem_map.mpr ?_⟩
    · exact fun b _ => (beginsWith_blockText b).prepend "\n"
    · exact fun d _ => (beginsWith_declarationText d).prepend "\n"
  rw [ImportsTime, hfile]
  by_cases huses : f.usesTime = true
  · rw [if_pos huses]
    exact iff_of_true ⟨String.join texts, rfl⟩ huses
  · rw [if_neg huses, String.append_empty]
    refine iff_of_false ?_ huses
    rintro ⟨rest, hrest⟩
    -- What follows the clause of the package is not an import but a comment, if anything.
    have hbehind : String.join texts = "\nimport (\n\t\"time\"\n)\n" ++ rest :=
      (String.append_right_inj _).mp (hrest.trans (String.append_assoc ..))
    have hsecond := congrArg (fun text => text.toList[1]?) hbehind
    rcases join_eq_empty_or_beginsWith htexts with hempty | ⟨more, hmore⟩
    · rw [hempty] at hsecond
      simp at hsecond
    · rw [hmore] at hsecond
      simp at hsecond

/-! ### The files of a kind -/

/-- Of the leaf types, only times are written as a type of the package of times. -/
private theorem scalarName_eq_time {kind : Scalar} (h : scalarName kind = "time.Time") :
    kind = .dateTime := by
  cases kind with
  | dateTime => rfl
  | string | boolean | int64 | float64 | any => exact absurd h (by decide)

/-- That the types of `file` are written for `bodies`, and that its text imports the package of
times exactly if `time.Time` is written in it, which is so if there is a time in one of the types,
which is to say in one of the bodies. -/
structure ImportsExactly (bodies : List Body) (file : File) : Prop where
  writes : Writes file bodies
  prints : Prints file (fileText file)
  written_iff : "time.Time" ∈ namesOf .builtin (fileParts file) ↔
    ∃ t ∈ file.types, Scalar.dateTime ∈ t.scalars
  imports_iff : ImportsTime file.package (fileText file) ↔
    ∃ t ∈ file.types, Scalar.dateTime ∈ t.scalars
  times_iff : (∃ t ∈ file.types, Scalar.dateTime ∈ t.scalars) ↔
    ∃ body ∈ bodies, Scalar.dateTime ∈ body.scalars

/-- The text imports what it should if the file says that it uses times exactly where one of the
bodies it is written for does. -/
private theorem Writes.importsExactly {file : File} {bodies : List Body} (h : Writes file bodies)
    (huses : file.usesTime = true ↔ ∃ body ∈ bodies, Scalar.dateTime ∈ body.scalars) :
    ImportsExactly bodies file where
  writes := h
  prints := prints_fileText file
  imports_iff := (importsTime_fileText_iff file).trans (huses.trans h.exists_mem_scalars_iff.symm)
  times_iff := h.exists_mem_scalars_iff
  written_iff := by
    rw [(prints_fileText file).builtin]
    simp only [List.mem_flatMap, List.mem_map]
    refine exists_congr fun t => and_congr_right fun _ => ⟨?_, fun ht => ⟨_, ht, rfl⟩⟩
    rintro ⟨kind, hkind, hname⟩
    rwa [← scalarName_eq_time hname]

/-- The file of a section is written for the section and its declarations. -/
private theorem IsSectionFile.writes {k : ResolvedKind} {before : List (Field Shape)}
    {f : Field Shape} {group : List Declaration} {file : File}
    (h : IsSectionFile k before f group file) :
    Writes file (.synonym f.type :: group.map (·.body)) := by
  obtain ⟨own, types, hown, htypes, hperm⟩ := h.types
  refine ⟨own :: types, .cons (isDeclarationOf_of_shapeDeclaration hown).underlying ?_, hperm⟩
  exact List.forall₂_map_left_iff.mpr (htypes.imp fun _ _ ht =>
    (isDeclarationOf_of_typeDeclaration ht).underlying)

/-- The file of a kind alone is written for its sections. -/
private theorem IsResourceFile.writes {params : Params} {r : ResolvedKind} {file : File}
    (h : IsResourceFile params r file) :
    Writes file [.struct (sectionMembers (r.presented params))] := by
  obtain ⟨root, hroot, htypes⟩ := h.types
  exact ⟨[root], .cons (isDeclarationOf_of_structDeclaration hroot).underlying .nil,
    htypes ▸ .refl _⟩

/-- There are no leaf types in a struct of sections that have types of their own. -/
private theorem fieldScalars_sectionMembers (k : ResolvedKind) :
    Shape.fieldScalars (sectionMembers k) = [] := by
  unfold sectionMembers
  induction k.envelope with
  | nil => rw [List.map_nil, Shape.fieldScalars]
  | cons f sections ih =>
    rw [List.map_cons, Field.withType, Shape.fieldScalars, Shape.scalars, ih, List.append_nil]

/-- The single file of a kind imports the package of times if a section or a declaration has a
time. -/
private theorem typesFile_importsExactly {params : Params} {r : ResolvedKind} {file : File}
    (h : typesFile params r = .ok file) :
    ImportsExactly (.struct (r.presented params).envelope ::
      (r.presented params).reachableDeclarations.map (·.body)) file := by
  refine (typesFile_writes h).importsExactly ?_
  have henvelope : ((r.presented params).envelope.any (usesTime ·.type)) = true ↔
      Scalar.dateTime ∈ Shape.fieldScalars (r.presented params).envelope := by
    rw [← fieldsUseTime_iff, fieldsUseTime_eq_any]
  rw [fileOf_usesTime h, Bool.or_eq_true, henvelope, declarationsUseTime_iff,
    List.exists_mem_cons_iff]
  rfl

/-- The file of a section imports the package of times if the section or one of its declarations has
a time. -/
private theorem IsSectionFile.importsExactly {k : ResolvedKind} {before : List (Field Shape)}
    {f : Field Shape} {group : List Declaration} {file : File}
    (h : IsSectionFile k before f group file) :
    ImportsExactly (.synonym f.type :: group.map (·.body)) file := by
  refine h.writes.importsExactly ?_
  rw [h.usesTime_eq, Bool.or_eq_true, usesTime_iff, declarationsUseTime_iff,
    List.exists_mem_cons_iff]
  rfl

/-- The file of a kind alone imports nothing. -/
private theorem IsResourceFile.importsExactly {params : Params} {r : ResolvedKind} {file : File}
    (h : IsResourceFile params r file) :
    ImportsExactly [.struct (sectionMembers (r.presented params))] file := by
  refine h.writes.importsExactly ?_
  rw [h.usesTime_eq]
  refine iff_of_false Bool.false_ne_true ?_
  rintro ⟨body, hbody, htime⟩
  obtain rfl := List.mem_singleton.mp hbody
  rw [Body.scalars, fieldScalars_sectionMembers] at htime
  exact List.not_mem_nil htime

/-- That `text` is that of the file of the section `f`, which comes after those of `before`, and
imports the package of times exactly if there is a time in the section, or in a declaration that
this is the first section to depend on. -/
def SectionImports (k : ResolvedKind) (before : List (Field Shape)) (f : Field Shape)
    (text : String) : Prop :=
  ∃ group file, text = fileText file ∧ IsSectionFile k before f group file ∧
    ImportsExactly (.synonym f.type :: group.map (·.body)) file

private theorem IsSectionFile.sectionImports {k : ResolvedKind} {before : List (Field Shape)}
    {f : Field Shape} {group : List Declaration} {file : File}
    (h : IsSectionFile k before f group file) : SectionImports k before f (fileText file) :=
  ⟨group, file, rfl, h, h.importsExactly⟩

/-- The Go files of `r` import the package of times exactly if one of their types is written with a
time, at any depth. In the single file, this is a time in a section or in a declaration that the
sections depend on. In the files of sections, a time in a declaration counts for the first section
that depends on it; the file of the kind alone has no import. -/
theorem render_importsTime_iff {k : Kind} {r : ResolvedKind} (h : k.resolve .nominal = .ok r)
    (params : Params) :
    (∀ rendered, Generator.goTypes.render params r = .ok rendered →
      ∃ file, rendered.map (·.content) = [fileText file] ∧
        ImportsExactly (.struct (r.presented params).envelope ::
          (r.presented params).reachableDeclarations.map (·.body)) file) ∧
    ∀ rendered, Generator.goSectionTypes.render params r = .ok rendered →
      ∃ resource metadata spec status,
        rendered.map (·.content) = [fileText resource, metadata, spec, status] ∧
        ImportsExactly [.struct (sectionMembers (r.presented params))] resource ∧
        ¬ ImportsTime resource.package (fileText resource) ∧
        SectionImports (r.presented params) [] (r.presented params).metadata metadata ∧
        SectionImports (r.presented params) [(r.presented params).metadata]
          (r.presented params).spec spec ∧
        SectionImports (r.presented params)
          [(r.presented params).metadata, (r.presented params).spec]
          (r.presented params).status status := by
  constructor
  · intro rendered hrender
    obtain ⟨file, hfile, rfl⟩ := bind_return_eq_ok.mp hrender
    exact ⟨file, rfl, typesFile_importsExactly hfile⟩
  · intro rendered hrender
    obtain ⟨files, hfiles, rfl⟩ := bind_return_eq_ok.mp hrender
    obtain ⟨resource, rest, groups, hrest, hresource, hgroups, -⟩ :=
      exists_areSectionFiles h hfiles
    -- The envelope has three sections, so there are three groups and three files.
    cases hgroups with
    | cons hmetadata hgroups =>
    cases hgroups with
    | cons hspec hgroups =>
    cases hgroups with
    | cons hstatus hgroups =>
    cases hgroups
    have hcontents := congrArg (List.map fileText) hrest
    rw [List.map_map] at hcontents
    have himports := hresource.importsExactly
    refine ⟨resource, _, _, _, by rwa [List.map_map], himports, ?_, hmetadata.sectionImports,
      hspec.sectionImports, hstatus.sectionImports⟩
    rw [importsTime_fileText_iff, hresource.usesTime_eq]
    exact Bool.false_ne_true

end Go

namespace Sample

open Go

/-- A kind with times in a definition that its spec and its status depend on. -/
def ferry : Kind where
  name := "Ferry"
  metadata := { type := .struct { fields := [{ name := "owner", type := .scalar .string }] } }
  spec := { fields := [{ name := "schedule", type := .reference "Schedule" }] }
  status := { fields := [{ name := "last", type := .reference "Stop", optional := true }] }
  definitions := [
    { name := "Schedule", type := .map (.reference "Stop") },
    { name := "Stop", type := .struct { fields := [
      { name := "departures", type := .array (.scalar .dateTime) }] } }]

/-- The kind, resolved. -/
def ferryResolved : ResolvedKind where
  name := "Ferry"
  machineName := "ferry"
  description := []
  metadata := { name := "metadata", type := .struct [{ name := "owner", type := .scalar .string }] }
  spec := { name := "spec", type := .struct [{ name := "schedule", type := .named "Schedule" }] }
  status := { name := "status", type := .struct [
    { name := "last", type := .named "Stop", optional := true }] }
  declarations := [
    ⟨"Schedule", [], .synonym (.map (.named "Stop")), .defined⟩,
    ⟨"Stop", [], .struct [{ name := "departures", type := .array (.scalar .dateTime) }], .defined⟩]

private theorem resolve_ferry : ferry.resolve .nominal = .ok ferryResolved := by
  with_unfolding_all rfl

private theorem expressible_ferry :
    ∀ d ∈ (ferryResolved.presented {}).reachableDeclarations, Expressible d := by
  have hall : ∀ d ∈ ferryResolved.declarations, Expressible d := by
    simp only [ferryResolved, List.forall_mem_cons]
    exact ⟨⟨⟨_, rfl⟩, nofun⟩, ⟨⟨_, by with_unfolding_all rfl⟩, nofun⟩,
      fun d hd => absurd hd List.not_mem_nil⟩
  intro d hd
  exact hall d (ResolvedKind.mem_reachable.mp hd).1

private theorem exists_typesFile_ferry : ∃ file, typesFile {} ferryResolved = .ok file :=
  exists_typesFile_iff.mpr ⟨⟨_, by with_unfolding_all rfl⟩, expressible_ferry⟩

private theorem exists_sectionFiles_ferry : ∃ files, sectionFiles {} ferryResolved = .ok files := by
  have hnames : sectionTypeNames {} ferryResolved = ["Metadata", "Spec", "Status"] := by
    with_unfolding_all rfl
  have hunshadowed : ∀ d ∈ ferryResolved.declarations,
      d.name ∉ sectionTypeNames {} ferryResolved := by
    rw [hnames]
    decide
  refine (exists_sectionFiles_iff (by decide)).mpr
    ⟨sectionsNamed_of_resolve resolve_ferry {}, fun d hd => ?_, ?_, ?_, expressible_ferry⟩
  · exact hunshadowed d (ResolvedKind.mem_reachable.mp hd).1
  · exact ⟨_, by with_unfolding_all rfl⟩
  · simp only [ResolvedKind.envelope, List.forall_mem_cons]
    exact ⟨⟨_, by with_unfolding_all rfl⟩, ⟨_, by with_unfolding_all rfl⟩,
      ⟨_, by with_unfolding_all rfl⟩, fun f hf => absurd hf List.not_mem_nil⟩

/-- What the files of the kind import. -/
theorem render_importsTime_ferry : ∃ types sections,
    Generator.goTypes.render {} ferryResolved = .ok types ∧
    Generator.goSectionTypes.render {} ferryResolved = .ok sections ∧
    (∃ file, types.map (·.content) = [fileText file] ∧
      ImportsExactly (.struct (ferryResolved.presented {}).envelope ::
        (ferryResolved.presented {}).reachableDeclarations.map (·.body)) file) ∧
    ∃ resource metadata spec status,
      sections.map (·.content) = [fileText resource, metadata, spec, status] ∧
      ImportsExactly [.struct (sectionMembers (ferryResolved.presented {}))] resource ∧
      ¬ ImportsTime resource.package (fileText resource) ∧
      SectionImports (ferryResolved.presented {}) [] (ferryResolved.presented {}).metadata
        metadata ∧
      SectionImports (ferryResolved.presented {}) [(ferryResolved.presented {}).metadata]
        (ferryResolved.presented {}).spec spec ∧
      SectionImports (ferryResolved.presented {})
        [(ferryResolved.presented {}).metadata, (ferryResolved.presented {}).spec]
        (ferryResolved.presented {}).status status := by
  obtain ⟨file, hfile⟩ := exists_typesFile_ferry
  obtain ⟨files, hfiles⟩ := exists_sectionFiles_ferry
  have htypes : Generator.goTypes.render {} ferryResolved =
      .ok [{ name := "ferry_types_gen.go", content := fileText file }] :=
    bind_return_eq_ok.mpr ⟨file, hfile, rfl⟩
  have hsections : Generator.goSectionTypes.render {} ferryResolved =
      .ok (files.map fun f => { name := f.name, content := fileText f.file }) :=
    bind_return_eq_ok.mpr ⟨files, hfiles, rfl⟩
  obtain ⟨hsingle, hper⟩ := render_importsTime_iff resolve_ferry {}
  exact ⟨_, _, htypes, hsections, hsingle _ htypes, hper _ hsections⟩

end Sample

end KindSchema
