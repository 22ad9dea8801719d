import KindSchema.Proofs.Go.Failures
import KindSchema.Proofs.Go.Identifiers

/-!
# The names that Go files declare

A Go file declares types, constants, and the fields of its structs. The names of the fields are
identifiers made of the keys of a struct, one for each key at any depth, and so it is with the
literals of an enumeration. Whether a kind is rendered in one file or in files for its sections, the
names are the same.

* `IsTypeOf.spells`, `AreMembersOf.spells`: the fields of a Go type have the names that the keys ask
  for.
* `Rendering.mem_declaredNames_iff`: the names that the files of a kind declare.
* `Rendering.exists_identifier_of_key`: where there are files, every key has an identifier.
-/

namespace KindSchema

/-! ### Keys -/

namespace Shape

mutual

/-- The keys of the structs that stand in a shape, at any depth. -/
def keys : Shape → List String
  | .scalar _ => []
  | .enum _ => []
  | .array items => keys items
  | .map values => keys values
  | .struct fields => fieldKeys fields
  | .named _ => []

/-- The keys of some fields and of the structs in their types. -/
def fieldKeys : List (Field Shape) → List String
  | [] => []
  | ⟨name, type, _, _⟩ :: fields => name :: (keys type ++ fieldKeys fields)

end

/-- The keys of some fields are their names and the keys in their types. -/
private theorem mem_fieldKeys {fields : List (Field Shape)} {key : String} :
    key ∈ fieldKeys fields ↔
    key ∈ fields.map (·.name) ∨ ∃ f ∈ fields, key ∈ f.type.keys := by
  induction fields with
  | nil => simp [fieldKeys]
  | cons f fields ih =>
    rw [fieldKeys, List.mem_cons, List.mem_append, ih, List.map_cons, List.mem_cons,
      List.exists_mem_cons_iff]
    tauto

end Shape

/-- The keys of the structs that stand in a body. -/
def Body.keys : Body → List String
  | .struct fields => Shape.fieldKeys fields
  | .enum _ => []
  | .synonym shape => shape.keys

namespace Go

mutual

/-- The names of the fields of the structs in a Go type, at any depth. -/
def GoType.fields : GoType → List String
  | .scalar _ => []
  | .named _ => []
  | .pointer target => fields target
  | .slice items => fields items
  | .map values => fields values
  | .struct members => memberFields members

/-- The names of some members and of the fields of the structs in their types. -/
def GoType.memberFields : List (Member GoType) → List String
  | [] => []
  | ⟨_, _, name, type, _⟩ :: members => name :: (type.fields ++ memberFields members)

end

/-- The names of the fields in `t`. -/
def TypeDeclaration.fields (t : TypeDeclaration) : List String :=
  match t.underlying with
  | .struct members => GoType.memberFields members
  | .enum => []
  | .type type => type.fields

/-- The names that `f` declares: of types, of constants and of fields. -/
def File.declaredNames (f : File) : List String :=
  f.types.map (·.name) ++ f.constants ++ f.types.flatMap (·.fields)

/-- That `names` are the identifiers of `texts`, one for each. -/
def Spells (texts names : List String) : Prop :=
  List.Forall₂ (fun text name => Naming.identifier? text = some name) texts names

namespace Spells

variable {texts texts' names names' : List String}

private theorem append (h : Spells texts names) (h' : Spells texts' names') :
    Spells (texts ++ texts') (names ++ names') :=
  List.rel_append h h'

/-- The names are those that the texts ask for. -/
private theorem mem_iff (h : Spells texts names) {name : String} :
    name ∈ names ↔ ∃ text ∈ texts, Naming.identifier? text = some name := by
  induction h with
  | nil => simp
  | cons hname _ ih =>
    rw [List.mem_cons, ih, List.exists_mem_cons_iff, hname, Option.some.injEq, eq_comm]

/-- Each text has an identifier. -/
private theorem exists_identifier (h : Spells texts names) {text : String} (ht : text ∈ texts) :
    ∃ name, Naming.identifier? text = some name := by
  induction h with
  | nil => exact absurd ht List.not_mem_nil
  | cons hname _ ih =>
    rcases List.mem_cons.mp ht with rfl | ht
    · exact ⟨_, hname⟩
    · exact ih ht

end Spells

/-! ### Types -/

mutual

/-- The fields of `type` are named for the keys of `shape`, for which it is written. -/
theorem IsTypeOf.spells : ∀ {shape : Shape} {type : GoType},
    IsTypeOf shape type → Spells shape.keys type.fields
  | _, _, .scalar _ => by
    rw [Shape.keys, GoType.fields]
    exact .nil
  | _, _, .named _ => by
    rw [Shape.keys, GoType.fields]
    exact .nil
  | _, _, .array h => by
    rw [Shape.keys, GoType.fields]
    exact IsTypeOf.spells h
  | _, _, .map h => by
    rw [Shape.keys, GoType.fields]
    exact IsTypeOf.spells h
  | _, _, .struct h => by
    rw [Shape.keys, GoType.fields]
    exact AreMembersOf.spells h

/-- The members in `members` are named for the keys of `fields`, for which they are written, at any
depth. -/
theorem AreMembersOf.spells : ∀ {fields : List (Field Shape)} {members : List (Member GoType)},
    AreMembersOf fields members →
      Spells (Shape.fieldKeys fields) (GoType.memberFields members)
  | _, _, .nil => by
    rw [Shape.fieldKeys, GoType.memberFields]
    exact .nil
  | _, _, @AreMembersOf.cons f name type _ _ hname htype hmembers => by
    have hpointer : (memberOf f name type).type.fields = type.fields :=
      memberOf_type_of_pointer (fun t => by rw [GoType.fields]) f name type
    rw [Shape.fieldKeys, GoType.memberFields, hpointer]
    exact .cons hname ((IsTypeOf.spells htype).append (AreMembersOf.spells hmembers))

end

private theorem IsUnderlyingOf.spells {body : Body} {t : TypeDeclaration}
    (h : IsUnderlyingOf body t.underlying) : Spells body.keys t.fields := by
  obtain ⟨name, docs, underlying⟩ := t
  cases h with
  | struct hmembers => exact hmembers.spells
  | enum values => exact .nil
  | synonym htype => exact htype.spells

section Declarations

variable {name : String} {docs : List String} {t : TypeDeclaration}

private theorem structDeclaration_spells {fields : List (Field Shape)}
    (h : structDeclaration name docs fields = .ok t) : Spells (Shape.fieldKeys fields) t.fields :=
  (isDeclarationOf_of_structDeclaration h).underlying.spells

private theorem shapeDeclaration_spells {shape : Shape}
    (h : shapeDeclaration name docs shape = .ok t) :
    Spells shape.keys t.fields :=
  (isDeclarationOf_of_shapeDeclaration h).underlying.spells

private theorem typeDeclaration_spells {d : Declaration} (h : typeDeclaration d = .ok t) :
    Spells d.body.keys t.fields :=
  (isDeclarationOf_of_typeDeclaration h).underlying.spells

private theorem Declares.spells {declarations : List Declaration} {types : List TypeDeclaration}
    (h : Declares declarations types) :
    Spells (declarations.flatMap (·.body.keys)) (types.flatMap (·.fields)) := by
  induction h with
  | nil => exact .nil
  | cons hd _ ih =>
    rw [List.flatMap_cons, List.flatMap_cons]
    exact (typeDeclaration_spells hd).append ih

private theorem DeclaresSections.spells {sections : List (Field Shape)}
    {roots : List TypeDeclaration} (h : DeclaresSections sections roots) :
    Spells (sections.flatMap (·.type.keys)) (roots.flatMap (·.fields)) := by
  induction h with
  | nil => exact .nil
  | cons hf _ ih =>
    rw [List.flatMap_cons, List.flatMap_cons]
    exact (shapeDeclaration_spells hf).append ih

/-- Files have the fields of their own types and those of the declarations. -/
private theorem Covers.mem_fields_iff {files : List File} {own : List TypeDeclaration}
    {declarations : List Declaration} {texts : List String}
    (h : Covers files own declarations) (hown : Spells texts (own.flatMap (·.fields)))
    {name : String} : name ∈ (files.flatMap (·.types)).flatMap (·.fields) ↔
      ∃ key ∈ texts ++ declarations.flatMap (·.body.keys),
        Naming.identifier? key = some name := by
  obtain ⟨types, hdeclares, hperm⟩ := h.types
  rw [(hperm.flatMap_right _).mem_iff, List.flatMap_append,
    (hown.append hdeclares.spells).mem_iff]

end Declarations

/-! ### Constants -/

/-- The constants of an enumeration are its name followed by the identifiers of its literals. -/
private theorem mem_constantNames_iff {d : Declaration} {name : String} : name ∈ constantNames d ↔
    ∃ values, d.body = .enum values ∧ ∃ literal ∈ values, ∃ word,
      Naming.identifier? literal = some word ∧ d.name ++ word = name := by
  obtain ⟨type, docs, body, origin⟩ := d
  cases body with
  | enum values => simp [constantNames, constantName?, Option.map_eq_some_iff]
  | struct fields => simp [constantNames]
  | synonym shape => simp [constantNames]

/-- Each `literal` of an enumeration that can be expressed has an identifier. -/
theorem ConstantsExpressible.exists_identifier {d : Declaration} (h : ConstantsExpressible d)
    {values : List String} (hbody : d.body = .enum values) {literal : String}
    (hliteral : literal ∈ values) : ∃ word, Naming.identifier? literal = some word := by
  have hnamed := constantsExpressible_iff.mp h values hbody
  exact Option.ne_none_iff_exists'.mp fun hnone => hnamed (.inl ⟨literal, hliteral, hnone⟩)

/-- The constants of the files of some sections are those of the enumerations they claim. -/
private theorem filesOfSections_constants {package : String} {k : ResolvedKind}
    {claimed : List String} {sections : List (Field Shape)} {files : List NamedFile}
    (h : filesOfSections package k claimed sections = .ok files) :
    ((files.map (·.file)).flatMap (·.constants)).Perm
      ((claimedDeclarations k claimed sections).flatMap constantNames) := by
  induction sections generalizing claimed files with
  | nil =>
    cases h
    exact .refl _
  | cons f sections ih =>
    obtain ⟨file, hfile, h⟩ := bind_eq_ok.mp h
    obtain ⟨rest, hrest, rfl⟩ := bind_return_eq_ok.mp h
    rw [List.map_cons, List.flatMap_cons, claimedDeclarations, List.flatMap_append]
    exact (fileOf_constants hfile).1.append (ih hrest)

/-! ### Renderings -/

/-- That some files are those of `r`: one for all, or one for the kind and one for each section. -/
inductive Rendering (params : Params) (r : ResolvedKind) : List File → Prop
  | types {file : File} (h : typesFile params r = .ok file) : Rendering params r [file]
  | sections {files : List NamedFile} (h : sectionFiles params r = .ok files) :
    Rendering params r (files.map (·.file))

/-- The keys of the structs that the files of `r` have to write, at any depth: of the sections, and
of the declarations that these depend on. -/
def writtenKeys (params : Params) (r : ResolvedKind) : List String :=
  Shape.fieldKeys (r.presented params).envelope ++
    (r.presented params).reachableDeclarations.flatMap (·.body.keys)

/-- That a name is declared for some part of `r`. -/
inductive DeclaresName (params : Params) (r : ResolvedKind) : String → Prop
  | kind : DeclaresName params r r.name
  | type {d : Declaration} (hd : d ∈ (r.presented params).reachableDeclarations) :
    DeclaresName params r d.name
  | constant {d : Declaration} {values : List String} {literal word : String}
    (hd : d ∈ (r.presented params).reachableDeclarations) (hbody : d.body = .enum values)
    (hliteral : literal ∈ values) (hword : Naming.identifier? literal = some word) :
    DeclaresName params r (d.name ++ word)
  | field {key word : String} (hkey : key ∈ writtenKeys params r)
    (hword : Naming.identifier? key = some word) : DeclaresName params r word

namespace Rendering

variable {policy : Policy} {k : Kind} {r : ResolvedKind} {params : Params} {files : List File}

section Resolved

variable (h : k.resolve policy = .ok r) (hfiles : Rendering params r files)
include h hfiles

/-- What is rendered of `r` can be expressed. -/
theorem expressible : ∀ d ∈ (r.presented params).reachableDeclarations, Expressible d := by
  cases hfiles with
  | types hfile => exact (exists_typesFile_iff.mp ⟨_, hfile⟩).2
  | sections hfiles =>
    exact ((exists_sectionFiles_iff (Kind.resolve_nodup h)).mp ⟨_, hfiles⟩).2.2.2.2

/-- The constants of the files are those of the enumerations. -/
private theorem constants_perm : (files.flatMap (·.constants)).Perm
    ((r.presented params).reachableDeclarations.flatMap constantNames) := by
  cases hfiles with
  | types hfile =>
    rw [List.flatMap_singleton]
    exact (fileOf_constants hfile).1
  | sections hfiles =>
    obtain ⟨-, -, resource, rest, hresource, hrest, rfl⟩ := sectionFiles_eq_ok hfiles
    have hpresented : ((r.presented params).declarations.map (·.name)).Nodup := by
      rw [ResolvedKind.names_presented_declarations]
      exact Kind.resolve_nodup h
    rw [List.map_cons, List.flatMap_cons]
    refine (((fileOf_constants hresource).1.append (filesOfSections_constants hrest)).trans ?_)
    exact (perm_claimed hpresented).flatMap_right _

/-- The types of the files are that of the kind, perhaps those of the sections, and the
declarations; their fields are named for the keys of the sections and of the declarations. -/
private theorem exists_covers :
    ∃ own texts, Covers files own (r.presented params).reachableDeclarations ∧
    r.name ∈ own.map (·.name) ∧
    (∀ name ∈ own.map (·.name), name = r.name ∨ name ∈ sectionTypes) ∧
    Spells texts (own.flatMap (·.fields)) ∧
    ∀ key, key ∈ texts ↔ key ∈ Shape.fieldKeys (r.presented params).envelope := by
  cases hfiles with
  | types hfile =>
    obtain ⟨root, hroot, hcovers⟩ := fileOf_covers hfile
    obtain ⟨hname, -⟩ := structDeclaration_eq_ok hroot
    refine ⟨[root], Shape.fieldKeys (r.presented params).envelope, hcovers, ?_, ?_, ?_,
      fun _ => Iff.rfl⟩
    · rw [List.map_singleton, hname]
      exact List.mem_singleton_self _
    · intro name hmem
      rw [List.map_singleton, hname] at hmem
      exact .inl (List.mem_singleton.mp hmem)
    · rw [List.flatMap_singleton]
      exact structDeclaration_spells hroot
  | sections hfiles =>
    obtain ⟨root, roots, hroot, hroots, hcovers⟩ :=
      sectionFiles_declares (Kind.resolve_nodup h) hfiles
    obtain ⟨hname, -⟩ := structDeclaration_eq_ok hroot
    have hnames : roots.map (·.name) = sectionTypes :=
      hroots.names.trans (sectionTypeNames_eq h)
    refine ⟨root :: roots, _, hcovers, ?_, ?_,
      (structDeclaration_spells hroot).append hroots.spells, fun key => ?_⟩
    · rw [List.map_cons, hname]
      exact List.mem_cons_self
    · intro name hmem
      rw [List.map_cons, hname, hnames] at hmem
      exact List.mem_cons.mp hmem
    -- The struct of the kind has the sections as its keys, and each section has its own type.
    · have hmembers : Shape.fieldKeys (sectionMembers (r.presented params)) =
          (r.presented params).envelope.map (·.name) := by
        rw [sectionMembers]
        induction (r.presented params).envelope with
        | nil => rfl
        | cons f envelope ih => exact congrArg (f.name :: ·) ih
      rw [hmembers, List.mem_append, List.mem_flatMap, Shape.mem_fieldKeys]

end Resolved

/-- The sections are among the keys that have to be written, and their types are named like the
fields for them. -/
private theorem exists_key_of_mem_sectionTypes (h : k.resolve policy = .ok r) {name : String}
    (hname : name ∈ sectionTypes) :
    ∃ key ∈ writtenKeys params r, Naming.identifier? key = some name := by
  have hsections : (r.presented params).envelope.map (·.name) = ["metadata", "spec", "status"] :=
    (r.presented_sectionNames params).trans (Kind.resolve_sectionNames h)
  have hkey : ∀ key ∈ ["metadata", "spec", "status"], key ∈ writtenKeys params r := fun key hmem =>
    List.mem_append_left _ (Shape.mem_fieldKeys.mpr (.inl (hsections ▸ hmem)))
  have hspelled : ∀ name ∈ sectionTypes, ∃ key ∈ ["metadata", "spec", "status"],
      Naming.identifier? key = some name := by decide +kernel
  obtain ⟨key, hmem, hword⟩ := hspelled name hname
  exact ⟨key, hkey key hmem, hword⟩

/-- The files of `r` declare the names for its parts and no others. -/
theorem mem_declaredNames_iff (h : k.resolve policy = .ok r) (hfiles : Rendering params r files)
    {name : String} : name ∈ files.flatMap (·.declaredNames) ↔ DeclaresName params r name := by
  obtain ⟨own, texts, hcovers, hkind, hown, hspells, htexts⟩ := exists_covers h hfiles
  have hfields : name ∈ (files.flatMap (·.types)).flatMap (·.fields) ↔
      ∃ key ∈ writtenKeys params r, Naming.identifier? key = some name := by
    rw [hcovers.mem_fields_iff hspells]
    simp only [writtenKeys, List.mem_append, htexts]
  have htypes : name ∈ (files.flatMap (·.types)).map (·.name) ↔ name ∈ own.map (·.name) ∨
      name ∈ (r.presented params).reachableDeclarations.map (·.name) := by
    rw [hcovers.names.mem_iff, List.mem_append]
  have hconstants : name ∈ files.flatMap (·.constants) ↔
      ∃ d ∈ (r.presented params).reachableDeclarations, name ∈ constantNames d := by
    rw [(constants_perm h hfiles).mem_iff, List.mem_flatMap]
  have hparts : name ∈ files.flatMap (·.declaredNames) ↔
      (name ∈ (files.flatMap (·.types)).map (·.name) ∨ name ∈ files.flatMap (·.constants)) ∨
        name ∈ (files.flatMap (·.types)).flatMap (·.fields) := by
    rw [List.map_flatMap, List.flatMap_assoc]
    simp only [File.declaredNames, List.mem_flatMap, List.mem_append, and_or_left, exists_or]
  rw [hparts, htypes, hconstants, hfields]
  -- Only the types of the sections are not for a part; they are named like the fields for them.
  constructor
  · rintro (((hname | hname) | ⟨d, hd, hname⟩) | ⟨key, hkey, hword⟩)
    · rcases hown name hname with rfl | hsection
      · exact .kind
      · obtain ⟨key, hkey, hword⟩ := exists_key_of_mem_sectionTypes h hsection
        exact .field hkey hword
    · obtain ⟨d, hd, rfl⟩ := List.mem_map.mp hname
      exact .type hd
    · obtain ⟨values, hbody, literal, hliteral, word, hword, rfl⟩ := mem_constantNames_iff.mp hname
      exact .constant hd hbody hliteral hword
    · exact .field hkey hword
  · rintro (_ | hd | ⟨hd, hbody, hliteral, hword⟩ | ⟨hkey, hword⟩)
    · exact .inl (.inl (.inl hkind))
    · exact .inl (.inl (.inr (List.mem_map_of_mem hd)))
    · exact .inl (.inr ⟨_, hd, mem_constantNames_iff.mpr ⟨_, hbody, _, hliteral, _, hword, rfl⟩⟩)
    · exact .inr ⟨_, hkey, hword⟩

/-- Each `key` that has to be written has an identifier. -/
theorem exists_identifier_of_key (h : k.resolve policy = .ok r)
    (hfiles : Rendering params r files) {key : String} (hkey : key ∈ writtenKeys params r) :
    ∃ word, Naming.identifier? key = some word := by
  obtain ⟨own, texts, ⟨⟨types, hdeclares, -⟩, -⟩, -, -, hspells, htexts⟩ := exists_covers h hfiles
  rcases List.mem_append.mp hkey with hkey | hkey
  · exact hspells.exists_identifier ((htexts key).mpr hkey)
  · exact hdeclares.spells.exists_identifier hkey

end Rendering

end Go

end KindSchema
