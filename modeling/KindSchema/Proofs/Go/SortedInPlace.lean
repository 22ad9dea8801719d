import KindSchema.Proofs.Go.Imports
import KindSchema.Proofs.Output.SortedInPlace

/-!
# Members of Go structs sorted in place

What `Proofs.Output.SortedInPlace` says of the other targets holds of Go: the members of structs may
as well be put in order where they come to be written.

* `typeOf_arrange`: the Go type of an arranged shape is that of the shape with its structs sorted in
  place, and so are the errors, by induction on shapes.
* `typesFile_eq`: the single file of a kind.
* `filesOfSections_cons_arrange`: the files of sections, one after the other.
-/

namespace KindSchema.Go

/-! ### Types and declarations -/

/-- The members for the fields of the struct at a path, each with what comes of its type; `earlier`
holds the Go names and the keys of the members before them. -/
def membersFrom (path : String) (earlier : List (String × String)) :
    List (Field Shape × Except Unsupported GoType) → Except Unsupported (List (Member GoType))
  | [] => .ok []
  | (f, type) :: fields =>
    match Naming.identifier? f.name with
    | none => .error (.fieldName f.name path)
    | some name => do
      let goType ← type
      match earlier.lookup name with
      | some other => .error (.sameFieldName other f.name path name)
      | none =>
        let rest ← membersFrom path (earlier ++ [(name, f.name)]) fields
        return {
          docs := f.docs, key := f.name, name
          type := if f.optional && needsPointer f.type then .pointer goType else goType
          omitEmpty := f.optional } :: rest

/-- The Go type of a shape, as `typeOf` has it, but with the members of structs sorted in place. -/
def typeOfInPlace (order : MemberOrder) (path : String) : Shape → Except Unsupported GoType
  | .scalar kind => .ok (.scalar kind)
  | .enum _ => .error (.inlineEnum path)
  | .array items => do return .slice (← typeOfInPlace order path items)
  | .map values => do return .map (← typeOfInPlace order path values)
  | .struct fields => do
    let members ← membersFrom path [] ((order.sort fields).attach.map fun f =>
      (f.1, typeOfInPlace order (path ++ "." ++ f.1.name) f.1.type))
    return .struct members
  | .named name => .ok (.named name)
termination_by shape => sizeOf shape
decreasing_by
  · simp
  · simp
  · exact Shape.sizeOf_type_lt f.2

/-- The members of the struct at a path with `fields`, which are in order. -/
def membersOfInPlace (order : MemberOrder) (path : String) (fields : List (Field Shape)) :
    Except Unsupported (List (Member GoType)) :=
  membersFrom path [] (fields.map fun f => (f, typeOfInPlace order (path ++ "." ++ f.name) f.type))

/-- The Go declaration of the declaration `d`. -/
def typeDeclarationInPlace (order : MemberOrder) (d : Declaration) :
    Except Unsupported TypeDeclaration :=
  match d.body with
  | .struct fields => do
    let members ← membersOfInPlace order d.name (order.sort fields)
    return { name := d.name, docs := d.docs, underlying := .struct members }
  | .enum _ => .ok { name := d.name, docs := d.docs, underlying := .enum }
  | .synonym shape => do
    let type ← typeOfInPlace order d.name shape
    return { name := d.name, docs := d.docs, underlying := .type type }

private theorem membersOf_eq_membersFrom (path : String) (earlier : List (String × String))
    (fields : List (Field Shape)) :
    membersOf path earlier fields = membersFrom path earlier
      (fields.map fun f => (f, typeOf (path ++ "." ++ f.name) f.type)) := by
  induction fields generalizing earlier with
  | nil => rw [membersOf, List.map_nil, membersFrom]
  | cons f fields ih =>
    obtain ⟨name, type, optional, docs⟩ := f
    rw [membersOf, List.map_cons, membersFrom]
    cases Naming.identifier? name with
    | none => rfl
    | some goName =>
      refine bind_congr fun goType => ?_
      cases earlier.lookup goName with
      | some other => rfl
      | none => exact congrArg (· >>= _) (ih _)

section InPlace

open Shape (arrangeType)

variable (order : MemberOrder)

private theorem typeOfInPlace_struct (path : String) (fields : List (Field Shape)) :
    typeOfInPlace order path (.struct fields) = do
      return .struct (← membersOfInPlace order path (order.sort fields)) := by
  rw [typeOfInPlace, membersOfInPlace, List.attach_map_val (f := fun f : Field Shape =>
    (f, typeOfInPlace order (path ++ "." ++ f.name) f.type))]

@[simp]
theorem needsPointer_arrange (shape : Shape) :
    needsPointer (shape.arrange order) = needsPointer shape := by
  cases shape <;> rw [Shape.arrange] <;> rfl

/-- Only the head of the type of a field matters beside what comes of the type. -/
private theorem membersFrom_arrange (path : String) (earlier : List (String × String))
    (fields : List (Field Shape × Except Unsupported GoType)) :
    membersFrom path earlier (fields.map fun f => (arrangeType order f.1, f.2)) =
      membersFrom path earlier fields := by
  induction fields generalizing earlier with
  | nil => rfl
  | cons f fields ih =>
    obtain ⟨⟨name, type, optional, docs⟩, goType⟩ := f
    rw [List.map_cons, membersFrom, membersFrom]
    simp only [ih]
    simp only [arrangeType, Field.withType, needsPointer_arrange]

private theorem membersOf_map {fields : List (Field Shape)}
    (h : ∀ f ∈ fields, ∀ path, typeOf path (f.type.arrange order) =
      typeOfInPlace order path f.type) (path : String) :
    membersOf path [] (fields.map (arrangeType order)) = membersOfInPlace order path fields := by
  have hfrom := membersFrom_arrange order path [] (fields.map fun f =>
    (f, typeOfInPlace order (path ++ "." ++ f.name) f.type))
  rw [membersOf_eq_membersFrom, membersOfInPlace, ← hfrom, List.map_map, List.map_map]
  refine congrArg _ (List.map_congr_left fun f hf => ?_)
  exact congrArg (Prod.mk (arrangeType order f)) (h f hf (path ++ "." ++ f.name))

/-- The Go type of `shape`, arranged, is what it is with structs sorted in place. -/
theorem typeOf_arrange (shape : Shape) : ∀ path,
    typeOf path (shape.arrange order) = typeOfInPlace order path shape := by
  induction shape using Shape.fieldwiseInduction with
  | scalar kind => intro path; rw [Shape.arrange, typeOfInPlace, typeOf]
  | enum values => intro path; rw [Shape.arrange, typeOfInPlace, typeOf]
  | array items ih => intro path; rw [Shape.arrange, typeOfInPlace, typeOf, ih]
  | map values ih => intro path; rw [Shape.arrange, typeOfInPlace, typeOf, ih]
  | struct fields ih =>
    intro path
    have hsorted : ∀ f ∈ order.sort fields, ∀ path,
        typeOf path (f.type.arrange order) = typeOfInPlace order path f.type :=
      fun f hf => ih f ((order.sort_perm fields).mem_iff.mp hf)
    rw [Shape.arrange_struct, typeOf, typeOfInPlace_struct, membersOf_map order hsorted]
  | named name => intro path; rw [Shape.arrange, typeOfInPlace, typeOf]

/-- The members of a struct of fields that are in order, the types of which are arranged. -/
private theorem membersOf_arrange (path : String) (fields : List (Field Shape)) :
    membersOf path [] (fields.map (arrangeType order)) = membersOfInPlace order path fields :=
  membersOf_map order (fun f _ => typeOf_arrange order f.type) path

private theorem typeDeclaration_arrange (d : Declaration) :
    typeDeclaration (d.arrange order) = typeDeclarationInPlace order d := by
  obtain ⟨name, docs, body, origin⟩ := d
  unfold Declaration.arrange typeDeclaration typeDeclarationInPlace
  cases body with
  | struct fields =>
    simp only [Body.arrange, structDeclaration, Shape.sort_arrangeTypes, membersOf_arrange]
  | enum values => simp only [Body.arrange]
  | synonym shape => simp only [Body.arrange, shapeDeclaration, typeOf_arrange]

/-! ### Files -/

/-- Enumerations have no members to sort. -/
private theorem constantBlocks_arrange (declarations : List Declaration) :
    constantBlocks (declarations.map (·.arrange order)) = constantBlocks declarations := by
  induction declarations with
  | nil => rfl
  | cons d declarations ih =>
    obtain ⟨name, docs, body, origin⟩ := d
    rw [List.map_cons, constantBlocks, constantBlocks, ih]
    cases body <;> rfl

/-- Whether a shape has a time in it does not depend on the order of members. -/
private theorem usesTime_arrange (shape : Shape) :
    usesTime (shape.arrange order) = usesTime shape := by
  induction shape using Shape.fieldwiseInduction with
  | scalar kind => rw [Shape.arrange]
  | enum values => rw [Shape.arrange]
  | array items ih => rw [Shape.arrange, usesTime, usesTime, ih]
  | map values ih => rw [Shape.arrange, usesTime, usesTime, ih]
  | struct fields ih =>
    -- The flag asks whether any field uses it, so the order of the fields does not matter.
    rw [Shape.arrange_struct, usesTime, usesTime, fieldsUseTime_eq_any, fieldsUseTime_eq_any,
      List.any_map, (order.sort_perm fields).any_eq, Bool.eq_iff_iff, List.any_eq_true,
      List.any_eq_true]
    refine exists_congr fun f => and_congr_right fun hf => ?_
    rw [← ih f hf]
    rfl
  | named name => rw [Shape.arrange]

private theorem declarationsUseTime_arrange (declarations : List Declaration) :
    declarationsUseTime (declarations.map (·.arrange order)) =
      declarationsUseTime declarations := by
  have hfields (fields : List (Field Shape)) :
      fieldsUseTime (order.sort (Shape.arrangeTypes order fields)) = fieldsUseTime fields := by
    have hstruct := usesTime_arrange order (.struct fields)
    rwa [Shape.arrange, usesTime, usesTime] at hstruct
  unfold declarationsUseTime
  rw [List.any_map]
  refine List.any_congr rfl fun d => ?_
  obtain ⟨name, docs, body, origin⟩ := d
  cases body with
  | struct fields => exact hfields fields
  | enum values => rfl
  | synonym shape => exact usesTime_arrange order shape

/-- The file that declares `root` and `declarations`, as `fileOf` makes it, but with the members of
structs sorted in place. -/
def fileOfInPlace (order : MemberOrder) (package : String) (usesTime : Bool)
    (root : Except Unsupported TypeDeclaration) (declarations : List Declaration) :
    Except Unsupported File := do
  let root ← root
  let types ← declarations.mapM (typeDeclarationInPlace order)
  let blocks ← constantBlocks (declarations.mergeSort fun a b => decide (a.name ≤ b.name))
  return {
    package, usesTime, blocks
    types := (root :: types).mergeSort fun a b => decide (a.name ≤ b.name) }

private theorem fileOf_arrange (package : String) (usesTime : Bool)
    (root : Except Unsupported TypeDeclaration) (declarations : List Declaration) :
    fileOf package usesTime root (declarations.map (·.arrange order)) =
      fileOfInPlace order package usesTime root declarations := by
  have htypes : (declarations.map (·.arrange order)).mapM typeDeclaration =
      declarations.mapM (typeDeclarationInPlace order) := by
    rw [List.mapM_map]
    exact congrArg (declarations.mapM ·) (funext (typeDeclaration_arrange order))
  have hsorted : (declarations.mergeSort fun a b => decide (a.name ≤ b.name)).map
        (·.arrange order) =
      (declarations.map (·.arrange order)).mergeSort fun a b => decide (a.name ≤ b.name) :=
    List.map_mergeSort fun _ _ _ _ => rfl
  unfold fileOf fileOfInPlace
  rw [htypes, ← hsorted, constantBlocks_arrange]

/-- The Go file of `k`, with the members of structs sorted where they are written, while the
sections stay in the order they have. -/
theorem typesFile_eq (params : Params) (k : ResolvedKind) : typesFile params k =
    let expanded := k.expandMetadata params.metadata
    fileOfInPlace params.memberOrder (packageOf params k)
      (expanded.envelope.any (usesTime ·.type) ||
        declarationsUseTime expanded.reachableDeclarations)
      (do
        let members ← membersOfInPlace params.memberOrder k.name expanded.envelope
        return { name := k.name, docs := k.description, underlying := .struct members })
      expanded.reachableDeclarations := by
  have hsections : (k.presented params).envelope.any (usesTime ·.type) =
      (k.expandMetadata params.metadata).envelope.any (usesTime ·.type) := by
    rw [k.presented_envelope, List.any_map]
    exact List.any_congr rfl fun f => usesTime_arrange params.memberOrder f.type
  unfold typesFile structDeclaration
  dsimp only
  rw [hsections, k.reachableDeclarations_presented, declarationsUseTime_arrange, fileOf_arrange,
    k.presented_envelope, membersOf_arrange]

/-- The Go file of the section `f`, the first of some of an arranged kind, with the members of
structs sorted where they are written. -/
theorem filesOfSections_cons_arrange (package : String) (k : ResolvedKind)
    (claimed : List String) (f : Field Shape) (sections : List (Field Shape)) :
    filesOfSections package (k.arrange order) claimed ((f :: sections).map (arrangeType order)) = do
      let declarations := (k.reachable [f.type]).filter fun d => d.name ∉ claimed
      let own := do
        let type ← typeOfInPlace order (sectionTypeName f) f.type
        return { name := sectionTypeName f, docs := f.docs, underlying := .type type }
      let file ← fileOfInPlace order package
        (usesTime f.type || declarationsUseTime declarations) own declarations
      let rest ← filesOfSections package (k.arrange order)
        (claimed ++ declarations.map (·.name)) (sections.map (arrangeType order))
      return { name := k.machineName ++ "_" ++ Naming.lower f.name ++ "_gen.go", file } ::
        rest := by
  have hreachable : (k.arrange order).reachable [f.type.arrange order] =
      (k.reachable [f.type]).map (·.arrange order) := k.reachable_arrange order [f.type]
  have hunclaimed : ((k.reachable [f.type]).map (·.arrange order)).filter
        (fun d => d.name ∉ claimed) =
      ((k.reachable [f.type]).filter fun d => d.name ∉ claimed).map (·.arrange order) :=
    List.filter_map
  have hnames (declarations : List Declaration) :
      (declarations.map (·.arrange order)).map (·.name) = declarations.map (·.name) :=
    List.map_map
  rw [List.map_cons, filesOfSections]
  simp only [arrangeType, Field.withType, sectionTypeName, hreachable, hunclaimed, hnames,
    usesTime_arrange, declarationsUseTime_arrange, fileOf_arrange, shapeDeclaration,
    typeOf_arrange]
  rfl

end InPlace

end KindSchema.Go
