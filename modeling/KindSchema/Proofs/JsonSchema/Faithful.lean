import KindSchema.Proofs.JsonSchema.References
import KindSchema.Proofs.Output.Outline
import KindSchema.Proofs.Resolution.FieldNames
import KindSchema.Proofs.Resolution.Unfolding

/-!
# Kinds are read back from their schemas

The schema of a kind determines all that it shows of the kind: its name, its sections and the
declarations that these depend on, up to where the lines of documentation end.

* `schema_inj`, `propertySchemas_inj`: shapes of one schema differ in their documentation at most,
  and that only in where its lines end.
* `document_inj`: so do kinds of one schema.
-/

namespace KindSchema.JsonSchema

/-! ### Documentation -/

/-- The keys of `members`. -/
abbrev keys (members : List (String × Json)) : List String :=
  members.map Prod.fst

/-- Documentation is read back from a schema without a description of its own, up to where its
lines end. -/
private theorem describe_inj {docs docs' : List String} {members members' : List (String × Json)}
    (h : describe docs members = describe docs' members') (hkeys : "description" ∉ keys members)
    (hkeys' : "description" ∉ keys members') :
    "\n".intercalate docs = "\n".intercalate docs' ∧ members = members' := by
  unfold describe at h
  -- A description is the last member; were only one written, the other would have the key as well.
  by_cases hdocs : docs.isEmpty = true <;> by_cases hdocs' : docs'.isEmpty = true
  · rw [if_pos hdocs, if_pos hdocs'] at h
    rw [List.isEmpty_iff.mp hdocs, List.isEmpty_iff.mp hdocs']
    exact ⟨rfl, h⟩
  · rw [if_pos hdocs, if_neg hdocs'] at h
    exact absurd (h ▸ by simp) hkeys
  · rw [if_neg hdocs, if_pos hdocs'] at h
    exact absurd (h ▸ by simp) hkeys'
  · rw [if_neg hdocs, if_neg hdocs'] at h
    obtain ⟨hmembers, hlast⟩ := List.append_inj' h rfl
    simp only [List.cons.injEq, Prod.mk.injEq, Json.string.injEq, true_and, and_true] at hlast
    exact ⟨hlast, hmembers⟩

/-! ### Constructors -/

/-- What the keys of a schema tell about the type that it stands for. -/
def formOfKeys : List String → Shape.Form
  | "$ref" :: _ => .named
  | "type" :: "enum" :: _ => .enum
  | "type" :: "items" :: _ => .array
  | "type" :: "additionalProperties" :: _ => .map
  | "type" :: "properties" :: _ => .struct
  | _ => .scalar

private theorem formOfKeys_schema (shape : Shape) :
    formOfKeys (keys (schema shape)) = shape.form := by
  cases shape with
  | scalar kind => cases kind <;> rfl
  | _ => rfl

/-- A schema has no description of its own. -/
private theorem description_notMem_schema (shape : Shape) :
    "description" ∉ keys (schema shape) := by
  cases shape with
  | scalar kind => cases kind <;> decide
  | enum values => exact (by decide : "description" ∉ ["type", "enum"])
  | array items => exact (by decide : "description" ∉ ["type", "items"])
  | map values => exact (by decide : "description" ∉ ["type", "additionalProperties"])
  | struct fields =>
    rw [schema]
    unfold objectSchema
    dsimp only
    split
    · exact (by decide : "description" ∉ ["type", "properties"])
    · exact (by decide : "description" ∉ ["type", "properties", "required"])
  | named name => exact (by decide : "description" ∉ ["$ref"])

/-! ### Parts of a schema -/

private theorem texts_inj {lines lines' : List String} (h : Json.texts lines = .texts lines') :
    lines = lines' := by
  unfold Json.texts at h
  exact List.map_injective_iff.mpr (fun _ _ => Json.string.inj) (Json.array.inj h)

private theorem definitionPointer_inj {name name' : String}
    (h : definitionPointer name = definitionPointer name') : name = name' := by
  have hchars := congrArg String.toList h
  unfold definitionPointer at hchars
  rw [String.toList_append, String.toList_append] at hchars
  exact String.toList_inj.mp (List.append_cancel_left hchars)

private theorem scalarSchema_inj {kind kind' : Scalar}
    (h : scalarSchema kind = scalarSchema kind') :
    kind = kind' := by
  revert h
  cases kind <;> cases kind' <;> simp [scalarSchema]

/-- The schemas of the fields and the names of those that are required are read back from the
schema of a struct. -/
private theorem objectSchema_inj {fields fields' : List (Field Shape)}
    {properties properties' : List (String × Json)}
    (h : objectSchema fields properties = objectSchema fields' properties') :
    properties = properties' ∧ requiredNames fields = requiredNames fields' := by
  unfold objectSchema at h
  obtain ⟨-, htail⟩ := List.cons.inj h
  obtain ⟨hproperties, hrequired⟩ := List.cons.inj htail
  refine ⟨Json.object.inj (Prod.mk.inj hproperties).2, ?_⟩
  -- The required names are left out when there are none, so a list that is written is not empty.
  by_cases hnone : (requiredNames fields).isEmpty = true <;>
    by_cases hnone' : (requiredNames fields').isEmpty = true
  · rw [List.isEmpty_iff.mp hnone, List.isEmpty_iff.mp hnone']
  · simp only [if_pos hnone, if_neg hnone'] at hrequired
    cases hrequired
  · simp only [if_neg hnone, if_pos hnone'] at hrequired
    cases hrequired
  · simp only [if_neg hnone, if_neg hnone'] at hrequired
    exact texts_inj (Prod.mk.inj (List.cons.inj hrequired).1).2

private theorem requiredNames_cons (f : Field Shape) (fields : List (Field Shape)) :
    requiredNames (f :: fields) =
      if f.optional then requiredNames fields else f.name :: requiredNames fields := by
  unfold requiredNames
  cases hoptional : f.optional <;> simp [hoptional]

private theorem requiredNames_subset (fields : List (Field Shape)) :
    requiredNames fields ⊆ fields.map (·.name) :=
  List.map_subset _ (List.filter_subset_self fields)

/-- Which fields are optional is read back from the names of the others, if names are different. -/
private theorem requiredNames_cons_inj {f f' : Field Shape} {fields fields' : List (Field Shape)}
    (hname : f.name = f'.name) (hnames : fields.map (·.name) = fields'.map (·.name))
    (hnew : f.name ∉ fields.map (·.name))
    (h : requiredNames (f :: fields) = requiredNames (f' :: fields')) :
    f.optional = f'.optional ∧ requiredNames fields = requiredNames fields' := by
  rw [requiredNames_cons, requiredNames_cons, ← hname] at h
  cases hoptional : f.optional <;> cases hoptional' : f'.optional <;>
    rw [hoptional, hoptional'] at h
  · exact ⟨rfl, (List.cons.inj h).2⟩
  · -- The name of the first field would be required of one further back.
    have hmem : f.name ∈ requiredNames fields' := (congrArg (f.name ∈ ·) h).mp List.mem_cons_self
    exact absurd (hnames ▸ requiredNames_subset fields' hmem) hnew
  · have hmem : f.name ∈ requiredNames fields := (congrArg (f.name ∈ ·) h).mpr List.mem_cons_self
    exact absurd (requiredNames_subset fields hmem) hnew
  · exact ⟨rfl, h⟩

private theorem keys_propertySchemas (fields : List (Field Shape)) :
    keys (propertySchemas fields) = fields.map (·.name) := by
  induction fields with
  | nil => rfl
  | cons f fields ih => exact congrArg (f.name :: ·) ih

/-! ### Shapes -/

/-- Shapes of one schema have one constructor. -/
private theorem form_eq_of_schema_eq {a b : Shape} (h : schema a = schema b) : a.form = b.form := by
  rw [← formOfKeys_schema, h, formOfKeys_schema]

mutual

/-- The shapes `a` and `b`, if they have one schema, differ in their documentation at most. -/
theorem schema_inj : ∀ {a b : Shape}, a.FieldsDiffer → b.FieldsDiffer → schema a = schema b →
    a.joinDocs = b.joinDocs
  | .scalar kind, b, _, _, h => by
    -- Equal schemas have equal forms, so only the equal constructor is left for `b`.
    have hform := form_eq_of_schema_eq h
    cases b with
    | scalar kind' => exact congrArg Shape.scalar (scalarSchema_inj h)
    | _ => cases hform
  | .enum values, b, _, _, h => by
    have hform := form_eq_of_schema_eq h
    cases b with
    | enum values' =>
      have hvalues := texts_inj (Prod.mk.inj (List.cons.inj (List.cons.inj h).2).1).2
      exact congrArg Shape.enum hvalues
    | _ => cases hform
  | .array items, b, ha, hb, h => by
    have hform := form_eq_of_schema_eq h
    cases b with
    | array items' =>
      have hitems := Json.object.inj (Prod.mk.inj (List.cons.inj (List.cons.inj h).2).1).2
      exact congrArg Shape.array (schema_inj ha hb hitems)
    | _ => cases hform
  | .map values, b, ha, hb, h => by
    have hform := form_eq_of_schema_eq h
    cases b with
    | map values' =>
      have hvalues := Json.object.inj (Prod.mk.inj (List.cons.inj (List.cons.inj h).2).1).2
      exact congrArg Shape.map (schema_inj ha hb hvalues)
    | _ => cases hform
  | .struct fields, b, ha, hb, h => by
    have hform := form_eq_of_schema_eq h
    cases b with
    | struct fields' =>
      obtain ⟨hproperties, hrequired⟩ := objectSchema_inj h
      exact congrArg Shape.struct (propertySchemas_inj ha.1 ha.2 hb.2 hproperties hrequired)
    | _ => cases hform
  | .named name, b, _, _, h => by
    have hform := form_eq_of_schema_eq h
    cases b with
    | named name' =>
      have hpointer := Json.string.inj (Prod.mk.inj (List.cons.inj h).1).2
      exact congrArg Shape.named (definitionPointer_inj hpointer)
    | _ => cases hform

/-- The fields `fields` and `fields'`, if they have one schema and the same ones are required,
differ in their documentation at most. -/
theorem propertySchemas_inj : ∀ {fields fields' : List (Field Shape)},
    (fields.map (·.name)).Nodup → Shape.TypesDiffer fields → Shape.TypesDiffer fields' →
    propertySchemas fields = propertySchemas fields' →
    requiredNames fields = requiredNames fields' →
      Shape.joinFieldDocs fields = Shape.joinFieldDocs fields'
  | [], [], _, _, _, _, _ => rfl
  | [], _ :: _, _, _, _, h, _ => nomatch h
  | _ :: _, [], _, _, _, h, _ => nomatch h
  | ⟨name, type, optional, docs⟩ :: fields, ⟨name', type', optional', docs'⟩ :: fields', hnodup,
      ha, hb, h, hrequired => by
    obtain ⟨hnew, hnodup⟩ := List.nodup_cons.mp hnodup
    obtain ⟨hfirst, hrest⟩ := List.cons.inj h
    obtain ⟨rfl, hschema⟩ := Prod.mk.inj hfirst
    have hnames : fields.map (·.name) = fields'.map (·.name) := by
      rw [← keys_propertySchemas, hrest, keys_propertySchemas]
    obtain ⟨hoptional, hrequired⟩ := requiredNames_cons_inj (by rfl) hnames hnew hrequired
    obtain ⟨hdocs, htype⟩ := describe_inj (Json.object.inj hschema) (description_notMem_schema type)
      (description_notMem_schema type')
    have hfield : (⟨name, type.joinDocs, optional, ["\n".intercalate docs]⟩ : Field Shape) =
        ⟨name, type'.joinDocs, optional', ["\n".intercalate docs']⟩ := by
      rw [schema_inj ha.1 hb.1 htype, hdocs, show optional = optional' from hoptional]
    exact congrArg₂ List.cons hfield (propertySchemas_inj hnodup ha.2 hb.2 hrest hrequired)

end

/-! ### Declarations -/

private theorem bodySchema_eq_schema (b : Body) : bodySchema b = schema b.shape := by
  cases b <;> rfl

/-- Bodies of one schema differ in their documentation at most. -/
private theorem bodySchema_inj {a b : Body} (ha : a.FieldsDiffer) (hb : b.FieldsDiffer)
    (h : bodySchema a = bodySchema b) : a.joinDocs = b.joinDocs := by
  rw [bodySchema_eq_schema, bodySchema_eq_schema] at h
  have hform := form_eq_of_schema_eq h
  cases a with
  | struct fields =>
    cases b with
    | struct fields' => exact congrArg Body.struct (Shape.struct.inj (schema_inj ha hb h))
    | enum values' => cases hform
    | synonym shape' => exact absurd hform.symm hb.2.1
  | enum values =>
    -- A synonym is never of the form of a struct or of an enumeration: those are bodies.
    cases b with
    | struct fields' => cases hform
    | enum values' =>
      have hshape : Shape.enum values = .enum values' :=
        schema_inj (a := .enum values) (b := .enum values') trivial trivial h
      exact congrArg Body.enum (Shape.enum.inj hshape)
    | synonym shape' => exact absurd hform.symm hb.2.2
  | synonym shape =>
    cases b with
    | struct fields' => exact absurd hform ha.2.1
    | enum values' => exact absurd hform ha.2.2
    | synonym shape' => exact congrArg Body.synonym (schema_inj ha.1 hb.1 h)

/-- What the schema of `d` shows of it. -/
def shown (d : Declaration) : String × String × Body :=
  (d.name, "\n".intercalate d.docs, d.body.joinDocs)

/-- Declarations of one schema show the same. -/
private theorem definition_inj {d d' : Declaration} (hd : d.body.FieldsDiffer)
    (hd' : d'.body.FieldsDiffer) (h : definition d = definition d') : shown d = shown d' := by
  obtain ⟨hname, hschema⟩ := Prod.mk.inj h
  have hkeys (b : Body) : "description" ∉ keys (bodySchema b) :=
    bodySchema_eq_schema b ▸ description_notMem_schema _
  obtain ⟨hdocs, hbody⟩ := describe_inj (Json.object.inj hschema) (hkeys d.body) (hkeys d'.body)
  rw [shown, shown, hname, hdocs, bodySchema_inj hd hd' hbody]

private theorem definitions_inj {ds ds' : List Declaration} (hds : ∀ d ∈ ds, d.body.FieldsDiffer)
    (hds' : ∀ d ∈ ds', d.body.FieldsDiffer) (h : ds.map definition = ds'.map definition) :
    ds.map shown = ds'.map shown := by
  induction ds generalizing ds' with
  | nil => rw [List.map_eq_nil_iff.mp h.symm]
  | cons d ds ih =>
    cases ds' with
    | nil => cases h
    | cons d' ds' =>
      obtain ⟨hfirst, hrest⟩ := List.cons.inj h
      obtain ⟨hd, hds⟩ := List.forall_mem_cons.mp hds
      obtain ⟨hd', hds'⟩ := List.forall_mem_cons.mp hds'
      exact congrArg₂ List.cons (definition_inj hd hd' hfirst) (ih hds hds' hrest)

/-! ### Kinds -/

section Kinds

variable {params : Params} {r r' : ResolvedKind}

/-- Values that are there unless a list is empty are the same if both are there. -/
private theorem eq_nil_or_eq {α β γ : Type} {as : List α} {bs : List β} {x y : γ}
    (h : (if as.isEmpty then none else some x) = if bs.isEmpty then none else some y) :
    (as = [] ∧ bs = []) ∨ x = y := by
  by_cases has : as.isEmpty = true <;> by_cases hbs : bs.isEmpty = true
  · exact .inl ⟨List.isEmpty_iff.mp has, List.isEmpty_iff.mp hbs⟩
  · rw [if_pos has, if_neg hbs] at h
    cases h
  · rw [if_neg has, if_pos hbs] at h
    cases h
  · rw [if_neg has, if_neg hbs] at h
    exact .inr (Option.some.inj h)

/-- The definitions are a member of their own. -/
private theorem lookup_definitions {key : String} (hkey : key ≠ "definitions")
    (definitions : List (String × Json)) :
    (if definitions.isEmpty then [] else
      [("definitions", Json.object definitions)]).lookup key = none := by
  split
  · rfl
  · rw [List.lookup_cons, beq_eq_false_iff_ne.mpr hkey, List.lookup_nil]

private theorem title_document : (document params r).member? "title" = some (.string r.name) := by
  unfold document Json.member?
  dsimp only
  rw [List.lookup_append, List.lookup_append, lookup_describe (by decide)]
  rfl

private theorem description_document : (document params r).member? "description" =
    if r.description.isEmpty then none else some (.string ("\n".intercalate r.description)) := by
  have hschema : (schema (.struct (r.presented params).envelope)).lookup "description" = none := by
    rw [List.lookup_eq_none_iff]
    intro member hmember
    have hne := ne_of_mem_of_not_mem (List.mem_map_of_mem hmember) (description_notMem_schema _)
    exact bne_iff_ne.mpr hne.symm
  unfold document Json.member?
  dsimp only
  rw [List.lookup_append, List.lookup_append, hschema, lookup_definitions (by decide),
    Option.or_none, Option.or_none]
  unfold describe
  split <;> rfl

private theorem properties_document : (document params r).member? "properties" =
    some (.object (propertySchemas (r.presented params).envelope)) := by
  unfold document Json.member?
  dsimp only
  rw [List.lookup_append, List.lookup_append, lookup_describe (by decide)]
  rfl

private theorem required_document : (document params r).member? "required" =
    if (requiredNames (r.presented params).envelope).isEmpty then none
    else some (.texts (requiredNames (r.presented params).envelope)) := by
  unfold document Json.member?
  dsimp only
  rw [List.lookup_append, List.lookup_append, lookup_describe (by decide), schema,
    lookup_definitions (by decide), Option.or_none]
  unfold objectSchema
  dsimp only
  split <;> rfl

/-- Kinds of one schema, no struct of which has two fields of one name, differ at most in what is
not rendered. -/
private theorem document_inj_of_fieldsDiffer (hr : (r.presented params).FieldsDiffer)
    (hr' : (r'.presented params).FieldsDiffer) (h : document params r = document params r') :
    r.name = r'.name ∧ "\n".intercalate r.description = "\n".intercalate r'.description ∧
      Shape.joinFieldDocs (r.presented params).envelope =
        Shape.joinFieldDocs (r'.presented params).envelope ∧
      (r.presented params).reachableDeclarations.map shown =
        (r'.presented params).reachableDeclarations.map shown := by
  have hmember (key : String) := congrArg (Json.member? key) h
  have htitle := hmember "title"
  rw [title_document, title_document] at htitle
  have hdescription := hmember "description"
  rw [description_document, description_document] at hdescription
  have hproperties := hmember "properties"
  rw [properties_document, properties_document] at hproperties
  have hrequired := hmember "required"
  rw [required_document, required_document] at hrequired
  have hdefinitions := hmember "definitions"
  rw [definitions_document, definitions_document] at hdefinitions
  refine ⟨Json.string.inj (Option.some.inj htitle), ?_, ?_, ?_⟩
  · obtain ⟨hnone, hnone'⟩ | hsome := eq_nil_or_eq hdescription
    · rw [hnone, hnone']
    · exact Json.string.inj hsome
  · refine propertySchemas_inj hr.sections.1 hr.sections.2 hr'.sections.2
      (Json.object.inj (Option.some.inj hproperties)) ?_
    obtain ⟨hnone, hnone'⟩ | hsome := eq_nil_or_eq hrequired
    · rw [hnone, hnone']
    · exact texts_inj hsome
  · have hreached {r : ResolvedKind} (hr : r.FieldsDiffer) :
        ∀ d ∈ r.reachableDeclarations, d.body.FieldsDiffer :=
      fun d hd => hr.bodies d (ResolvedKind.mem_reachable.mp hd).1
    obtain ⟨hnone, hnone'⟩ | hsome := eq_nil_or_eq hdefinitions
    · rw [hnone, hnone']
    · exact definitions_inj (hreached hr) (hreached hr') (Json.object.inj hsome)

end Kinds

/-- Resolved kinds `r` and `r'` of one schema, written in the declared order, have the same name,
the same description, the same sections and the same declarations that these depend on, up to where
the lines of documentation end. -/
theorem document_inj {params : Params} {policy policy' : Policy} {k k' : Kind}
    {r r' : ResolvedKind} (hr : k.resolve policy = .ok r) (hr' : k'.resolve policy' = .ok r')
    (horder : params.memberOrder = .declared) (h : document params r = document params r') :
    r.name = r'.name ∧ "\n".intercalate r.description = "\n".intercalate r'.description ∧
      Shape.joinFieldDocs (r.expandMetadata params.metadata).envelope =
        Shape.joinFieldDocs (r'.expandMetadata params.metadata).envelope ∧
      (r.expandMetadata params.metadata).reachableDeclarations.map shown =
        (r'.expandMetadata params.metadata).reachableDeclarations.map shown := by
  have hdiffer := (Kind.resolve_fieldsDiffer hr).expandMetadata params.metadata
  have hdiffer' := (Kind.resolve_fieldsDiffer hr').expandMetadata params.metadata
  rw [← r.presented_declared horder] at hdiffer ⊢
  rw [← r'.presented_declared horder] at hdiffer' ⊢
  exact document_inj_of_fieldsDiffer hdiffer hdiffer' h

end KindSchema.JsonSchema

namespace KindSchema.Sample

open JsonSchema

/-- A kind with a field whose documentation is `docs`. -/
def note (docs : List String) : Kind where
  name := "Note"
  description := docs
  metadata := { type := .struct { fields := [] } }
  spec := { fields := [{ name := "text", type := .string, optional := true, docs }] }
  status := { fields := [] }

/-- The kind, resolved. -/
def noteResolved (docs : List String) : ResolvedKind where
  name := "Note"
  machineName := "note"
  description := docs
  metadata := { name := "metadata", type := .struct [] }
  spec := { name := "spec", type := .struct [
    { name := "text", type := .scalar .string, optional := true, docs }] }
  status := { name := "status", type := .struct [] }
  declarations := []

/-- Documentation in two lines has the schema of one text with a line break. -/
private theorem document_note :
    document {} (noteResolved ["One.", "Two."]) = document {} (noteResolved ["One.\nTwo."]) := by
  rfl

/-- What the schema shows of the kind does not depend on where the lines end. -/
theorem joinFieldDocs_note :
    (note ["One.", "Two."]).resolve .inline = .ok (noteResolved ["One.", "Two."]) ∧
      (note ["One.\nTwo."]).resolve .inline = .ok (noteResolved ["One.\nTwo."]) ∧
      Shape.joinFieldDocs ((noteResolved ["One.", "Two."]).expandMetadata .expanded).envelope =
        Shape.joinFieldDocs ((noteResolved ["One.\nTwo."]).expandMetadata .expanded).envelope := by
  have hlines : (note ["One.", "Two."]).resolve .inline = .ok (noteResolved ["One.", "Two."]) := by
    with_unfolding_all rfl
  have htext : (note ["One.\nTwo."]).resolve .inline = .ok (noteResolved ["One.\nTwo."]) := by
    with_unfolding_all rfl
  obtain ⟨-, -, henvelope, -⟩ := document_inj hlines htext (by rfl) document_note
  exact ⟨hlines, htext, henvelope⟩

end KindSchema.Sample
