import KindSchema.Proofs.Json.Pointer
import KindSchema.Proofs.Output.SelfContained
import KindSchema.Proofs.Resolution.Extraction

/-!
# What the references of a JSON Schema point to

The target of a reference is the name of a declaration behind `#/definitions/`, without any
escapes. So what it points to is the entry of the declaration exactly if the name needs none.

* `part?_document`: every declaration has its entry.
* `JsonSchema.references_pointTo_iff`: when all references point to the entries of the declarations
  that they are made from.
-/

namespace KindSchema

namespace JsonSchema

open Json

/-- That the reference `target` points to the entry of `d` in `document`. -/
structure PointsTo (document : Json) (target : String) (d : Declaration) : Prop where
  path : fragmentPath? target = some ["definitions", d.name]
  part : document.part? ["definitions", d.name] = some (definition d).2

private theorem definitionPointer_eq (name : String) :
    definitionPointer name = plainFragment ["definitions", name] := by
  rw [← String.toList_inj, definitionPointer, String.toList_append, plainFragment,
    String.toList_ofList]
  simp

/-- What a reference to a declaration is read as. -/
private theorem fragmentPath?_definitionPointer_iff {name : String} :
    fragmentPath? (definitionPointer name) = some ["definitions", name] ↔ NeedsNoEscape name := by
  rw [definitionPointer_eq, fragmentPath?_plainFragment_iff, List.forall_mem_cons,
    List.forall_mem_singleton]
  exact and_iff_right (by decide)

/-- The entry of a declaration among those of declarations with different names. -/
private theorem lookup_map_definition {declarations : List Declaration} {d : Declaration}
    (hnodup : (declarations.map (·.name)).Nodup) (hd : d ∈ declarations) :
    (declarations.map definition).lookup d.name = some (definition d).2 := by
  obtain ⟨before, after, rfl⟩ := List.append_of_mem hd
  rw [List.map_append, List.map_cons, List.nodup_append] at hnodup
  refine List.lookup_eq_some_iff.mpr
    ⟨before.map definition, after.map definition, List.map_append, ?_⟩
  refine List.forall_mem_map.mpr fun e he => bne_iff_ne.mpr ?_
  exact (hnodup.2.2 e.name (List.mem_map_of_mem he) d.name List.mem_cons_self).symm

variable {params : Params} {r : ResolvedKind} {d : Declaration}

/-- Every `d` that is rendered has its entry in the schema. -/
theorem part?_document (hnodup : ((r.presented params).reachableDeclarations.map (·.name)).Nodup)
    (hd : d ∈ (r.presented params).reachableDeclarations) :
    (document params r).part? ["definitions", d.name] = some (definition d).2 := by
  have hdefinitions : (document params r).parts.lookup "definitions" =
      some (.object ((r.presented params).reachableDeclarations.map definition)) := by
    refine (definitions_document params r).trans (if_neg ?_)
    rw [List.isEmpty_iff]
    exact List.ne_nil_of_mem hd
  rw [part?_cons, hdefinitions, Option.bind_some, part?_cons, parts,
    lookup_map_definition hnodup hd, Option.bind_some, part?_nil]

/-- The references in the schema of `r` are made from the names that the sections and the
declarations mention, which are those of the declarations that are rendered. Each of these has its
entry among the definitions, and a reference made from its name points to the entry exactly if the
name has no slash, tilde or percent sign. So all references point to where they should exactly if no
name that is mentioned has one. -/
theorem references_pointTo_iff {policy : Policy} {k : Kind} (h : k.resolve policy = .ok r)
    (params : Params) :
    let declarations := (r.presented params).reachableDeclarations
    let mentioned := Shape.fieldNames (r.presented params).envelope ++
      declarations.flatMap (·.body.names)
    (document params r).references = mentioned.map definitionPointer ∧
      (∀ name, name ∈ mentioned ↔ ∃! d, d ∈ declarations ∧ d.name = name) ∧
      (∀ d ∈ declarations,
        (document params r).part? ["definitions", d.name] = some (definition d).2 ∧
          (PointsTo (document params r) (definitionPointer d.name) d ↔ NeedsNoEscape d.name)) ∧
      ((∀ name ∈ mentioned, ∃ d ∈ declarations, d.name = name ∧
          PointsTo (document params r) (definitionPointer name) d) ↔
        ∀ name ∈ mentioned, NeedsNoEscape name) := by
  intro declarations mentioned
  have hclosed := Kind.resolve_isClosed h
  have hnodup := (r.isRendered_reachableDeclarations params hclosed (Kind.resolve_nodup h)).nodup
  have hunique : ∀ name, name ∈ mentioned ↔ ∃! d, d ∈ declarations ∧ d.name = name := by
    intro name
    constructor
    · intro hname
      have hdeclared : name ∈ declarations.map (·.name) := by
        rcases List.mem_append.mp hname with hsection | hbody
        · exact r.mem_names_of_section params hclosed hsection
        · exact r.mem_names_of_body params hclosed (Kind.resolve_nodup h) hbody
      obtain ⟨d, hd, rfl⟩ := List.mem_map.mp hdeclared
      exact ⟨d, ⟨hd, rfl⟩, fun e he => List.inj_on_of_nodup_map hnodup he.1 hd he.2⟩
    · rintro ⟨d, ⟨hd, rfl⟩, -⟩
      exact ResolvedKind.mentioned_of_mem_reachableDeclarations hd
  have hpoints : ∀ d ∈ declarations,
      PointsTo (document params r) (definitionPointer d.name) d ↔ NeedsNoEscape d.name := by
    intro d hd
    rw [← fragmentPath?_definitionPointer_iff]
    exact ⟨fun hpoints => hpoints.path, fun hpath => ⟨hpath, part?_document hnodup hd⟩⟩
  refine ⟨references_document params r, hunique,
    fun d hd => ⟨part?_document hnodup hd, hpoints d hd⟩, ?_⟩
  refine forall₂_congr fun name hname => ?_
  -- The declaration that a name is mentioned for is the only one that has it.
  obtain ⟨d, ⟨hd, rfl⟩, hother⟩ := (hunique name).mp hname
  rw [← hpoints d hd]
  constructor
  · rintro ⟨e, he, hname, hpoints⟩
    exact hother e ⟨he, hname⟩ ▸ hpoints
  · exact fun hpoints => ⟨d, hd, rfl, hpoints⟩

end JsonSchema

namespace Sample

open JsonSchema Json

/-- Every reference in the schema of the small kind points to the definition it is made from. -/
theorem pointsTo_shop : shop.resolve .inline = .ok shopInlined ∧
    (document {} shopInlined).references =
      ["#/definitions/SpecOffice", "#/definitions/Person", "#/definitions/SpecOffice"] ∧
    ∀ name ∈ ["SpecOffice", "Person", "SpecOffice"],
      ∃ d ∈ (shopInlined.presented {}).reachableDeclarations, d.name = name ∧
        PointsTo (document {} shopInlined) (definitionPointer name) d := by
  obtain ⟨hreferences, -, -, hall⟩ := references_pointTo_iff resolve_shopInlined {}
  have hmentioned : Shape.fieldNames (shopInlined.presented {}).envelope ++
      (shopInlined.presented {}).reachableDeclarations.flatMap (·.body.names) =
        ["SpecOffice", "Person", "SpecOffice"] := by cbv
  rw [hmentioned] at hreferences hall
  exact ⟨resolve_shopInlined, hreferences, hall.mpr (by decide)⟩

/-- A kind that refers to a definition whose name has a slash. -/
def gallery : Kind where
  name := "Gallery"
  metadata := { type := .struct { fields := [] } }
  spec := { fields := [{ name := "cover", type := .reference "Media/Image" }] }
  status := { fields := [] }
  definitions := [
    { name := "Media/Image",
      type := .struct { fields := [{ name := "url", type := .scalar .string }] } }]

/-- What the kind is resolved to. -/
def galleryResolved : ResolvedKind where
  name := "Gallery"
  machineName := "gallery"
  description := []
  metadata := { name := "metadata", type := .struct [] }
  spec := { name := "spec", type := .struct [{ name := "cover", type := .named "Media/Image" }] }
  status := { name := "status", type := .struct [] }
  declarations := [
    ⟨"Media/Image", [], .struct [{ name := "url", type := .scalar .string }], .defined⟩]

/-- The only reference in the schema of the kind is read as a path that leads nowhere. -/
theorem pointsNowhere_gallery : gallery.resolve .inline = .ok galleryResolved ∧
    (document {} galleryResolved).references = ["#/definitions/Media/Image"] ∧
    fragmentPath? "#/definitions/Media/Image" = some ["definitions", "Media", "Image"] ∧
    (document {} galleryResolved).part? ["definitions", "Media", "Image"] = none := by
  have hresolve : gallery.resolve .inline = .ok galleryResolved := by with_unfolding_all rfl
  have hreachable : (galleryResolved.presented {}).reachableDeclarations =
      galleryResolved.declarations := by cbv
  have hreferences : (document {} galleryResolved).references =
      ["#/definitions/Media/Image"] := by
    rw [references_document, hreachable]
    with_unfolding_all rfl
  exact ⟨hresolve, hreferences, by decide, by with_unfolding_all rfl⟩

end Sample

end KindSchema
