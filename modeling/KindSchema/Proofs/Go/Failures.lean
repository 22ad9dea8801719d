import KindSchema.Output.Rendering
import KindSchema.Proofs.Go.Expressible
import KindSchema.Proofs.Resolution.InlineStructs
import KindSchema.Proofs.Resolution.Nominal
import KindSchema.Proofs.Resolution.Unfolding

/-!
# When there is no Go file

The nominal policy leaves nothing in place that Go cannot write, so all that can stand in the way of
a Go file are names: those of the fields of a struct, and the literals of an enumeration. They are
turned into identifiers, and two of them may be turned into the same.

* `Misnamed`: names of which there are no identifiers, or not enough of them.
* `exists_typeOf_iff`, `exists_membersOf_iff`, `exists_constantsOf_iff`: what has a Go type.
* `nominal_and_goTypes_fails_iff`: kinds resolved under the nominal policy, and when there is no Go
  file of them.
-/

namespace KindSchema

namespace Go

/-! ### Names -/

/-- That `names` cannot stand side by side in Go: one of them makes no identifier, or two of them
make the same. -/
def Misnamed (names : List String) : Prop :=
  (∃ name ∈ names, Naming.identifier? name = none) ∨
    ∃ a b, [a, b].Sublist names ∧ Naming.identifier? a = Naming.identifier? b

/-- That `word?` gives every one of `names` a word, which is not in `seen` and is no other's. -/
structure Nameable (word? : String → Option String) (seen names : List String) : Prop where
  named : ∀ name ∈ names, ∃ word, word? name = some word ∧ word ∉ seen
  apart : names.Pairwise fun a b => word? a ≠ word? b

private theorem nameable_nil {word? : String → Option String} {seen : List String} :
    Nameable word? seen [] :=
  ⟨fun _ hname => absurd hname List.not_mem_nil, .nil⟩

/-- Names have words of their own if the first has a new one and the others have words besides. -/
private theorem nameable_cons_iff {word? : String → Option String} {seen names : List String}
    {name : String} : Nameable word? seen (name :: names) ↔
      ∃ word, word? name = some word ∧ word ∉ seen ∧ Nameable word? (seen ++ [word]) names := by
  constructor
  · rintro ⟨hnamed, hapart⟩
    obtain ⟨⟨word, hword, hnew⟩, hnamed⟩ := List.forall_mem_cons.mp hnamed
    obtain ⟨hfirst, hapart⟩ := List.pairwise_cons.mp hapart
    refine ⟨word, hword, hnew, fun other hother => ?_, hapart⟩
    obtain ⟨word', hword', hnew'⟩ := hnamed other hother
    refine ⟨word', hword', fun hmem => ?_⟩
    rcases List.mem_append.mp hmem with hmem | hmem
    · exact hnew' hmem
    · rw [List.mem_singleton.mp hmem, ← hword] at hword'
      exact hfirst other hother hword'.symm
  · rintro ⟨word, hword, hnew, hnamed, hapart⟩
    refine ⟨List.forall_mem_cons.mpr ⟨⟨word, hword, hnew⟩, fun other hother => ?_⟩,
      List.pairwise_cons.mpr ⟨fun other hother hsame => ?_, hapart⟩⟩
    -- The word of the first name is among those seen by the later ones.
    · obtain ⟨word', hword', hnew'⟩ := hnamed other hother
      exact ⟨word', hword', fun hmem => hnew' (List.mem_append_left _ hmem)⟩
    · obtain ⟨word', hword', hnew'⟩ := hnamed other hother
      rw [hword', hword] at hsame
      exact hnew' (List.mem_append_right _ (List.mem_singleton.mpr (Option.some.inj hsame).symm))

/-- Names have identifiers of their own unless they are misnamed. -/
private theorem nameable_iff_not_misnamed {names : List String} :
    Nameable Naming.identifier? [] names ↔ ¬ Misnamed names := by
  rw [Misnamed, not_or]
  constructor
  · rintro ⟨hnamed, hapart⟩
    refine ⟨fun ⟨name, hname, hnone⟩ => ?_, fun ⟨a, b, hsub, hsame⟩ => ?_⟩
    · obtain ⟨word, hword, -⟩ := hnamed name hname
      rw [hnone] at hword
      cases hword
    · exact List.pairwise_iff_forall_sublist.mp hapart hsub hsame
  · rintro ⟨hnamed, hapart⟩
    refine ⟨fun name hname => ?_, List.pairwise_iff_forall_sublist.mpr fun hsub hsame => ?_⟩
    · obtain ⟨word, hword⟩ := Option.ne_none_iff_exists'.mp fun hnone => hnamed ⟨name, hname, hnone⟩
      exact ⟨word, hword, List.not_mem_nil⟩
    · exact hapart ⟨_, _, hsub, hsame⟩

/-- The name of the type in front of all constants changes nothing. -/
private theorem nameable_constantName?_iff {type : String} {values : List String} :
    Nameable (constantName? type) [] values ↔ Nameable Naming.identifier? [] values := by
  have hsame (a b : String) : constantName? type a = constantName? type b ↔
      Naming.identifier? a = Naming.identifier? b :=
    (Option.map_injective fun _ _ h => (String.append_right_inj type).mp h).eq_iff
  have hnamed (a : String) : (∃ word, constantName? type a = some word ∧ word ∉ []) ↔
      ∃ word, Naming.identifier? a = some word ∧ word ∉ [] := by
    simp [constantName?, Option.map_eq_some_iff]
  constructor
  · rintro ⟨h, hapart⟩
    exact ⟨fun a ha => (hnamed a).mp (h a ha), hapart.imp fun hne => mt (hsame _ _).mpr hne⟩
  · rintro ⟨h, hapart⟩
    exact ⟨fun a ha => (hnamed a).mpr (h a ha), hapart.imp fun hne => mt (hsame _ _).mp hne⟩

/-! ### Types -/

private theorem lookup_eq_none_iff_not_mem {l : List (String × String)} {name : String} :
    l.lookup name = none ↔ name ∉ l.map (·.1) := by
  refine ⟨not_mem_keys_of_lookup, fun h => List.lookup_eq_none_iff.mpr fun e he => ?_⟩
  exact bne_iff_ne.mpr fun heq => h (List.mem_map.mpr ⟨e, he, heq.symm⟩)

mutual

/-- If `shape` is nominal, it has a Go type unless a struct in it is misnamed. -/
theorem exists_typeOf_iff : ∀ {shape : Shape} (path : String), shape.Nominal →
    ((∃ type, typeOf path shape = .ok type) ↔
      ∀ fields ∈ shape.structs, ¬ Misnamed (fields.map (·.name)))
  | .scalar _, _, _ => iff_of_true ⟨_, rfl⟩ fun _ hs => absurd hs List.not_mem_nil
  | .enum _, _, h => absurd h (Shape.not_nominal_enum _)
  | .array _, path, h => by
    rw [typeOf, Shape.structs, ← exists_typeOf_iff path (Shape.nominal_array_iff.mp h).2,
      exists_bind_eq_ok_iff]
    exact exists_congr fun type => and_iff_left ⟨_, rfl⟩
  | .map _, path, h => by
    rw [typeOf, Shape.structs, ← exists_typeOf_iff path (Shape.nominal_map_iff.mp h).2,
      exists_bind_eq_ok_iff]
    exact exists_congr fun type => and_iff_left ⟨_, rfl⟩
  | .struct fields, path, h => by
    have hmembers := exists_membersOf_iff path [] (Shape.nominal_struct_iff.mp h)
    rw [typeOf, Shape.structs, List.forall_mem_cons, ← nameable_iff_not_misnamed,
      exists_bind_eq_ok_iff]
    refine Iff.trans (exists_congr fun members => and_iff_left ⟨_, rfl⟩) hmembers
  | .named _, _, _ => iff_of_true ⟨_, rfl⟩ fun _ hs => absurd hs List.not_mem_nil

/-- If `fields` are nominal, they have Go members if their names have identifiers besides those of
the members in `earlier`, and no struct inside them is misnamed. -/
theorem exists_membersOf_iff : ∀ {fields : List (Field Shape)} (path : String)
    (earlier : List (String × String)), (∀ f ∈ fields, f.type.Nominal) →
      ((∃ members, membersOf path earlier fields = .ok members) ↔
        Nameable Naming.identifier? (earlier.map (·.1)) (fields.map (·.name)) ∧
          ∀ inner ∈ Shape.fieldStructs fields, ¬ Misnamed (inner.map (·.name)))
  | [], _, _, _ => iff_of_true ⟨_, rfl⟩ ⟨nameable_nil, fun _ hs => absurd hs List.not_mem_nil⟩
  | ⟨key, type, _, _⟩ :: fields, path, earlier, h => by
    obtain ⟨htype, hfields⟩ := List.forall_mem_cons.mp h
    rw [List.map_cons, nameable_cons_iff, Shape.fieldStructs, List.forall_mem_append]
    constructor
    · rintro ⟨members, hmembers⟩
      rw [membersOf] at hmembers
      split at hmembers
      · cases hmembers
      · next word hword =>
        obtain ⟨goType, hgoType, hmembers⟩ := bind_eq_ok.mp hmembers
        split at hmembers
        · cases hmembers
        · next hnew =>
          obtain ⟨rest, hrest, -⟩ := bind_return_eq_ok.mp hmembers
          obtain ⟨hnames, hinner⟩ := (exists_membersOf_iff _ _ hfields).mp ⟨rest, hrest⟩
          rw [List.map_append] at hnames
          exact ⟨⟨word, hword, lookup_eq_none_iff_not_mem.mp hnew, hnames⟩,
            (exists_typeOf_iff _ htype).mp ⟨goType, hgoType⟩, hinner⟩
    · rintro ⟨⟨word, hword, hnew, hnames⟩, htypes, hinner⟩
      obtain ⟨goType, hgoType⟩ :=
        (exists_typeOf_iff (path ++ "." ++ key) htype).mpr htypes
      have hrest : ∃ rest, membersOf path (earlier ++ [(word, key)]) fields = .ok rest :=
        (exists_membersOf_iff _ _ hfields).mpr ⟨by rwa [List.map_append], hinner⟩
      obtain ⟨rest, hrest⟩ := hrest
      rw [membersOf, hword]
      refine exists_bind_eq_ok_iff.mpr ⟨goType, hgoType, ?_⟩
      rw [lookup_eq_none_iff_not_mem.mpr hnew]
      exact exists_bind_eq_ok_iff.mpr ⟨rest, hrest, _, rfl⟩

end

/-- The struct of some nominal fields has a Go type unless one of its structs is misnamed. -/
private theorem exists_structDeclaration_iff {name : String} {docs : List String}
    {fields : List (Field Shape)} (h : ∀ f ∈ fields, f.type.Nominal) :
    (∃ t, structDeclaration name docs fields = .ok t) ↔
      ∀ inner ∈ Shape.structs (.struct fields), ¬ Misnamed (inner.map (·.name)) := by
  rw [← exists_typeOf_iff name (Shape.nominal_struct_iff.mpr h), structDeclaration, typeOf,
    exists_bind_eq_ok_iff, exists_bind_eq_ok_iff]
  exact exists_congr fun members => and_congr_right fun _ => iff_of_true ⟨_, rfl⟩ ⟨_, rfl⟩

/-- A nominal declaration has a Go type unless one of its structs is misnamed. -/
private theorem exists_typeDeclaration_iff {d : Declaration} (h : d.body.Nominal) :
    (∃ t, typeDeclaration d = .ok t) ↔
      ∀ fields ∈ d.body.shape.structs, ¬ Misnamed (fields.map (·.name)) := by
  obtain ⟨name, docs, body, origin⟩ := d
  cases body with
  | struct fields => exact exists_structDeclaration_iff h
  | enum values => exact iff_of_true ⟨_, rfl⟩ fun _ hs => absurd hs List.not_mem_nil
  | synonym shape =>
    refine Iff.trans ?_ (exists_typeOf_iff name h)
    exact exists_bind_eq_ok_iff.trans (exists_congr fun t => and_iff_left ⟨_, rfl⟩)

/-! ### Constants -/

/-- The literals `values` have constants if they have names besides those of the constants in
`earlier`. -/
theorem exists_constantsOf_iff {type : String} {earlier : List (String × String)}
    {values : List String} : (∃ constants, constantsOf type earlier values = .ok constants) ↔
      Nameable (constantName? type) (earlier.map (·.1)) values := by
  induction values generalizing earlier with
  | nil => exact iff_of_true ⟨_, rfl⟩ nameable_nil
  | cons value values ih =>
    rw [nameable_cons_iff, constantsOf]
    constructor
    -- `earlier` grows by the constant that is formed, and `Nameable` sees the names in it.
    · rintro ⟨constants, h⟩
      split at h
      · cases h
      · next word hword =>
        split at h
        · cases h
        · next hnew =>
          obtain ⟨rest, hrest, -⟩ := bind_return_eq_ok.mp h
          have hnames := ih.mp ⟨rest, hrest⟩
          rw [List.map_append] at hnames
          exact ⟨type ++ word, by rw [constantName?, hword]; rfl,
            lookup_eq_none_iff_not_mem.mp hnew, hnames⟩
    · rintro ⟨constant, hconstant, hnew, hnames⟩
      obtain ⟨word, hword, rfl⟩ := Option.map_eq_some_iff.mp hconstant
      have hrest : ∃ rest,
          constantsOf type (earlier ++ [(type ++ word, value)]) values = .ok rest :=
        ih.mpr (by rwa [List.map_append])
      obtain ⟨rest, hrest⟩ := hrest
      rw [hword]
      dsimp only
      rw [lookup_eq_none_iff_not_mem.mpr hnew]
      exact exists_bind_eq_ok_iff.mpr ⟨rest, hrest, _, rfl⟩

/-- The enumeration `d` has constants unless its literals are misnamed. -/
theorem constantsExpressible_iff {d : Declaration} :
    ConstantsExpressible d ↔ ∀ values, d.body = .enum values → ¬ Misnamed values := by
  refine forall₂_congr fun values _ => ?_
  rw [exists_constantsOf_iff, List.map_nil, nameable_constantName?_iff, nameable_iff_not_misnamed]

/-! ### Kinds -/

/-- The structs that the Go file of `r` has to write, at any depth: the kind itself, with its
sections, and the declarations that the sections depend on. -/
def writtenStructs (params : Params) (r : ResolvedKind) : List (List (Field Shape)) :=
  Shape.structs (.struct (r.presented params).envelope) ++
    (r.presented params).reachableDeclarations.flatMap fun d => d.body.shape.structs

/-- A nominal kind has a Go file unless a struct in it or the literals of one of its enumerations
are misnamed. -/
private theorem exists_typesFile_iff_of_nominal {r : ResolvedKind} (h : r.Nominal)
    {params : Params} :
    (∃ file, typesFile params r = .ok file) ↔
      (∀ fields ∈ writtenStructs params r, ¬ Misnamed (fields.map (·.name))) ∧
        ∀ d ∈ (r.presented params).reachableDeclarations, ∀ values, d.body = .enum values →
          ¬ Misnamed values := by
  obtain ⟨hsections, hbodies⟩ := h.presented params
  have hreachable (d : Declaration) (hd : d ∈ (r.presented params).reachableDeclarations) :
      d.body.Nominal := hbodies d (ResolvedKind.mem_reachable.mp hd).1
  have hexpressible : (∀ d ∈ (r.presented params).reachableDeclarations, Expressible d) ↔
      (∀ d ∈ (r.presented params).reachableDeclarations, ∀ fields ∈ d.body.shape.structs,
        ¬ Misnamed (fields.map (·.name))) ∧
      ∀ d ∈ (r.presented params).reachableDeclarations, ∀ values, d.body = .enum values →
        ¬ Misnamed values := by
    rw [← forall₂_and]
    refine forall₂_congr fun d hd => ?_
    rw [← exists_typeDeclaration_iff (hreachable d hd), ← constantsExpressible_iff]
    exact ⟨fun h => ⟨h.type, h.constants⟩, fun ⟨htype, hconstants⟩ => ⟨htype, hconstants⟩⟩
  rw [exists_typesFile_iff, exists_structDeclaration_iff hsections, hexpressible, writtenStructs,
    List.forall_mem_append, List.forall_mem_flatMap, and_assoc]

/-- The generator fails if there is no Go file. -/
private theorem render_goTypes_error_iff {params : Params} {r : ResolvedKind} :
    (∃ e, Generator.render .goTypes params r = .error e) ↔
      ¬ ∃ file, typesFile params r = .ok file := by
  unfold Generator.render
  dsimp only
  cases typesFile params r with
  | error e => exact iff_of_true ⟨e, rfl⟩ nofun
  | ok file => exact iff_of_false nofun fun h => h ⟨file, rfl⟩

end Go

/-- What `k` is resolved to under the nominal policy has no enumeration in place, and no array or
map of structs in place. Of such an `r` there is no Go file exactly if a struct that has to be
written has fields, or an enumeration has literals, of which there are no different identifiers. -/
theorem nominal_and_goTypes_fails_iff {k : Kind} {r : ResolvedKind}
    (h : k.resolve .nominal = .ok r) :
    r.Nominal ∧ ∀ params, (∃ e, Generator.render .goTypes params r = .error e) ↔
      (∃ fields ∈ Go.writtenStructs params r, Go.Misnamed (fields.map (·.name))) ∨
        ∃ d ∈ (r.presented params).reachableDeclarations, ∃ values, d.body = .enum values ∧
          Go.Misnamed values := by
  have hnominal := Kind.resolve_nominal h
  refine ⟨hnominal, fun params => ?_⟩
  rw [Go.render_goTypes_error_iff, Go.exists_typesFile_iff_of_nominal hnominal, not_and_or]
  simp only [not_forall, not_not, exists_prop]

namespace Sample

/-- A kind with a struct in place whose fields have one identifier in Go. -/
def paint : Kind where
  name := "Paint"
  metadata := { type := .struct { fields := [] } }
  spec := { fields := [
    { name := "coats", type := .array (.struct { fields := [{ name := "layer", type := .any }] }) },
    { name := "shade", type := .struct { fields := [
      { name := "dark-blue", type := .boolean },
      { name := "darkBlue", type := .boolean }] } }] }
  status := { fields := [] }

/-- The kind, resolved. -/
def paintResolved : ResolvedKind where
  name := "Paint"
  machineName := "paint"
  description := []
  metadata := { name := "metadata", type := .struct [] }
  spec := { name := "spec", type := .struct [
    { name := "coats", type := .array (.named "SpecCoats") },
    { name := "shade", type := .struct [
      { name := "dark-blue", type := .scalar .boolean },
      { name := "darkBlue", type := .scalar .boolean }] }] }
  status := { name := "status", type := .struct [] }
  declarations := [
    ⟨"SpecCoats", [], .struct [{ name := "layer", type := .scalar .any }],
      .lifted ["spec", "coats"]⟩]

private theorem resolve_paint : paint.resolve .nominal = .ok paintResolved := by
  with_unfolding_all rfl

/-- The struct in the array has a name, and there is no Go file for the other one. -/
theorem goTypes_fails_paint : paint.resolve .nominal = .ok paintResolved ∧
    paintResolved.Nominal ∧ ∃ e, Generator.render .goTypes {} paintResolved = .error e := by
  obtain ⟨hnominal, hfails⟩ := nominal_and_goTypes_fails_iff resolve_paint
  refine ⟨resolve_paint, hnominal, (hfails {}).mpr (.inl ?_)⟩
  refine ⟨[{ name := "dark-blue", type := .scalar .boolean },
    { name := "darkBlue", type := .scalar .boolean }], List.mem_append_left _ ?_, ?_⟩
  · have hstructs : Shape.structs (.struct (paintResolved.presented {}).envelope) =
        [(paintResolved.presented {}).envelope, [], paintResolved.specFields,
          [{ name := "dark-blue", type := .scalar .boolean },
            { name := "darkBlue", type := .scalar .boolean }], []] := by
      with_unfolding_all rfl
    rw [hstructs]
    simp only [List.mem_cons, true_or, or_true]
  · exact .inr ⟨"dark-blue", "darkBlue", List.Sublist.refl _, by with_unfolding_all rfl⟩

end Sample

end KindSchema
