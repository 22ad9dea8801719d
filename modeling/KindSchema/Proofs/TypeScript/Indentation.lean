import KindSchema.Proofs.Output.Rearrangement
import KindSchema.Proofs.Output.SelfContained
import KindSchema.Proofs.TypeScript.Lexemes

/-!
# Indentation in TypeScript modules

The module of a kind has the fields of the spec twice: in an interface of their own, and a level
deeper in the interface of the kind. A level shows in nothing but the blanks that lines begin with.

* `unindented_eq_flushed`: leaving out these blanks, line by line, can be done in one pass. The pass
  only has to know whether it is at the start of a line.
* `Reindented`: that a pass makes the same of two texts, and ends at the start of a line in both or
  in none. Such texts can be put one after the other.
* `reindented_typeText`, `reindented_membersText`: types and members at two levels.
* `unindented_spec`: the two bodies of the spec.
-/

namespace KindSchema

namespace TypeScript

/-! ### Blanks at the start of lines -/

/-- The text `text` without the blanks that its lines begin with. -/
def unindented (text : String) : String :=
  String.ofList (['\n'].intercalate
    ((pieces (· == '\n') text.toList).map (·.dropWhile (· == ' '))))

/-- Some characters without the blanks that lines begin with; `start` tells whether a line begins
with the first of them. -/
def flushed (start : Bool) : List Char → List Char
  | [] => []
  | c :: cs => if start && c == ' ' then flushed true cs else c :: flushed (c == '\n') cs

/-- Whether only blanks of a line have been seen after some characters; `start` tells whether this
is so before them. -/
def atStart (start : Bool) : List Char → Bool
  | [] => start
  | c :: cs => if start && c == ' ' then atStart true cs else atStart (c == '\n') cs

/-- The first character of what is joined is that of the first piece. -/
private theorem intercalate_cons_head (separator : List Char) (c : Char) (p : List Char)
    (ps : List (List Char)) :
    separator.intercalate ((c :: p) :: ps) = c :: separator.intercalate (p :: ps) := by
  cases ps with
  | nil => rw [List.intercalate_singleton, List.intercalate_singleton]
  | cons q qs =>
    rw [List.intercalate_cons_cons, List.intercalate_cons_cons, List.cons_append, List.cons_append]

/-- Where a pass begins makes a difference for the first line alone. -/
private theorem flushed_eq_intercalate {cs p : List Char} {ps : List (List Char)}
    (h : pieces (· == '\n') cs = p :: ps) (start : Bool) :
    flushed start cs = ['\n'].intercalate
      ((if start then p.dropWhile (· == ' ') else p) :: ps.map (·.dropWhile (· == ' '))) := by
  induction cs generalizing p ps start with
  | nil =>
    cases h
    cases start <;> rfl
  | cons c cs ih =>
    obtain ⟨q, qs, hq⟩ := List.exists_cons_of_ne_nil (pieces_ne_nil (· == '\n') cs)
    rw [pieces, hq] at h
    rw [flushed]
    by_cases hbreak : c = '\n'
    · obtain rfl := hbreak
      cases h
      have hrest := ih hq true
      rw [if_pos rfl] at hrest
      have hempty : (if start then [].dropWhile (· == ' ') else []) = ([] : List Char) :=
        ite_self []
      rw [if_neg (by simp), hempty, List.map_cons, List.intercalate_cons_cons, beq_self_eq_true,
        hrest]
      rfl
    · rw [if_neg (by simpa using hbreak)] at h
      cases h
      -- A blank at the start of a line is dropped; any other character ends the indentation.
      by_cases hblank : (start && c == ' ') = true
      · obtain ⟨rfl, hc⟩ := Bool.and_eq_true_iff.mp hblank
        have hdrop : (c :: q).dropWhile (· == ' ') = q.dropWhile (· == ' ') :=
          List.dropWhile_cons_of_pos hc
        rw [if_pos hblank, ih hq true, if_pos rfl, if_pos rfl, hdrop]
      · have hfirst : (if start then (c :: q).dropWhile (· == ' ') else c :: q) = c :: q := by
          cases start with
          | false => rfl
          | true =>
            rw [if_pos rfl]
            exact List.dropWhile_cons_of_neg hblank
        have hrest := ih hq false
        rw [if_neg Bool.false_ne_true] at hrest
        rw [if_neg hblank, hfirst, intercalate_cons_head, beq_false_of_ne hbreak, hrest]

/-- The blanks at the start of the lines of `text` are left out in one pass. -/
theorem unindented_eq_flushed (text : String) :
    unindented text = String.ofList (flushed true text.toList) := by
  obtain ⟨p, ps, hp⟩ := List.exists_cons_of_ne_nil (pieces_ne_nil (· == '\n') text.toList)
  rw [unindented, flushed_eq_intercalate hp, hp, List.map_cons, if_pos rfl]

section Append

variable (start : Bool) (cs ds : List Char)

private theorem flushed_append :
    flushed start (cs ++ ds) = flushed start cs ++ flushed (atStart start cs) ds := by
  induction cs generalizing start with
  | nil => rfl
  | cons c cs ih =>
    rw [List.cons_append, flushed, flushed, atStart]
    split
    · exact ih true
    · rw [ih, List.cons_append]

private theorem atStart_append : atStart start (cs ++ ds) = atStart (atStart start cs) ds := by
  induction cs generalizing start with
  | nil => rfl
  | cons c cs ih =>
    rw [List.cons_append, atStart, atStart]
    split <;> exact ih _

end Append

/-- That `s` and `t` are the same but for the blanks that their lines begin with. Before them,
`start` tells whether one is at the start of a line, and after both `finish` does. -/
structure Reindented (start : Bool) (s t : String) (finish : Bool) : Prop where
  flushed_eq : flushed start s.toList = flushed start t.toList
  left : atStart start s.toList = finish
  right : atStart start t.toList = finish

namespace Reindented

variable {start middle finish : Bool} {s t u v : String}

private theorem same (h : atStart start s.toList = finish) : Reindented start s s finish :=
  ⟨rfl, h, h⟩

private theorem append (h : Reindented start s t middle) (h' : Reindented middle u v finish) :
    Reindented start (s ++ u) (t ++ v) finish := by
  refine ⟨?_, ?_, ?_⟩
  · rw [String.toList_append, String.toList_append, flushed_append, flushed_append, h.flushed_eq,
      h.left, h.right, h'.flushed_eq]
  · rw [String.toList_append, atStart_append, h.left, h'.left]
  · rw [String.toList_append, atStart_append, h.right, h'.right]

private theorem append_same (h : Reindented start s t finish) (u : String) :
    Reindented start (s ++ u) (t ++ u) (atStart finish u.toList) :=
  h.append (same rfl)

/-- After a line break, a line starts. -/
private theorem lineBreak (start : Bool) : Reindented start "\n" "\n" true :=
  same (by simp [atStart])

/-- At the start of a line, all indentations are the same. -/
private theorem indent (level level' : Nat) :
    Reindented true (indent level) (indent level') true := by
  have hblanks (n : Nat) : flushed true (List.replicate n ' ') = [] ∧
      atStart true (List.replicate n ' ') = true := by
    induction n with
    | zero => exact ⟨rfl, rfl⟩
    | succ n ih => exact ih
  refine ⟨?_, ?_, ?_⟩
  · rw [toList_indent, toList_indent, (hblanks _).1, (hblanks _).1]
  · rw [toList_indent, (hblanks _).2]
  · rw [toList_indent, (hblanks _).2]

private theorem unindented_eq (h : Reindented true s t finish) : unindented s = unindented t := by
  rw [unindented_eq_flushed, unindented_eq_flushed, h.flushed_eq]

end Reindented

/-! ### Levels -/

private theorem reindented_docLine (level level' : Nat) (line : String) :
    Reindented true (docLine level line) (docLine level' line) true := by
  have hindent := Reindented.indent level level'
  unfold docLine
  split
  · exact hindent.append (.same (by simp [atStart]))
  · exact ((hindent.append_same " * ").append_same _).append (.lineBreak _)

private theorem reindented_docComment (level level' : Nat) (docs : List String) :
    Reindented true (docComment level docs) (docComment level' docs) true := by
  have hlines : Reindented true (String.join (docs.map (docLine level)))
      (String.join (docs.map (docLine level'))) true := by
    induction docs with
    | nil => exact .same rfl
    | cons line docs ih =>
      rw [List.map_cons, List.map_cons, String.join_cons, String.join_cons]
      exact (reindented_docLine level level' line).append ih
  have hindent := Reindented.indent level level'
  unfold docComment
  split
  · exact .same rfl
  · refine Reindented.append (.append (.append (.append hindent ?_) hlines) hindent) ?_
    · exact .same (by simp [atStart])
    · exact .same (by simp [atStart])

mutual

/-- The text of `shape` is the same at two levels but for indentation, wherever on a line it
begins. -/
theorem reindented_typeText (level level' : Nat) : ∀ (argument : Bool) (shape : Shape)
    (start : Bool), ∃ finish,
      Reindented start (typeText argument level shape) (typeText argument level' shape) finish
  | _, .scalar _, _ => by
    rw [typeText, typeText]
    exact ⟨_, .same rfl⟩
  | _, .enum _, _ => by
    rw [typeText, typeText]
    exact ⟨_, .same rfl⟩
  | _, .named _, _ => by
    rw [typeText, typeText]
    exact ⟨_, .same rfl⟩
  | _, .array items, start => by
    obtain ⟨finish, hitems⟩ :=
      reindented_typeText level level' true items (atStart start "Array<".toList)
    rw [typeText, typeText]
    exact ⟨_, (Reindented.append (.same rfl) hitems).append_same ">"⟩
  | _, .map values, start => by
    obtain ⟨finish, hvalues⟩ :=
      reindented_typeText level level' true values (atStart start "Record<string, ".toList)
    rw [typeText, typeText]
    exact ⟨_, (Reindented.append (.same rfl) hvalues).append_same ">"⟩
  | _, .struct [], _ => by
    rw [typeText, typeText]
    exact ⟨_, .same rfl⟩
  | true, .struct (field :: fields), _ => by
    -- As an argument, a struct is flush at every level.
    rw [typeText, typeText, if_pos rfl, if_pos rfl]
    exact ⟨_, .same rfl⟩
  | false, .struct (field :: fields), start => by
    have hopen : Reindented start "\x7b\n" "\x7b\n" true := .same (by simp [atStart])
    have hmembers := reindented_membersText (level + 1) (level' + 1) ";" (field :: fields)
    rw [typeText, typeText, if_neg Bool.false_ne_true, if_neg Bool.false_ne_true]
    exact ⟨_, ((hopen.append hmembers).append (.indent level level')).append_same "\x7d"⟩

/-- The text of `fields` is the same at two levels but for indentation. -/
theorem reindented_membersText (level level' : Nat) (mark : String) :
    ∀ fields : List (Field Shape),
      Reindented true (membersText level mark fields) (membersText level' mark fields) true
  | [] => by
    rw [membersText, membersText]
    exact .same rfl
  | ⟨name, type, optional, docs⟩ :: fields => by
    have hlead := (reindented_docComment level level' docs).append (.indent level level')
    have hname := ((hlead.append_same (propertyName name)).append_same
      (if optional then "?" else "")).append_same ": "
    obtain ⟨finish, htype⟩ := reindented_typeText level level' false type _
    have hline := ((hname.append htype).append_same mark).append (.lineBreak _)
    rw [membersText, membersText]
    exact hline.append (reindented_membersText level level' mark fields)

end

/-! ### The spec -/

private theorem membersText_append (level : Nat) (mark : String)
    (fields fields' : List (Field Shape)) :
    membersText level mark (fields ++ fields') =
      membersText level mark fields ++ membersText level mark fields' := by
  induction fields with
  | nil => rw [List.nil_append, membersText, String.empty_append]
  | cons f fields ih =>
    obtain ⟨name, type, optional, docs⟩ := f
    rw [List.cons_append, membersText, membersText, ih]
    simp only [String.append_assoc]

/-- The member of a kind for a spec that has fields. -/
private theorem membersText_spec {fields : List (Field Shape)} (hfields : fields ≠ [])
    (docs : List String) :
    membersText 1 ";" [{ name := "spec", type := .struct fields, docs }] =
      docComment 1 docs ++ "  spec: \x7b\n" ++ membersText 2 ";" fields ++ "  \x7d;\n" := by
  obtain ⟨f, fields, rfl⟩ := List.exists_cons_of_ne_nil hfields
  have hname : propertyName "spec" = "spec" := by decide
  have hindent : indent 1 = "  " := by decide
  rw [membersText, membersText, typeText, hname, hindent, if_neg Bool.false_ne_true,
    if_neg Bool.false_ne_true, ← String.toList_inj]
  simp [String.toList_append]

/-- The module of a kind with two texts as the bodies of its spec: one alone, in the interface
`spec`, and one inside the interface of the kind, in its member `spec`. -/
def moduleAround (params : Params) (r : ResolvedKind) (alone inside : String) : String :=
  "export interface spec \x7b\n" ++ alone ++ "\x7d\n\n" ++
    docComment 0 r.description ++ "export interface " ++ r.name ++ " \x7b\n" ++
    membersText 1 ";" [(r.presented params).metadata] ++
    docComment 1 r.spec.docs ++ "  spec: \x7b\n" ++ inside ++ "  \x7d;\n" ++
    membersText 1 ";" [(r.presented params).status] ++ "\x7d\n" ++
    String.join ((r.presented params).reachableDeclarations.map fun d => "\n" ++ declarationText d)

section Spec

variable {policy : Policy} {k : Kind} {r : ResolvedKind} {params : Params}
  (h : k.resolve policy = .ok r)
include h

private theorem standaloneSpec_ne_nil (hfields : k.spec.fields ≠ []) :
    r.standaloneSpec params ≠ [] := by
  obtain ⟨fields, hspec, hnames⟩ := Kind.resolve_spec h
  have hspecFields : r.specFields = fields := by rw [ResolvedKind.specFields, hspec]
  intro hnil
  have hperm := params.specDeclarationOrder.sort_perm
    (Shape.arrangeTypes params.memberOrder r.specFields)
  rw [← ResolvedKind.standaloneSpec, hnil, List.nil_perm, Shape.arrangeTypes_eq_map,
    List.map_eq_nil_iff, hspecFields] at hperm
  rw [hperm, List.map_nil, eq_comm, List.map_eq_nil_iff] at hnames
  exact hfields hnames

/-- If its order is that of members, the standalone spec has the members of the section. -/
private theorem presented_spec_eq (horder : params.specDeclarationOrder = params.memberOrder) :
    (r.presented params).spec =
      { name := "spec", type := .struct (r.standaloneSpec params), docs := r.spec.docs } := by
  obtain ⟨fields, hspec, -⟩ := Kind.resolve_spec h
  have hspecFields : r.specFields = fields := by rw [ResolvedKind.specFields, hspec]
  rw [ResolvedKind.presented_spec, ResolvedKind.standaloneSpec, horder, hspecFields, hspec,
    Shape.arrange, Field.withType]

/-- The module of a kind has the members of the standalone spec twice, at two levels. -/
private theorem moduleText_eq_moduleAround
    (horder : params.specDeclarationOrder = params.memberOrder) (hfields : k.spec.fields ≠ []) :
    moduleText params r =
      moduleAround params r (membersText 1 ";" (r.standaloneSpec params))
        (membersText 2 ";" (r.standaloneSpec params)) := by
  have henvelope : (r.presented params).envelope = [(r.presented params).metadata] ++
      [(r.presented params).spec] ++ [(r.presented params).status] := rfl
  have hopen : "export interface spec \x7b\n" = "export interface " ++ "spec" ++ " \x7b\n" := by
    decide
  have hclose : "\x7d\n\n" = "\x7d\n" ++ "\n" := by decide
  unfold moduleText interfaceText moduleAround
  dsimp only
  rw [henvelope, membersText_append, membersText_append, presented_spec_eq h horder,
    membersText_spec (standaloneSpec_ne_nil h hfields), hopen, hclose]
  simp only [String.append_assoc]

end Spec

/-- Types at two levels differ in nothing but the blanks that lines begin with. So do the two bodies
of the spec in the module of `r`, if the spec has a field and both are in the same order. -/
theorem unindented_spec :
    (∀ (argument : Bool) (level level' : Nat) (shape : Shape),
      unindented (typeText argument level shape) = unindented (typeText argument level' shape)) ∧
    ∀ {policy : Policy} {k : Kind} {r : ResolvedKind}, k.resolve policy = .ok r →
      ∀ params : Params, params.specDeclarationOrder = params.memberOrder → k.spec.fields ≠ [] →
        ∃ alone inside, moduleText params r = moduleAround params r alone inside ∧
          alone = membersText 1 ";" (r.standaloneSpec params) ∧
          inside = membersText 2 ";" (r.standaloneSpec params) ∧
          unindented alone = unindented inside := by
  constructor
  · intro argument level level' shape
    obtain ⟨finish, h⟩ := reindented_typeText level level' argument shape true
    exact h.unindented_eq
  · intro policy k r h params horder hfields
    have hbodies := reindented_membersText 1 2 ";" (r.standaloneSpec params)
    exact ⟨_, _, moduleText_eq_moduleAround h horder hfields, rfl, rfl, hbodies.unindented_eq⟩

end TypeScript

namespace Sample

/-- A kind whose spec has structs in place, one of them in an array. -/
def route : Kind where
  name := "Route"
  description := ["A route."]
  metadata := { type := .struct { fields := [{ name := "owner", type := .scalar .string }] } }
  spec := { fields := [
    { name := "stops", docs := ["In order."]
      type := .array (.struct { fields := [{ name := "pier", type := .scalar .string }] }) },
    { name := "fare"
      type := .struct { fields := [{ name := "cents", type := .scalar .int64 }] } }] }
  status := { fields := [] }

/-- The kind, resolved. -/
def routeResolved : ResolvedKind where
  name := "Route"
  machineName := "route"
  description := ["A route."]
  metadata := { name := "metadata", type := .struct [{ name := "owner", type := .scalar .string }] }
  spec := { name := "spec", type := .struct [
    { name := "stops", docs := ["In order."]
      type := .array (.struct [{ name := "pier", type := .scalar .string }]) },
    { name := "fare", type := .struct [{ name := "cents", type := .scalar .int64 }] }] }
  status := { name := "status", type := .struct [] }
  declarations := []

private theorem resolve_route : route.resolve .inline = .ok routeResolved := by
  with_unfolding_all rfl

open TypeScript in
/-- The two bodies of the spec of the kind. -/
theorem unindented_spec_route :
    ∃ alone inside,
      moduleText { specDeclarationOrder := .declared } routeResolved =
        moduleAround { specDeclarationOrder := .declared } routeResolved alone inside ∧
      alone = membersText 1 ";"
        (routeResolved.standaloneSpec { specDeclarationOrder := .declared }) ∧
      inside = membersText 2 ";"
        (routeResolved.standaloneSpec { specDeclarationOrder := .declared }) ∧
      unindented alone = unindented inside :=
  unindented_spec.2 resolve_route _ rfl (List.cons_ne_nil _ _)

end Sample

end KindSchema
