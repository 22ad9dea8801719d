import KindSchema.Naming
import KindSchema.Proofs.Output.Outline
import KindSchema.Proofs.TypeScript.Lexemes

/-!
# Types are read back from TypeScript

The text of a type determines its outline: the fields of every struct with their names, their order
and whether they are optional, the literals of every enum in order, the containers and the names.

What a text stands for shows in how it opens, so two types of one text have one constructor, and
each part of a type ends where the mark behind it allows no other reading.

* `typeText_append_inj`, `membersText_append_inj`: what follows a type or some members does not
  depend on them, and they have one outline if their texts are the same.
* `outline_eq_of_typeText_eq`: types of one text have one outline.
-/

namespace KindSchema.TypeScript

/-! ### The characters of a type -/

/-- The level at which the closing brace of a struct stands, one below its members; `argument` tells
whether it is an argument of `Array` or `Record`. -/
def closingLevel (argument : Bool) (level : Nat) : Nat :=
  if argument then 0 else level

/-- The mark that ends a member of a struct; `argument` tells whether it is an argument of `Array`
or `Record`. -/
def memberMark (argument : Bool) : Char :=
  if argument then ',' else ';'

section Characters

variable (argument : Bool) (level : Nat) (rest : List Char)

private theorem typeText_scalar (kind : Scalar) :
    (typeText argument level (.scalar kind)).toList = (scalarName kind).toList := by
  rw [typeText]

private theorem typeText_enum (values : List String) :
    (typeText argument level (.enum values)).toList = (union values).toList := by
  rw [typeText]

private theorem typeText_named (name : String) :
    (typeText argument level (.named name)).toList = name.toList := by
  rw [typeText]

private theorem typeText_array_append (items : Shape) :
    (typeText argument level (.array items)).toList ++ rest =
      "Array<".toList ++ ((typeText true level items).toList ++ '>' :: rest) := by
  rw [typeText, String.toList_append, String.toList_append, List.append_assoc, List.append_assoc]
  rfl

private theorem typeText_map_append (values : Shape) :
    (typeText argument level (.map values)).toList ++ rest =
      "Record<string, ".toList ++ ((typeText true level values).toList ++ '>' :: rest) := by
  rw [typeText, String.toList_append, String.toList_append, List.append_assoc, List.append_assoc]
  rfl

private theorem typeText_struct_nil_append :
    (typeText argument level (.struct [])).toList ++ rest = '\x7b' :: '\x7d' :: rest := by
  rw [typeText]
  rfl

private theorem typeText_struct_cons_append (field : Field Shape) (fields : List (Field Shape)) :
    (typeText argument level (.struct (field :: fields))).toList ++ rest =
      '\x7b' :: '\n' ::
        ((membersText (closingLevel argument level + 1) (String.singleton (memberMark argument))
          (field :: fields)).toList ++
            (List.replicate (2 * closingLevel argument level) ' ' ++ '\x7d' :: rest)) := by
  rw [typeText]
  cases argument with
  | true =>
    rw [if_pos rfl]
    simp only [String.toList_append, List.append_assoc]
    rfl
  | false =>
    rw [if_neg Bool.false_ne_true]
    simp only [String.toList_append, toList_indent, List.append_assoc]
    rfl

private theorem membersText_cons_append (mark : Char) (field : Field Shape)
    (fields : List (Field Shape)) :
    (membersText level (String.singleton mark) (field :: fields)).toList ++ rest =
      (docComment level field.docs).toList ++ (List.replicate (2 * level) ' ' ++
        ((propertyName field.name).toList ++ ((if field.optional then ['?'] else []) ++
          ':' :: ' ' :: ((typeText false level field.type).toList ++ mark :: '\n' ::
            ((membersText level (String.singleton mark) fields).toList ++ rest))))) := by
  obtain ⟨name, type, optional, docs⟩ := field
  have hoptional : (if optional then "?" else "").toList = if optional then ['?'] else [] := by
    cases optional <;> rfl
  rw [membersText]
  simp only [String.toList_append, toList_indent, hoptional, String.toList_singleton,
    List.append_assoc]
  rfl

end Characters

/-! ### How a type opens -/

/-- What the start of a text tells about the type that it stands for. A capital word is a container
if a bracket follows, where the first letter tells which. -/
def opening : List Char → Shape.Form
  | [] => .scalar
  | c :: cs =>
    if c = '(' then .enum
    else if c = '\x7b' then .struct
    else if c.isUpper then
      if (cs.dropWhile Char.isAlphanum).head? = some '<' then
        if c = 'A' then .array else .map
      else .named
    else .scalar

/-- That `rest` can follow a type: it is empty or starts with a mark that no type contains at its
own level. -/
def FollowsType (rest : List Char) : Prop :=
  ∀ c ∈ rest.head?, c = '>' ∨ c = ';' ∨ c = ','

private theorem followsType_cons {c : Char} (h : c = '>' ∨ c = ';' ∨ c = ',') (rest : List Char) :
    FollowsType (c :: rest) := by
  intro b hb
  cases hb
  exact h

private theorem FollowsType.not_alphanum {rest : List Char} (h : FollowsType rest) :
    ∀ c ∈ rest.head?, c.isAlphanum = false := by
  intro c hc
  obtain rfl | rfl | rfl := h c hc <;> decide

private theorem exists_toList_of_isPascalIdentifier {name : String}
    (h : Naming.isPascalIdentifier name = true) :
    ∃ c cs, name.toList = c :: cs ∧ c.isUpper = true ∧ ∀ b ∈ cs, b.isAlphanum = true := by
  unfold Naming.isPascalIdentifier at h
  split at h
  · exact absurd h Bool.false_ne_true
  · next c cs hname =>
    obtain ⟨hc, hcs⟩ := (Bool.and_eq_true _ _).mp h
    exact ⟨c, cs, hname, hc, List.all_eq_true.mp hcs⟩

private theorem alphanum_of_isPascalIdentifier {name : String}
    (h : Naming.isPascalIdentifier name = true) : ∀ b ∈ name.toList, b.isAlphanum = true := by
  obtain ⟨c, cs, hname, hc, hcs⟩ := exists_toList_of_isPascalIdentifier h
  rw [hname]
  intro b hb
  obtain rfl | hb := List.mem_cons.mp hb
  · show (b.isUpper || b.isLower || b.isDigit) = true
    rw [hc, Bool.true_or, Bool.true_or]
  · exact hcs b hb

private theorem opening_of_isPascalIdentifier {name : String}
    (h : Naming.isPascalIdentifier name = true) {rest : List Char} (hrest : FollowsType rest) :
    opening (name.toList ++ rest) = .named := by
  obtain ⟨c, cs, hname, hc, hcs⟩ := exists_toList_of_isPascalIdentifier h
  have hround : c ≠ '(' := by rintro rfl; exact absurd hc (by decide)
  have hcurly : c ≠ '\x7b' := by rintro rfl; exact absurd hc (by decide)
  -- What stands behind the name is no bracket, so it is not read as a generic type.
  have hbracket : ((cs ++ rest).dropWhile Char.isAlphanum).head? ≠ some '<' := by
    rw [List.dropWhile_append_of_pos hcs]
    cases rest with
    | nil => simp
    | cons b rest =>
      rw [List.dropWhile_cons_of_neg (by simp [hrest.not_alphanum b rfl])]
      intro hb
      obtain rfl : b = '<' := Option.some.inj hb
      exact absurd (hrest '<' rfl) (by decide)
  rw [hname, List.cons_append, opening, if_neg hround, if_neg hcurly, if_pos hc, if_neg hbracket]

/-- The start of the text of a type tells its constructor, whatever follows. -/
private theorem opening_typeText (argument : Bool) (level : Nat) {shape : Shape}
    (hnames : ∀ n ∈ shape.names, Naming.isPascalIdentifier n = true) {rest : List Char}
    (hrest : FollowsType rest) :
    opening ((typeText argument level shape).toList ++ rest) = shape.form := by
  cases shape with
  | scalar kind =>
    rw [typeText_scalar]
    cases kind <;> rfl
  | enum values =>
    rw [typeText_enum, union, String.toList_append, String.toList_append,
      List.append_assoc, List.append_assoc]
    rfl
  | array items =>
    rw [typeText_array_append]
    rfl
  | map values =>
    rw [typeText_map_append]
    rfl
  | struct fields =>
    cases fields with
    | nil =>
      rw [typeText_struct_nil_append]
      rfl
    | cons field fields =>
      rw [typeText_struct_cons_append]
      rfl
  | named name =>
    rw [typeText_named]
    refine opening_of_isPascalIdentifier (hnames name ?_) hrest
    rw [Shape.names]
    exact List.mem_singleton_self name

/-! ### Reading a type back -/

/-- The members of a struct do not start with its closing brace. -/
private theorem membersText_cons_ne_close (level : Nat) (mark : Char) (field : Field Shape)
    (fields : List (Field Shape)) (r s : List Char) :
    (membersText (level + 1) (String.singleton mark) (field :: fields)).toList ++ r ≠
      List.replicate (2 * level) ' ' ++ '\x7d' :: s := by
  have hblanks (cs : List Char) : List.replicate (2 * (level + 1)) ' ' ++ cs ≠
      List.replicate (2 * level) ' ' ++ '\x7d' :: s := by
    rw [Nat.mul_succ, List.replicate_add, List.append_assoc]
    intro h
    exact absurd (List.cons.inj (List.append_cancel_left h)).1 (by decide)
  rw [membersText_cons_append]
  by_cases hdocs : field.docs = []
  · rw [hdocs]
    exact hblanks _
  · obtain ⟨body, -, hbody⟩ := exists_docComment_eq (level + 1) hdocs
    rw [hbody, List.append_assoc]
    exact hblanks _

private theorem head?_optional_append (optional : Bool) (rest : List Char) :
    ∀ c ∈ ((if optional then ['?'] else []) ++ ':' :: rest).head?, c = '?' ∨ c = ':' := by
  intro c hc
  cases optional with
  | true =>
    cases hc
    exact .inl rfl
  | false =>
    cases hc
    exact .inr rfl

/-- The mark of an optional member is read back. -/
private theorem optional_append_inj {a b : Bool} {r s : List Char}
    (h : (if a then ['?'] else []) ++ ':' :: r = (if b then ['?'] else []) ++ ':' :: s) :
    a = b ∧ r = s := by
  cases a <;> cases b
  · exact ⟨rfl, (List.cons.inj h).2⟩
  · exact absurd (List.cons.inj h).1 (by decide)
  · exact absurd (List.cons.inj h).1 (by decide)
  · exact ⟨rfl, (List.cons.inj (List.cons.inj h).2).2⟩

private theorem outline_eq_of_scalarName_eq {a b : Scalar} (h : scalarName a = scalarName b) :
    a.outline = b.outline := by
  revert h
  cases a <;> cases b <;> decide

private theorem alphanum_scalarName (kind : Scalar) :
    ∀ c ∈ (scalarName kind).toList, c.isAlphanum = true := by
  refine List.all_eq_true.mp ?_
  cases kind <;> rfl

/-- Types whose texts start a common text have one constructor. -/
private theorem form_eq_of_append_eq {argument : Bool} {level : Nat} {a b : Shape} {r s : List Char}
    (ha : ∀ n ∈ a.names, Naming.isPascalIdentifier n = true)
    (hb : ∀ n ∈ b.names, Naming.isPascalIdentifier n = true)
    (hr : FollowsType r) (hs : FollowsType s)
    (h : (typeText argument level a).toList ++ r = (typeText argument level b).toList ++ s) :
    a.form = b.form := by
  rw [← opening_typeText argument level ha hr, h, opening_typeText argument level hb hs]

mutual

/-- The types `a` and `b`, if they have one text, have one outline, and what follows them is the
same. -/
theorem typeText_append_inj (argument : Bool) (level : Nat) : ∀ (a b : Shape) {r s : List Char},
    (∀ n ∈ a.names, Naming.isPascalIdentifier n = true) →
    (∀ n ∈ b.names, Naming.isPascalIdentifier n = true) → FollowsType r → FollowsType s →
    (typeText argument level a).toList ++ r = (typeText argument level b).toList ++ s →
      a.outline = b.outline ∧ r = s
  | .scalar kind, b, r, s, ha, hb, hr, hs, h => by
    -- The start of the text leaves no pairs but those of one constructor, here and below.
    have hform := form_eq_of_append_eq ha hb hr hs h
    cases b with
    | scalar kind' =>
      rw [typeText_scalar, typeText_scalar] at h
      obtain ⟨hword, hrest⟩ := append_inj_of_run (alphanum_scalarName kind)
        (alphanum_scalarName kind') hr.not_alphanum hs.not_alphanum h
      exact ⟨congrArg Shape.scalar (outline_eq_of_scalarName_eq (String.toList_inj.mp hword)),
        hrest⟩
    | _ => cases hform
  | .enum values, b, r, s, ha, hb, hr, hs, h => by
    have hform := form_eq_of_append_eq ha hb hr hs h
    cases b with
    | enum values' =>
      rw [typeText_enum, typeText_enum] at h
      obtain ⟨rfl, hrest⟩ := union_append_inj h
      exact ⟨rfl, hrest⟩
    | _ => cases hform
  | .array items, b, r, s, ha, hb, hr, hs, h => by
    have hform := form_eq_of_append_eq ha hb hr hs h
    cases b with
    | array items' =>
      rw [Shape.names] at ha hb
      rw [typeText_array_append, typeText_array_append] at h
      obtain ⟨hitems, hrest⟩ := typeText_append_inj true level items items' ha hb
        (followsType_cons (.inl rfl) r) (followsType_cons (.inl rfl) s) (List.append_cancel_left h)
      exact ⟨congrArg Shape.array hitems, (List.cons.inj hrest).2⟩
    | _ => cases hform
  | .map values, b, r, s, ha, hb, hr, hs, h => by
    have hform := form_eq_of_append_eq ha hb hr hs h
    cases b with
    | map values' =>
      rw [Shape.names] at ha hb
      rw [typeText_map_append, typeText_map_append] at h
      obtain ⟨hvalues, hrest⟩ := typeText_append_inj true level values values' ha hb
        (followsType_cons (.inl rfl) r) (followsType_cons (.inl rfl) s) (List.append_cancel_left h)
      exact ⟨congrArg Shape.map hvalues, (List.cons.inj hrest).2⟩
    | _ => cases hform
  | .struct [], b, r, s, ha, hb, hr, hs, h => by
    have hform := form_eq_of_append_eq ha hb hr hs h
    cases b with
    | struct fields' =>
      rw [typeText_struct_nil_append] at h
      cases fields' with
      | nil =>
        rw [typeText_struct_nil_append] at h
        exact ⟨rfl, (List.cons.inj (List.cons.inj h).2).2⟩
      | cons field' fields' =>
        rw [typeText_struct_cons_append] at h
        exact absurd (List.cons.inj (List.cons.inj h).2).1 (by decide)
    | _ => cases hform
  | .struct (field :: fields), b, r, s, ha, hb, hr, hs, h => by
    have hform := form_eq_of_append_eq ha hb hr hs h
    cases b with
    | struct fields' =>
      rw [typeText_struct_cons_append] at h
      cases fields' with
      | nil =>
        rw [typeText_struct_nil_append] at h
        exact absurd (List.cons.inj (List.cons.inj h).2).1 (by decide)
      | cons field' fields' =>
        rw [typeText_struct_cons_append] at h
        rw [Shape.names] at ha hb
        obtain ⟨hfields, hrest⟩ := membersText_append_inj (closingLevel argument level)
          (memberMark argument) (by cases argument <;> decide) (field :: fields)
          (field' :: fields') ha hb (List.cons.inj (List.cons.inj h).2).2
        exact ⟨congrArg Shape.struct hfields, hrest⟩
    | _ => cases hform
  | .named name, b, r, s, ha, hb, hr, hs, h => by
    have hform := form_eq_of_append_eq ha hb hr hs h
    cases b with
    | named name' =>
      rw [typeText_named, typeText_named] at h
      rw [Shape.names] at ha hb
      obtain ⟨hword, hrest⟩ := append_inj_of_run
        (alphanum_of_isPascalIdentifier (ha name (List.mem_singleton_self name)))
        (alphanum_of_isPascalIdentifier (hb name' (List.mem_singleton_self name')))
        hr.not_alphanum hs.not_alphanum h
      exact ⟨congrArg Shape.named (String.toList_inj.mp hword), hrest⟩
    | _ => cases hform

/-- The members for `fields` and `fields'`, if they have one text up to the brace that closes their
struct, have one outline, and what follows is the same. -/
theorem membersText_append_inj (level : Nat) (mark : Char) (hmark : mark = ';' ∨ mark = ',') :
    ∀ (fields fields' : List (Field Shape)) {r s : List Char},
    (∀ n ∈ Shape.fieldNames fields, Naming.isPascalIdentifier n = true) →
    (∀ n ∈ Shape.fieldNames fields', Naming.isPascalIdentifier n = true) →
    (membersText (level + 1) (String.singleton mark) fields).toList ++
        (List.replicate (2 * level) ' ' ++ '\x7d' :: r) =
      (membersText (level + 1) (String.singleton mark) fields').toList ++
        (List.replicate (2 * level) ' ' ++ '\x7d' :: s) →
      Shape.outlineFields fields = Shape.outlineFields fields' ∧ r = s
  | [], [], r, s, _, _, h => ⟨rfl, (List.cons.inj (List.append_cancel_left h)).2⟩
  | [], field' :: fields', r, s, _, _, h =>
    absurd h.symm (membersText_cons_ne_close level mark field' fields' _ _)
  | field :: fields, [], r, s, _, _, h =>
    absurd h (membersText_cons_ne_close level mark field fields _ _)
  | ⟨name, type, optional, docs⟩ :: fields, ⟨name', type', optional', docs'⟩ :: fields',
      r, s, ha, hb, h => by
    rw [membersText_cons_append, membersText_cons_append] at h
    rw [Shape.fieldNames] at ha hb
    -- Documentation, name, mark and type are taken off the front, and then the other members.
    have hnames := docComment_append_inj (slash_not_mem_head?_propertyName name _)
      (slash_not_mem_head?_propertyName name' _) h
    obtain ⟨rfl, hmarks⟩ := propertyName_append_inj (head?_optional_append optional _)
      (head?_optional_append optional' _) hnames
    obtain ⟨rfl, htypes⟩ := optional_append_inj hmarks
    obtain ⟨htype, hrest⟩ := typeText_append_inj false (level + 1) type type'
      (fun n hn => ha n (List.mem_append_left _ hn)) (fun n hn => hb n (List.mem_append_left _ hn))
      (followsType_cons (.inr hmark) _) (followsType_cons (.inr hmark) _) (List.cons.inj htypes).2
    obtain ⟨hfields, heq⟩ := membersText_append_inj level mark hmark fields fields'
      (fun n hn => ha n (List.mem_append_right _ hn))
      (fun n hn => hb n (List.mem_append_right _ hn)) (List.cons.inj (List.cons.inj hrest).2).2
    exact ⟨congrArg₂ (fun type fields => (⟨name, type, optional, []⟩ : Field Shape) :: fields)
      htype hfields, heq⟩

end

/-- The types `a` and `b`, if they have one text in the declared order, have one outline. -/
theorem outline_eq_of_typeText_eq (level : Nat) {a b : Shape}
    (ha : ∀ n ∈ a.names, Naming.isPascalIdentifier n = true)
    (hb : ∀ n ∈ b.names, Naming.isPascalIdentifier n = true)
    (h : typeText false level (a.arrange .declared) = typeText false level (b.arrange .declared)) :
    a.outline = b.outline := by
  rw [Shape.arrange_declared, Shape.arrange_declared] at h
  have hend : FollowsType [] := fun _ hc => by cases hc
  have hchars := congrArg (fun text => text.toList ++ []) h
  exact (typeText_append_inj false level a b ha hb hend hend hchars).1

end KindSchema.TypeScript

namespace KindSchema.Sample

open TypeScript

/-- A shape with the leaf `leaf`, documentation that would end a comment, and a name that needs
quotes. -/
def visit (leaf : Scalar) : Shape :=
  .struct [⟨"at", .scalar leaf, true, ["in /* UTC */", ""]⟩,
    ⟨"left-by", .array (.named "Visitor"), false, []⟩]

/-- A moment is read back as a text. -/
theorem outline_visit :
    typeText false 1 ((visit .dateTime).arrange .declared) =
        typeText false 1 ((visit .string).arrange .declared) ∧
      (visit .dateTime).outline = (visit .string).outline :=
  ⟨rfl, outline_eq_of_typeText_eq 1 (by decide) (by decide) rfl⟩

end KindSchema.Sample
