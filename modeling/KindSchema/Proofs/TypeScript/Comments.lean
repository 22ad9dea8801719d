import KindSchema.Proofs.Output.Documentation
import KindSchema.Proofs.TypeScript.Lexemes
import KindSchema.Proofs.TypeScript.Tokens

/-!
# Comments in TypeScript modules

Documentation is text of the user inside a comment, and what ends a comment could stand in it. It is
written so that this cannot happen: the only end of a comment is its own.

`codeFrom` reads the code of a text and skips its comments. It knows literals as well, since what
opens a comment does not open one inside a literal. `ReadsAs` says what is read of a text whatever
comes behind it, so texts can be put one after the other.

* `closings_docComment`: documentation has one end of a comment.
* `readsAs_docComment`: where code is read, documentation counts as a blank line.
* `sameCode_typeText`, `sameCode_membersText`: two types, or the members of two structs, that differ
  in documentation alone are the same code, by induction on types.
* `docComment_closes`: and so are two modules.
-/

namespace KindSchema

namespace TypeScript

/-! ### Ends of comments -/

/-- The number of places in `text` where a comment would end. -/
def closings (text : String) : Nat :=
  text.toList.tails.countP (['*', '/'].isPrefixOf ·)

/-- Where a text has no end of a comment, it does not make one with what follows it either, unless
that begins with a slash. -/
private theorem not_close_prefix {c : Char} {xs ys : List Char} (h : (c :: xs).IsChain Unclosing)
    (hys : '/' ∉ ys.head?) : ¬['*', '/'] <+: c :: (xs ++ ys) := by
  intro hclose
  obtain ⟨rest, heq⟩ := hclose
  obtain ⟨rfl, hrest⟩ := List.cons.inj heq
  cases xs with
  | nil =>
    have hslash : ys = '/' :: rest := hrest.symm
    exact hys (by rw [hslash]; rfl)
  | cons b xs => exact (List.isChain_cons_cons.mp h).1 ⟨rfl, (List.cons.inj hrest).1.symm⟩

/-- What has no end of a comment may be left out when they are counted. -/
private theorem countP_tails_append {xs ys : List Char} (h : xs.IsChain Unclosing)
    (hys : '/' ∉ ys.head?) :
    (xs ++ ys).tails.countP (['*', '/'].isPrefixOf ·) =
      ys.tails.countP (['*', '/'].isPrefixOf ·) := by
  induction xs with
  | nil => rfl
  | cons c xs ih =>
    have hnone := not_close_prefix h hys
    rw [← List.isPrefixOf_iff_prefix] at hnone
    rw [List.cons_append, List.tails, List.countP_cons_of_neg hnone, ih h.tail]

theorem closings_docComment (level : Nat) {docs : List String} (h : docs ≠ []) :
    closings (docComment level docs) = 1 := by
  obtain ⟨body, hbody, heq⟩ := exists_docComment_eq level h
  have hopening : ('/' :: '*' :: body).IsChain Unclosing :=
    hbody.cons fun _ _ hclose => absurd hclose.1 (by decide)
  have hbefore : (List.replicate (2 * level) ' ' ++ '/' :: '*' :: body).IsChain Unclosing :=
    unclosing_append (by simp) hopening
  have happend : (docComment level docs).toList =
      (List.replicate (2 * level) ' ' ++ '/' :: '*' :: body) ++ ['*', '/', '\n'] := by
    rw [heq, List.append_assoc]
    rfl
  rw [closings, happend, countP_tails_append hbefore (by decide)]
  rfl

/-! ### Reading code -/

/-- What a reader of a text is inside of. -/
inductive Region
  | code
  /-- In a literal in single quotes. -/
  | literal
  | comment

/-- The code in some characters: all but the comments, each of which counts as a blank. -/
def codeFrom : Region → List Char → List Char
  | .code, '/' :: '*' :: cs => ' ' :: codeFrom .comment cs
  | .code, '\'' :: cs => '\'' :: codeFrom .literal cs
  | .code, c :: cs => c :: codeFrom .code cs
  | .literal, '\\' :: c :: cs => '\\' :: c :: codeFrom .literal cs
  | .literal, '\'' :: cs => '\'' :: codeFrom .code cs
  | .literal, c :: cs => c :: codeFrom .literal cs
  | .comment, '*' :: '/' :: cs => codeFrom .code cs
  | .comment, _ :: cs => codeFrom .comment cs
  | _, [] => []

/-- The code of `text`. -/
def codeOf (text : String) : String :=
  String.ofList (codeFrom .code text.toList)

/-- Whether `c` can open a comment or a literal. -/
def isOpening (c : Char) : Bool :=
  c == '/' || c == '\'' || c == '"' || c == '\x60'

/-- That nothing in `text` opens a comment or a literal. -/
def IsPlain (text : String) : Prop :=
  ∀ c ∈ text.toList, isOpening c = false

instance (text : String) : Decidable (IsPlain text) :=
  List.decidableBAll _ _

private theorem codeFrom_plain {xs : List Char} (h : ∀ c ∈ xs, isOpening c = false)
    (rest : List Char) :
    codeFrom .code (xs ++ rest) = xs ++ codeFrom .code rest := by
  induction xs with
  | nil => rfl
  | cons c xs ih =>
    obtain ⟨hc, hxs⟩ := List.forall_mem_cons.mp h
    have hslash : c ≠ '/' := fun heq => absurd hc (heq ▸ by decide)
    have hquote : c ≠ '\'' := fun heq => absurd hc (heq ▸ by decide)
    rw [List.cons_append, codeFrom, ih hxs, List.cons_append]
    · exact fun _ heq => absurd heq hslash
    · exact hquote

/-- A literal is read up to its closing quote. -/
private theorem codeFrom_escaped (xs rest : List Char) :
    codeFrom .literal (xs.flatMap escapeChar ++ '\'' :: rest) =
      xs.flatMap escapeChar ++ '\'' :: codeFrom .code rest := by
  induction xs with
  | nil => rfl
  | cons c xs ih =>
    rw [List.flatMap_cons, List.append_assoc, escapeChar]
    split
    · exact congrArg ('\\' :: c :: ·) ih
    · next hplain =>
      obtain ⟨hbackslash, hquote⟩ := not_or.mp hplain
      rw [List.singleton_append, codeFrom, ih, List.append_assoc, List.singleton_append]
      · exact fun _ _ heq => absurd heq hbackslash
      · exact hquote

/-- A comment is skipped up to its first end. -/
private theorem codeFrom_comment {xs : List Char} (h : xs.IsChain Unclosing) (rest : List Char) :
    codeFrom .comment (xs ++ '*' :: '/' :: rest) = codeFrom .code rest := by
  induction xs with
  | nil => rfl
  | cons c xs ih =>
    have hclose : '/' ∉ ('*' :: '/' :: rest).head? := by simp
    have hnone := not_close_prefix h hclose
    rw [List.cons_append, codeFrom, ih h.tail]
    rintro cs rfl heq
    exact hnone ⟨cs, by rw [heq]; rfl⟩

/-- That `text` is read as `code`, whatever follows it. -/
def ReadsAs (text code : String) : Prop :=
  ∀ rest, codeFrom .code (text.toList ++ rest) = code.toList ++ codeFrom .code rest

section ReadsAs

variable {s t code code' : String}

private theorem ReadsAs.append (h : ReadsAs s code) (h' : ReadsAs t code') :
    ReadsAs (s ++ t) (code ++ code') := by
  intro rest
  rw [String.toList_append, String.toList_append, List.append_assoc, List.append_assoc, h, h']

private theorem IsPlain.readsAs (h : IsPlain s) : ReadsAs s s :=
  codeFrom_plain h

private theorem readsAs_stringLiteral (s : String) :
    ReadsAs (stringLiteral s) (stringLiteral s) := by
  intro rest
  have hread := codeFrom_escaped s.toList rest
  rw [toList_stringLiteral, List.cons_append, List.append_assoc, List.singleton_append, codeFrom,
    hread, List.cons_append, List.append_assoc, List.singleton_append]

private theorem readsAs_union (values : List String) : ReadsAs (union values) (union values) := by
  have hvalues : ReadsAs (" | ".intercalate (values.map stringLiteral))
      (" | ".intercalate (values.map stringLiteral)) := by
    induction values with
    | nil => exact IsPlain.readsAs (by decide)
    | cons v values ih =>
      cases values with
      | nil =>
        rw [List.map_singleton, String.intercalate_singleton]
        exact readsAs_stringLiteral v
      | cons w values =>
        rw [List.map_cons, List.map_cons, String.intercalate_cons_cons]
        have hbar : ReadsAs " | " " | " := IsPlain.readsAs (by decide)
        exact ((readsAs_stringLiteral v).append hbar).append ih
  have hopen : ReadsAs "(" "(" := IsPlain.readsAs (by decide)
  have hclose : ReadsAs ")" ")" := IsPlain.readsAs (by decide)
  exact (hopen.append hvalues).append hclose

private theorem readsAs_propertyName (name : String) :
    ReadsAs (propertyName name) (propertyName name) := by
  unfold propertyName
  split
  · next h =>
    obtain ⟨-, -, -, hname⟩ := exists_toList_of_isName h
    refine IsPlain.readsAs fun c hc => Bool.eq_false_iff.mpr fun hopening => ?_
    have hchar := hname c hc
    simp only [isOpening, Bool.or_eq_true, beq_iff_eq] at hopening
    obtain ((rfl | rfl) | rfl) | rfl := hopening <;> exact absurd hchar (by decide)
  · exact readsAs_stringLiteral name

private theorem isPlain_indent (level : Nat) : IsPlain (indent level) := by
  intro c hc
  rw [toList_indent] at hc
  rw [List.eq_of_mem_replicate hc]
  rfl

/-- Where code is read, the documentation `docs` counts as a blank line. -/
theorem readsAs_docComment (level : Nat) {docs : List String} (h : docs ≠ []) :
    ReadsAs (docComment level docs) (indent level ++ " \n") := by
  intro rest
  obtain ⟨body, hbody, heq⟩ := exists_docComment_eq level h
  have hindent := (isPlain_indent level).readsAs
  have hskip := codeFrom_comment hbody.tail ('\n' :: rest)
  rw [List.tail_cons] at hskip
  rw [heq, ← toList_indent, List.append_assoc, hindent, List.cons_append, List.cons_append,
    List.append_assoc, codeFrom, List.cons_append, List.cons_append, List.singleton_append, hskip,
    String.toList_append, List.append_assoc]
  rfl

end ReadsAs

/-! ### Other documentation -/

/-- That the same code is read of `s` and of `t`, whatever follows them. -/
def SameCode (s t : String) : Prop :=
  ∃ code, ReadsAs s code ∧ ReadsAs t code

section SameCode

variable {s t u v : String}

private theorem ReadsAs.sameCode {code : String} (h : ReadsAs s code) : SameCode s s :=
  ⟨code, h, h⟩

private theorem IsPlain.sameCode (h : IsPlain s) : SameCode s s :=
  h.readsAs.sameCode

private theorem sameCode_empty : SameCode "" "" :=
  IsPlain.sameCode (by decide)

private theorem SameCode.append (h : SameCode s t) (h' : SameCode u v) :
    SameCode (s ++ u) (t ++ v) := by
  obtain ⟨code, hs, ht⟩ := h
  obtain ⟨code', hu, hv⟩ := h'
  exact ⟨code ++ code', hs.append hu, ht.append hv⟩

private theorem SameCode.append_plain (h : SameCode s t) (hu : IsPlain u) :
    SameCode (s ++ u) (t ++ u) :=
  h.append hu.sameCode

private theorem SameCode.codeOf_eq (h : SameCode s t) : codeOf s = codeOf t := by
  obtain ⟨code, hs, ht⟩ := h
  have hs := hs []
  have ht := ht []
  rw [List.append_nil] at hs ht
  rw [codeOf, codeOf, hs, ht]

private theorem SameCode.join {α : Type} {f g : α → String} {xs : List α}
    (h : ∀ x ∈ xs, SameCode (f x) (g x)) :
    SameCode (String.join (xs.map f)) (String.join (xs.map g)) := by
  induction xs with
  | nil => exact sameCode_empty
  | cons x xs ih =>
    obtain ⟨hx, hxs⟩ := List.forall_mem_cons.mp h
    rw [List.map_cons, List.map_cons, String.join_cons, String.join_cons]
    exact hx.append (ih hxs)

end SameCode

section Documentation

variable {text : List String → List String}

private theorem sameCode_docComment (htext : ∀ docs, text docs = [] ↔ docs = []) (level : Nat)
    (docs : List String) :
    SameCode (docComment level (text docs)) (docComment level docs) := by
  by_cases h : docs = []
  · rw [(htext docs).mpr h, h]
    exact sameCode_empty
  · exact ⟨_, readsAs_docComment level (mt (htext docs).mp h), readsAs_docComment level h⟩

mutual

/-- The text of `shape` is the same code, whatever its documentation is. -/
theorem sameCode_typeText (htext : ∀ docs, text docs = [] ↔ docs = []) (argument : Bool)
    (level : Nat) : ∀ shape : Shape, (∀ name ∈ shape.names, IsPlain name) →
      SameCode (typeText argument level (shape.recast id text)) (typeText argument level shape)
  | .scalar kind, _ => by
    rw [Shape.recast, typeText, id_eq]
    cases kind <;> exact IsPlain.sameCode (by decide)
  | .enum values, _ => by
    rw [Shape.recast, typeText]
    exact (readsAs_union values).sameCode
  | .array items, hnames => by
    have hopen : IsPlain "Array<" := by decide
    rw [Shape.names] at hnames
    rw [Shape.recast, typeText, typeText]
    exact (hopen.sameCode.append (sameCode_typeText htext true level items hnames)).append_plain
      (by decide)
  | .map values, hnames => by
    have hopen : IsPlain "Record<string, " := by decide
    rw [Shape.names] at hnames
    rw [Shape.recast, typeText, typeText]
    exact (hopen.sameCode.append (sameCode_typeText htext true level values hnames)).append_plain
      (by decide)
  | .struct [], _ => by
    rw [Shape.recast, Shape.recastFields, typeText]
    exact IsPlain.sameCode (by decide)
  -- A struct is on one line inside brackets and on several elsewhere.
  | .struct (⟨name, type, optional, docs⟩ :: fields), hnames => by
    have hopen : IsPlain "\x7b\n" := by decide
    rw [Shape.names] at hnames
    have hmembers (level : Nat) {mark : String} (hmark : IsPlain mark) :=
      sameCode_membersText htext level hmark (⟨name, type, optional, docs⟩ :: fields) hnames
    rw [Shape.recast, typeText, Shape.recastFields, typeText, ← Shape.recastFields]
    split
    · exact (hopen.sameCode.append (hmembers 1 (by decide))).append_plain (by decide)
    · exact ((hopen.sameCode.append (hmembers (level + 1) (by decide))).append_plain
        (isPlain_indent level)).append_plain (by decide)
  | .named name, hnames => by
    rw [Shape.recast, typeText]
    exact (hnames name (by rw [Shape.names]; exact List.mem_singleton_self name)).sameCode

/-- The text of `fields` is the same code, whatever their documentation is. -/
theorem sameCode_membersText (htext : ∀ docs, text docs = [] ↔ docs = []) (level : Nat)
    {mark : String} (hmark : IsPlain mark) :
    ∀ fields : List (Field Shape), (∀ name ∈ Shape.fieldNames fields, IsPlain name) →
      SameCode (membersText level mark (Shape.recastFields id text fields))
        (membersText level mark fields)
  | [], _ => by
    rw [Shape.recastFields, membersText]
    exact sameCode_empty
  | ⟨name, type, optional, docs⟩ :: fields, hnames => by
    have hoptional : IsPlain (if optional then "?" else "") := by cases optional <;> decide
    rw [Shape.fieldNames, List.forall_mem_append] at hnames
    have htype := sameCode_typeText htext false level type hnames.1
    have hrest := sameCode_membersText htext level hmark fields hnames.2
    have hlead := (sameCode_docComment htext level docs).append_plain (isPlain_indent level)
    have hname := ((hlead.append (readsAs_propertyName name).sameCode).append_plain
      hoptional).append_plain (u := ": ") (by decide)
    rw [Shape.recastFields, membersText, membersText]
    exact (((hname.append htype).append_plain hmark).append_plain (by decide)).append hrest

end

variable (htext : ∀ docs, text docs = [] ↔ docs = [])
include htext

private theorem sameCode_interfaceText {name : String} (hname : IsPlain name)
    {fields : List (Field Shape)} (hnames : ∀ name ∈ Shape.fieldNames fields, IsPlain name) :
    SameCode (interfaceText name (Shape.recastFields id text fields))
      (interfaceText name fields) := by
  have hopen : IsPlain "export interface " := by decide
  have hmark : IsPlain ";" := by decide
  have hmembers := sameCode_membersText htext 1 hmark fields hnames
  have hbrace := (hopen.sameCode.append_plain hname).append_plain (show IsPlain " \x7b\n" by decide)
  exact (hbrace.append hmembers).append_plain (by decide)

private theorem sameCode_declarationText {d : Declaration} (hname : IsPlain d.name)
    (hnames : ∀ name ∈ d.body.names, IsPlain name) :
    SameCode (declarationText (d.withDocs text)) (declarationText d) := by
  obtain ⟨name, docs, body, origin⟩ := d
  have hopen : IsPlain "export type " := by decide
  have hlead : SameCode ("export type " ++ name ++ " = ") ("export type " ++ name ++ " = ") :=
    (hopen.sameCode.append_plain hname).append_plain (by decide)
  unfold declarationText
  refine (sameCode_docComment htext 0 docs).append ?_
  cases body with
  | struct fields => exact sameCode_interfaceText htext hname hnames
  | enum values => exact (hlead.append (readsAs_union values).sameCode).append_plain (by decide)
  | synonym shape =>
    exact (hlead.append (sameCode_typeText htext false 0 shape hnames)).append_plain (by decide)

/-- A module is the same code, whatever the documentation of its kind is. -/
private theorem sameCode_moduleText {params : Params} {k : ResolvedKind}
    (hnames : ∀ name ∈ declaredIn (moduleTokens params k) ++ mentionedIn (moduleTokens params k),
      IsPlain name) :
    SameCode (moduleText params (k.withDocs text)) (moduleText params k) := by
  rw [declaredIn_moduleTokens, mentionedIn_moduleTokens] at hnames
  simp only [List.forall_mem_append, List.forall_mem_cons, List.forall_mem_map,
    List.forall_mem_flatMap] at hnames
  obtain ⟨⟨hspec, hkind, hdeclared⟩, ⟨hstandalone, henvelope⟩, hbodies⟩ := hnames
  have hsections : ((k.presented params).withDocs text).envelope =
      Shape.recastFields id text (k.presented params).envelope := by
    rw [Shape.recastFields_eq_map]
    rfl
  have hbreak : IsPlain "\n" := by decide
  unfold moduleText
  dsimp only
  rw [k.standaloneSpec_withDocs text, k.presented_withDocs text, hsections,
    ResolvedKind.reachableDeclarations_withDocs, List.map_map]
  have hlead := (sameCode_interfaceText htext hspec hstandalone).append_plain hbreak
  have hdescription := hlead.append (sameCode_docComment htext 0 k.description)
  refine (hdescription.append (sameCode_interfaceText htext hkind henvelope)).append (.join ?_)
  exact fun d hd => hbreak.sameCode.append
    (sameCode_declarationText htext (hdeclared d hd) (hbodies d hd))

end Documentation

/-- Documentation is written as a comment in which the end of a comment stands once: at its end,
with a line break behind it. Where code is read, all of it counts as a blank line. So if no type of
a module has a name that opens a comment or a literal, the code of the module does not depend on
what the documentation says, of the kind, of its declarations or of any field. -/
theorem docComment_closes :
    (∀ (level : Nat) (docs : List String), docs ≠ [] →
      closings (docComment level docs) = 1 ∧
      (∃ lines, docComment level docs = lines ++ "*/\n") ∧
      ReadsAs (docComment level docs) (indent level ++ " \n")) ∧
    ∀ (text : List String → List String) (params : Params) (k : ResolvedKind),
      (∀ docs, text docs = [] ↔ docs = []) →
      (∀ name ∈ declaredIn (moduleTokens params k) ++ mentionedIn (moduleTokens params k),
        IsPlain name) →
      codeOf (moduleText params (k.withDocs text)) = codeOf (moduleText params k) := by
  refine ⟨fun level docs h => ⟨closings_docComment level h, ?_, readsAs_docComment level h⟩,
    fun text params k htext hnames => (sameCode_moduleText htext hnames).codeOf_eq⟩
  have hend : " */\n" = " " ++ "*/\n" := by decide
  rw [docComment, if_neg (by simpa using h), hend, ← String.append_assoc]
  exact ⟨_, rfl⟩

end TypeScript

namespace Sample

open TypeScript

/-- A kind all of whose documentation tries to end its comment. -/
def gate : ResolvedKind where
  name := "Gate"
  machineName := "gate"
  description := ["Opens */ or", "/* not."]
  metadata := { name := "metadata", type := .struct [] }
  spec := { name := "spec", type := .struct [
    { name := "path", type := .scalar .string, docs := ["Such as src/**/*.ts", "*\n/"] },
    { name := "state", type := .named "State" }] }
  status := { name := "status", type := .struct [] }
  declarations := [⟨"State", ["**/", "", "/"], .enum ["open*/", "it's /*"], .defined⟩]

/-- Its longest comment has one end. If each of its comments is one empty line, it is the same
code. -/
theorem docComment_closes_gate :
    closings (docComment 1 ["Such as src/**/*.ts", "*/*/", "/", "", "a\n*/ b"]) = 1 ∧
      (∀ name ∈ declaredIn (moduleTokens {} gate) ++ mentionedIn (moduleTokens {} gate),
        IsPlain name) ∧
      codeOf (moduleText {} (gate.withDocs fun docs => if docs = [] then [] else [""])) =
        codeOf (moduleText {} gate) := by
  have hnames : ∀ name ∈ declaredIn (moduleTokens {} gate) ++ mentionedIn (moduleTokens {} gate),
      IsPlain name := by
    have hreachable : (gate.presented {}).reachableDeclarations = gate.declarations := by cbv
    have hstandalone : Shape.fieldNames (gate.standaloneSpec {}) = ["State"] := by
      rw [Shape.fieldNames_eq_flatMap, ← List.perm_singleton]
      exact (MemberOrder.sort_perm .alphabetical _).flatMap_right _
    rw [declaredIn_moduleTokens, mentionedIn_moduleTokens, hreachable, hstandalone]
    decide
  obtain ⟨hcloses, -⟩ := docComment_closes.1 1
    ["Such as src/**/*.ts", "*/*/", "/", "", "a\n*/ b"] (List.cons_ne_nil _ _)
  refine ⟨hcloses, hnames, docComment_closes.2 _ {} gate (fun docs => ?_) hnames⟩
  split <;> simp_all

end Sample

end KindSchema
