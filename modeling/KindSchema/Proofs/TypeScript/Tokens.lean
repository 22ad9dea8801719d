import KindSchema.TypeScript.Types
import KindSchema.Proofs.Resolution.Reachability

/-!
# The types in a TypeScript module

The text of a module as a list of tokens, in which the types that the module declares and those
that it mentions can be told from the text around them.

* `textOf_moduleTokens`: the tokens make up the text of the module.
* `declaredIn_moduleTokens`: a module declares the spec, the kind and what the kind depends on.
* `mentionedIn_typeTokens`: the text of a shape mentions the names that the shape mentions.
-/

namespace KindSchema.TypeScript

/-- A part of a module: a type where it is declared, a type where it is mentioned, or other text. -/
inductive Token
  | plain (text : String)
  | declared (name : String)
  | mentioned (name : String)

/-- The text of a token. -/
def Token.text : Token → String
  | .plain text => text
  | .declared name => name
  | .mentioned name => name

/-- The text that `tokens` make up. -/
def textOf (tokens : List Token) : String :=
  String.join (tokens.map Token.text)

/-- The types that are declared among some tokens. -/
def declaredIn : List Token → List String
  | [] => []
  | .declared name :: tokens => name :: declaredIn tokens
  | _ :: tokens => declaredIn tokens

/-- The types that are mentioned among some tokens. -/
def mentionedIn : List Token → List String
  | [] => []
  | .mentioned name :: tokens => name :: mentionedIn tokens
  | _ :: tokens => mentionedIn tokens

section Tokens

variable (t : Token) (tokens tokens' : List Token)

@[simp]
theorem textOf_nil : textOf [] = "" :=
  rfl

@[simp]
theorem textOf_cons : textOf (t :: tokens) = t.text ++ textOf tokens :=
  String.join_cons

@[simp]
theorem textOf_append : textOf (tokens ++ tokens') = textOf tokens ++ textOf tokens' := by
  rw [textOf, List.map_append, String.join_append]
  rfl

private theorem textOf_plain (text : String) : textOf [.plain text] = text := by
  rw [textOf_cons, textOf_nil, String.append_empty, Token.text]

/-- The text of tokens between other text. -/
private theorem textOf_enclosed (opening closing : String) :
    textOf (.plain opening :: tokens ++ [.plain closing]) =
      opening ++ textOf tokens ++ closing := by
  rw [textOf_append, textOf_cons, textOf_plain, Token.text]

@[simp]
theorem declaredIn_append :
    declaredIn (tokens ++ tokens') = declaredIn tokens ++ declaredIn tokens' := by
  induction tokens with
  | nil => rfl
  | cons t tokens ih => cases t <;> simp [declaredIn, ih]

@[simp]
theorem mentionedIn_append :
    mentionedIn (tokens ++ tokens') = mentionedIn tokens ++ mentionedIn tokens' := by
  induction tokens with
  | nil => rfl
  | cons t tokens ih => cases t <;> simp [mentionedIn, ih]

end Tokens

/-! ### Types and members -/

mutual

/-- The tokens of a type that stands at `level`; `argument` tells whether it is an argument of
`Array` or `Record`. -/
def typeTokens (argument : Bool) (level : Nat) : Shape → List Token
  | .scalar kind => [.plain (scalarName kind)]
  | .enum values => [.plain (union values)]
  | .array items => .plain "Array<" :: typeTokens true level items ++ [.plain ">"]
  | .map values => .plain "Record<string, " :: typeTokens true level values ++ [.plain ">"]
  | .struct [] => [.plain "\x7b\x7d"]
  | .struct (field :: fields) =>
    if argument then
      .plain "\x7b\n" :: memberTokens 1 "," (field :: fields) ++ [.plain "\x7d"]
    else
      .plain "\x7b\n" :: memberTokens (level + 1) ";" (field :: fields) ++
        [.plain (indent level ++ "\x7d")]
  | .named name => [.mentioned name]

/-- The tokens of some members at `level`, each ended by `mark`. -/
def memberTokens (level : Nat) (mark : String) : List (Field Shape) → List Token
  | [] => []
  | ⟨name, type, optional, docs⟩ :: fields =>
    .plain (docComment level docs ++ indent level ++ propertyName name ++
        (if optional then "?" else "") ++ ": ") ::
      typeTokens false level type ++ .plain (mark ++ "\n") :: memberTokens level mark fields

end

mutual

/-- The tokens of a type make up its text. -/
private theorem textOf_typeTokens (argument : Bool) (level : Nat) :
    ∀ shape : Shape, textOf (typeTokens argument level shape) = typeText argument level shape
  | .scalar _ => by
    unfold typeText
    rw [typeTokens, textOf_plain]
  | .enum _ => by
    unfold typeText
    rw [typeTokens, textOf_plain]
  | .array items => by
    unfold typeText
    rw [typeTokens, textOf_enclosed, textOf_typeTokens true level items]
  | .map values => by
    unfold typeText
    rw [typeTokens, textOf_enclosed, textOf_typeTokens true level values]
  | .struct [] => by
    unfold typeText
    rw [typeTokens, textOf_plain]
  | .struct (field :: fields) => by
    unfold typeText
    rw [typeTokens]
    split
    · rw [textOf_enclosed, textOf_memberTokens 1 "," (field :: fields)]
    · rw [textOf_enclosed, textOf_memberTokens (level + 1) ";" (field :: fields)]
      simp only [String.append_assoc]
  | .named _ => by
    unfold typeText
    rw [typeTokens, textOf_cons, textOf_nil, String.append_empty, Token.text]

/-- The tokens of some members make up their lines. -/
private theorem textOf_memberTokens (level : Nat) (mark : String) : ∀ fields : List (Field Shape),
    textOf (memberTokens level mark fields) = membersText level mark fields
  | [] => by rw [memberTokens, membersText, textOf_nil]
  | ⟨name, type, optional, docs⟩ :: fields => by
    have htype := textOf_typeTokens false level type
    have hrest := textOf_memberTokens level mark fields
    simp only [memberTokens, membersText, List.cons_append, textOf_cons, textOf_append, Token.text,
      htype, hrest, String.append_assoc]

end

mutual

/-- The text of a shape mentions the names that the shape mentions, at every `level`. -/
theorem mentionedIn_typeTokens (argument : Bool) (level : Nat) :
    ∀ shape : Shape, mentionedIn (typeTokens argument level shape) = shape.names
  | .scalar _ => by simp [typeTokens, mentionedIn, Shape.names]
  | .enum _ => by simp [typeTokens, mentionedIn, Shape.names]
  | .array items => by
    simp [typeTokens, mentionedIn, Shape.names, mentionedIn_typeTokens true level items]
  | .map values => by
    simp [typeTokens, mentionedIn, Shape.names, mentionedIn_typeTokens true level values]
  | .struct [] => by simp [typeTokens, mentionedIn, Shape.names, Shape.fieldNames]
  | .struct (field :: fields) => by
    cases argument with
    | true =>
      have hmembers := mentionedIn_memberTokens 1 "," (field :: fields)
      simp [typeTokens, mentionedIn, Shape.names, hmembers]
    | false =>
      have hmembers := mentionedIn_memberTokens (level + 1) ";" (field :: fields)
      simp [typeTokens, mentionedIn, Shape.names, hmembers]
  | .named _ => by simp [typeTokens, mentionedIn, Shape.names]

/-- The lines of `fields` mention the names that the fields mention. -/
theorem mentionedIn_memberTokens (level : Nat) (mark : String) :
    ∀ fields : List (Field Shape),
      mentionedIn (memberTokens level mark fields) = Shape.fieldNames fields
  | [] => by simp [memberTokens, mentionedIn, Shape.fieldNames]
  | ⟨name, type, optional, docs⟩ :: fields => by
    have htype := mentionedIn_typeTokens false level type
    have hrest := mentionedIn_memberTokens level mark fields
    simp [memberTokens, mentionedIn, Shape.fieldNames, htype, hrest]

end

mutual

/-- No type is declared within a type. -/
private theorem declaredIn_typeTokens (argument : Bool) (level : Nat) :
    ∀ shape : Shape, declaredIn (typeTokens argument level shape) = []
  | .scalar _ => by simp [typeTokens, declaredIn]
  | .enum _ => by simp [typeTokens, declaredIn]
  | .array items => by simp [typeTokens, declaredIn, declaredIn_typeTokens true level items]
  | .map values => by simp [typeTokens, declaredIn, declaredIn_typeTokens true level values]
  | .struct [] => by simp [typeTokens, declaredIn]
  | .struct (field :: fields) => by
    cases argument with
    | true =>
      have hmembers := declaredIn_memberTokens 1 "," (field :: fields)
      simp [typeTokens, declaredIn, hmembers]
    | false =>
      have hmembers := declaredIn_memberTokens (level + 1) ";" (field :: fields)
      simp [typeTokens, declaredIn, hmembers]
  | .named _ => by simp [typeTokens, declaredIn]

private theorem declaredIn_memberTokens (level : Nat) (mark : String) :
    ∀ fields : List (Field Shape), declaredIn (memberTokens level mark fields) = []
  | [] => by simp [memberTokens, declaredIn]
  | ⟨name, type, optional, docs⟩ :: fields => by
    have htype := declaredIn_typeTokens false level type
    have hrest := declaredIn_memberTokens level mark fields
    simp [memberTokens, declaredIn, htype, hrest]

end

/-! ### Declarations -/

/-- The tokens of the exported interface `name` with `members`. -/
def interfaceTokens (name : String) (members : List (Field Shape)) : List Token :=
  [.plain "export interface ", .declared name, .plain " \x7b\n"] ++ memberTokens 1 ";" members ++
    [.plain "\x7d\n"]

/-- The tokens of the exported type `name`, which stands for `type`. -/
def synonymTokens (name : String) (type : List Token) : List Token :=
  [.plain "export type ", .declared name, .plain " = "] ++ type ++ [.plain ";\n"]

/-- The tokens of a body called `name`. -/
def bodyTokens (name : String) : Body → List Token
  | .struct fields => interfaceTokens name fields
  | .enum values => synonymTokens name [.plain (union values)]
  | .synonym shape => synonymTokens name (typeTokens false 0 shape)

/-- The tokens of `d`. -/
def declarationTokens (d : Declaration) : List Token :=
  .plain (docComment 0 d.docs) :: bodyTokens d.name d.body

/-- The tokens of the module of `k`. -/
def moduleTokens (params : Params) (k : ResolvedKind) : List Token :=
  interfaceTokens "spec" (k.standaloneSpec params) ++
    [.plain "\n", .plain (docComment 0 k.description)] ++
    interfaceTokens k.name (k.presented params).envelope ++
    (k.presented params).reachableDeclarations.flatMap fun d => .plain "\n" :: declarationTokens d

section Module

variable (name : String) (members : List (Field Shape)) (d : Declaration)

private theorem textOf_interfaceTokens : textOf (interfaceTokens name members) =
    interfaceText name members := by
  unfold interfaceText interfaceTokens
  simp only [List.cons_append, List.nil_append, textOf_append, textOf_cons, textOf_nil,
    textOf_memberTokens, Token.text, String.append_assoc, String.append_empty]

private theorem textOf_synonymTokens (type : List Token) : textOf (synonymTokens name type) =
    "export type " ++ name ++ " = " ++ textOf type ++ ";\n" := by
  unfold synonymTokens
  simp only [List.cons_append, List.nil_append, textOf_append, textOf_cons, textOf_nil,
    Token.text, String.append_assoc, String.append_empty]

private theorem textOf_declarationTokens : textOf (declarationTokens d) = declarationText d := by
  obtain ⟨name, docs, body, origin⟩ := d
  unfold declarationText
  rw [declarationTokens, textOf_cons, Token.text]
  cases body with
  | struct fields => rw [bodyTokens, textOf_interfaceTokens]
  | enum values => rw [bodyTokens, textOf_synonymTokens, textOf_plain]
  | synonym shape => rw [bodyTokens, textOf_synonymTokens, textOf_typeTokens]

@[simp]
theorem declaredIn_interfaceTokens : declaredIn (interfaceTokens name members) = [name] := by
  simp [interfaceTokens, declaredIn, declaredIn_memberTokens]

@[simp]
theorem declaredIn_declarationTokens : declaredIn (declarationTokens d) = [d.name] := by
  obtain ⟨name, docs, body, origin⟩ := d
  cases body <;>
    simp [declarationTokens, bodyTokens, synonymTokens, declaredIn, declaredIn_typeTokens]

@[simp]
theorem mentionedIn_interfaceTokens :
    mentionedIn (interfaceTokens name members) = Shape.fieldNames members := by
  simp [interfaceTokens, mentionedIn, mentionedIn_memberTokens]

@[simp]
theorem mentionedIn_declarationTokens : mentionedIn (declarationTokens d) = d.body.names := by
  obtain ⟨name, docs, body, origin⟩ := d
  cases body <;>
    simp [declarationTokens, bodyTokens, synonymTokens, mentionedIn, mentionedIn_typeTokens,
      Body.names]

variable (params : Params) (k : ResolvedKind)

/-- The tokens of the module of `k` make up its text. -/
theorem textOf_moduleTokens : textOf (moduleTokens params k) = moduleText params k := by
  have hdeclarations : ∀ declarations : List Declaration,
      textOf (declarations.flatMap fun d => .plain "\n" :: declarationTokens d) =
        String.join (declarations.map fun d => "\n" ++ declarationText d) := by
    intro declarations
    induction declarations with
    | nil => rfl
    | cons d declarations ih =>
      rw [List.flatMap_cons, textOf_append, textOf_cons, textOf_declarationTokens, ih,
        List.map_cons, String.join_cons, Token.text]
  unfold moduleText moduleTokens
  simp only [textOf_append, textOf_cons, textOf_nil, textOf_interfaceTokens, hdeclarations,
    Token.text, String.append_assoc, String.empty_append]

/-- The module of `k` declares the spec, the kind and what the kind depends on. -/
theorem declaredIn_moduleTokens : declaredIn (moduleTokens params k) =
    "spec" :: k.name :: (k.presented params).reachableDeclarations.map (·.name) := by
  have hdeclarations : ∀ declarations : List Declaration,
      declaredIn (declarations.flatMap fun d => .plain "\n" :: declarationTokens d) =
        declarations.map (·.name) := by
    intro declarations
    induction declarations with
    | nil => rfl
    | cons d declarations ih => simp [declaredIn, ih]
  simp [moduleTokens, declaredIn, hdeclarations]

/-- The module of `k` mentions what its spec, its sections and its declarations mention. -/
theorem mentionedIn_moduleTokens : mentionedIn (moduleTokens params k) =
    Shape.fieldNames (k.standaloneSpec params) ++ Shape.fieldNames (k.presented params).envelope ++
      (k.presented params).reachableDeclarations.flatMap (·.body.names) := by
  have hdeclarations : ∀ declarations : List Declaration,
      mentionedIn (declarations.flatMap fun d => .plain "\n" :: declarationTokens d) =
        declarations.flatMap (·.body.names) := by
    intro declarations
    induction declarations with
    | nil => rfl
    | cons d declarations ih => simp [mentionedIn, ih]
  simp [moduleTokens, mentionedIn, hdeclarations]

end Module

end KindSchema.TypeScript
