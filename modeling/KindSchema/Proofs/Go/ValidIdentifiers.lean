import KindSchema.Text.Category
import KindSchema.Proofs.Go.DeclaredNames
import KindSchema.Proofs.Naming
import KindSchema.Proofs.Resolution.NameSources

/-!
# Which declared names are identifiers

An identifier of Go is a letter or an underscore followed by letters, decimal digits and
underscores. The names of fields and the words in constants are made of letters and numbers in a
wider sense, in which they agree with Go as far as ASCII goes. The names of types are not made of
anything: those of definitions and the annotations of structs are taken as they are, and those at
field paths lose no character but the separators of words.

* `isIdentifier_of_identifier?`: what is made of an ASCII text is an identifier.
* `Kind.NamedAfter.isIdentifier_iff`: the name of a declaration is one exactly if its base is.
* `declaredNames_isIdentifier_iff`: when all names in the files of a kind are identifiers.
-/

namespace KindSchema

/-- That `text` has only ASCII characters. -/
def IsAscii (text : String) : Prop :=
  ∀ c ∈ text.toList, c.toNat < 0x80

instance (text : String) : Decidable (IsAscii text) :=
  List.decidableBAll _ _

namespace Go

/-! ### Identifiers -/

/-- That an identifier may start with `c`. -/
def IsIdentifierStart (c : Char) : Prop :=
  isLetter c = true ∨ c = '_'

/-- That an identifier may go on with `c`. -/
def IsIdentifierPart (c : Char) : Prop :=
  isLetter c = true ∨ c = '_' ∨ isDecimalDigit c = true

/-- The identifiers of Go. -/
def IsIdentifier : String → Prop :=
  ConsistsOf IsIdentifierStart IsIdentifierPart

instance : DecidablePred IsIdentifierStart :=
  fun _ => inferInstanceAs (Decidable (_ ∨ _))

instance : DecidablePred IsIdentifierPart :=
  fun _ => inferInstanceAs (Decidable (_ ∨ _))

instance : DecidablePred IsIdentifier :=
  fun _ => inferInstanceAs (Decidable (ConsistsOf _ _ _))

private theorem IsIdentifierStart.part {c : Char} (h : IsIdentifierStart c) : IsIdentifierPart c :=
  h.imp_right .inl

namespace IsIdentifier

variable {name : String}

private theorem ne_empty (h : IsIdentifier name) : name ≠ "" := by
  rintro rfl
  obtain ⟨_, _, htext, -⟩ := h
  cases htext

/-- Every character of an identifier may stand in one. -/
private theorem forall_part (h : IsIdentifier name) : ∀ c ∈ name.toList, IsIdentifierPart c := by
  obtain ⟨c, cs, htext, hc, hcs⟩ := h
  rw [htext]
  exact List.forall_mem_cons.mpr ⟨hc.part, hcs⟩

/-- What is appended to an identifier goes on with it if each of its characters may. -/
private theorem append_iff (h : IsIdentifier name) {word : String} :
    IsIdentifier (name ++ word) ↔ ∀ c ∈ word.toList, IsIdentifierPart c :=
  (ConsistsOf.append_iff h.ne_empty).trans (and_iff_right h)

end IsIdentifier

private theorem lt_of_isAlphanum {c : Char} (h : c.isAlphanum = true) : c.toNat < 0x80 := by
  rcases isAlphanum_iff.mp h with ⟨-, hmost⟩ | ⟨-, hmost⟩ | ⟨-, hmost⟩ <;>
  · have hmost : c.toNat ≤ _ := hmost
    exact Nat.lt_of_le_of_lt hmost (by decide)

/-- An ASCII letter may start an identifier. -/
private theorem isIdentifierStart_of_isAlpha {c : Char} (h : c.isAlpha = true) :
    IsIdentifierStart c := by
  have hascii : c.toNat < 0x80 := lt_of_isAlphanum (by rw [Char.isAlphanum, h, Bool.true_or])
  exact .inl (by rw [isLetter_of_ascii hascii, h])

/-- An ASCII letter or digit may stand in an identifier. -/
private theorem isIdentifierPart_of_isAlphanum {c : Char} (h : c.isAlphanum = true) :
    IsIdentifierPart c := by
  have hascii := lt_of_isAlphanum h
  rcases Bool.or_eq_true_iff.mp h with halpha | hdigit
  · exact .inl (by rw [isLetter_of_ascii hascii, halpha])
  · exact .inr (.inr (by rw [isDecimalDigit_of_ascii hascii, hdigit]))

/-- The name of a kind is an identifier. -/
private theorem isIdentifier_of_isPascalIdentifier {name : String}
    (h : Naming.isPascalIdentifier name = true) : IsIdentifier name := by
  refine (isPascalIdentifier_iff.mp h).mono (fun c hc => ?_) fun c hc => ?_
  · exact isIdentifierStart_of_isAlpha (Bool.or_eq_true_iff.mpr (.inl (isUpper_iff.mpr hc)))
  · exact isIdentifierPart_of_isAlphanum (isAlphanum_iff.mpr hc)

/-! ### Fresh names -/

/-- A fresh name is an identifier exactly if its base is. -/
private theorem isIdentifier_freshName_iff {used : List String} {base : String} :
    IsIdentifier (freshName used base) ↔ IsIdentifier (nonemptyBase base) := by
  obtain hname | ⟨n, hname⟩ := freshName_eq_or used base
  · rw [hname]
  · obtain ⟨digit, digits, htext, hdigits⟩ := exists_digits_numbered (nonemptyBase base) n
    have hnumber : (toString n).toList = digit :: digits := by
      rw [numbered, String.toList_append] at htext
      exact List.append_cancel_left htext
    rw [hname, numbered]
    refine (ConsistsOf.append_iff (nonemptyBase_ne_empty base)).trans (and_iff_left ?_)
    intro c hc
    rw [hnumber] at hc
    exact isIdentifierPart_of_isAlphanum (by rw [Char.isAlphanum, hdigits c hc, Bool.or_true])

/-! ### Identifiers of texts -/

/-- In ASCII, the upper case of a letter or digit is one. -/
private theorem isAlphanum_toUpper {c : Char} (h : c.isAlphanum = true) :
    c.toUpper.isAlphanum = true := by
  obtain ⟨-, hsame⟩ | hcapital := toUpper_eq_or c
  · rwa [hsame]
  · exact isAlphanum_iff.mpr (.inl hcapital)

/-- The words of an ASCII text, each with a capital, consist of letters and digits. -/
private theorem isAlphanum_of_mem_words {text : String} (htext : IsAscii text) {c : Char}
    (hc : c ∈ (pieces (fun c => !isAlphanumeric c) text.toList).flatMap Naming.capitalizeChars) :
    c.isAlphanum = true := by
  obtain ⟨word, hword, hc⟩ := List.mem_flatMap.mp hc
  have hwords : ∀ d ∈ word, d.isAlphanum = true := by
    intro d hd
    obtain ⟨hmem, hkept⟩ := mem_of_mem_pieces hword hd
    rwa [Bool.not_eq_false', isAlphanumeric_of_ascii (htext d hmem)] at hkept
  -- Only the first letter of a word is changed, and it stays in ASCII.
  cases word with
  | nil => exact absurd hc List.not_mem_nil
  | cons d ds =>
    obtain ⟨hd, hds⟩ := List.forall_mem_cons.mp hwords
    rw [Naming.capitalizeChars, upperCase_of_ascii (lt_of_isAlphanum hd)] at hc
    rcases List.mem_cons.mp hc with rfl | hc
    · exact isAlphanum_toUpper hd
    · exact hds c hc

/-- What is made of `text`, an ASCII text, is an identifier. -/
theorem isIdentifier_of_identifier? {text word : String} (htext : IsAscii text)
    (h : Naming.identifier? text = some word) : IsIdentifier word := by
  have hwords := fun c => isAlphanum_of_mem_words (c := c) htext
  rw [Naming.identifier?] at h
  split at h
  · cases h
  · next first rest hchars =>
    rw [hchars] at hwords
    split at h
    · next halphabetic =>
      obtain rfl := Option.some.inj h
      have hfirst := hwords first List.mem_cons_self
      rw [isAlphabetic_of_isAlpha (lt_of_isAlphanum hfirst)] at halphabetic
      refine ⟨first, rest, String.toList_ofList.trans hchars,
        isIdentifierStart_of_isAlpha halphabetic, ?_⟩
      exact fun c hc => isIdentifierPart_of_isAlphanum (hwords c (List.mem_cons_of_mem _ hc))
    · cases h

end Go

namespace Kind

variable {policy : Policy} {k : Kind} {r : ResolvedKind}

/-! ### Bases -/

/-- The definitions that a valid kind can refer to have names. -/
private theorem name_ne_empty_of_mem_definitionsOf (h : k.validate = .ok ()) {name : String}
    (hname : name ∈ (Resolution.definitionsOf k).map (·.name)) : name ≠ "" := by
  rw [validate] at h
  obtain ⟨⟨⟩, -, h⟩ := bind_eq_ok.mp h
  obtain ⟨⟨⟩, hdefinitions, -⟩ := bind_eq_ok.mp h
  obtain ⟨d, hd, rfl⟩ := List.mem_map.mp hname
  rcases List.mem_append.mp hd with hd | hd
  · exact ((validateDefinitions_eq_ok_iff.mp hdefinitions).1 d hd).name_ne_empty
  · obtain rfl := List.mem_singleton.mp hd
    decide

/-- The name of `d` is an identifier exactly if `base`, what it is named after, is one. -/
theorem NamedAfter.isIdentifier_iff (hvalid : k.validate = .ok ()) {d : Declaration}
    {base : String} (h : k.NamedAfter d base) :
    Go.IsIdentifier d.name ↔ Go.IsIdentifier (nonemptyBase base) := by
  cases h with
  | definition _ hmem =>
    rw [nonemptyBase, if_neg (name_ne_empty_of_mem_definitionsOf hvalid hmem)]
  | label _ _ hname => rw [hname, Go.isIdentifier_freshName_iff]
  | path _ hname => rw [hname, Go.isIdentifier_freshName_iff]

/-- What a declaration is named after does not depend on its body. -/
private theorem NamedAfter.arrange {d : Declaration} {base : String} (h : k.NamedAfter d base)
    (order : MemberOrder) : k.NamedAfter (d.arrange order) base := by
  cases h with
  | definition horigin hmem => exact .definition horigin hmem
  | label horigin hmem hname => exact .label horigin hmem hname
  | path horigin hname => exact .path horigin hname

/-- Every declaration that is rendered of a kind is named after something. -/
private theorem exists_namedAfter_of_mem_reachableDeclarations (h : k.resolve policy = .ok r)
    {params : Params} {d : Declaration}
    (hd : d ∈ (r.presented params).reachableDeclarations) : ∃ base, k.NamedAfter d base := by
  obtain ⟨hmem, -⟩ := (r.mem_reachableDeclarations_presented params).mp hd
  obtain ⟨d', hd', rfl⟩ := List.mem_map.mp hmem
  obtain ⟨base, hbase⟩ := resolve_hasSource h d' hd'
  exact ⟨base, hbase.arrange params.memberOrder⟩

end Kind

namespace Go

/-- All names for the parts of a kind are identifiers if those of its types are, and so is what is
made of keys and literals; for ASCII texts that is always so. -/
private theorem forall_declaresName_iff {params : Params} {r : ResolvedKind}
    (hkind : IsIdentifier r.name) :
    (∀ name, DeclaresName params r name → IsIdentifier name) ↔
      (∀ d ∈ (r.presented params).reachableDeclarations, IsIdentifier d.name) ∧
      (∀ key ∈ writtenKeys params r, ¬IsAscii key → ∀ word,
        Naming.identifier? key = some word → IsIdentifier word) ∧
      ∀ d ∈ (r.presented params).reachableDeclarations, ∀ values, d.body = .enum values →
        ∀ literal ∈ values, ¬IsAscii literal → ∀ word,
          Naming.identifier? literal = some word → ∀ c ∈ word.toList, IsIdentifierPart c := by
  constructor
  · intro hall
    refine ⟨fun d hd => hall _ (.type hd), fun key hkey _ word hword => hall _ (.field hkey hword),
      fun d hd values hbody literal hliteral _ word hword => ?_⟩
    exact (hall _ (.type hd)).append_iff.mp (hall _ (.constant hd hbody hliteral hword))
  · rintro ⟨htypes, hkeys, hliterals⟩ name hdeclared
    cases hdeclared with
    | kind => exact hkind
    | type hd => exact htypes _ hd
    | @constant d values literal word hd hbody hliteral hword =>
      -- The word goes on with the name of a type, so that its first character is not the first.
      refine (htypes d hd).append_iff.mpr ?_
      by_cases hascii : IsAscii literal
      · exact (isIdentifier_of_identifier? hascii hword).forall_part
      · exact hliterals d hd values hbody literal hliteral hascii word hword
    | @field key _ hkey hword =>
      by_cases hascii : IsAscii key
      · exact isIdentifier_of_identifier? hascii hword
      · exact hkeys key hkey hascii name hword

/-- The names that the Go files of `r` declare: the name of the kind, those of the declarations it
depends on, the constants of the enumerations among these, and the fields for all keys; no key and
no literal is without an identifier. Each declaration is named after a definition, an annotation or
a field path, and its name is an identifier exactly if that is one. All declared names are
identifiers exactly if these are, and if what is made of keys and literals beyond ASCII has no
characters other than letters, decimal digits and underscores. -/
theorem declaredNames_isIdentifier_iff {policy : Policy} {k : Kind} {r : ResolvedKind}
    (h : k.resolve policy = .ok r) {params : Params} {files : List File}
    (hfiles : Rendering params r files) :
    let declarations := (r.presented params).reachableDeclarations
    (∀ name, name ∈ files.flatMap (·.declaredNames) ↔ DeclaresName params r name) ∧
      (∀ key ∈ writtenKeys params r, ∃ word, Naming.identifier? key = some word) ∧
      (∀ d ∈ declarations, ∀ values, d.body = .enum values → ∀ literal ∈ values,
        ∃ word, Naming.identifier? literal = some word) ∧
      (∀ d ∈ declarations, ∃ base, k.NamedAfter d base ∧
        (IsIdentifier d.name ↔ IsIdentifier (nonemptyBase base))) ∧
      ((∀ name ∈ files.flatMap (·.declaredNames), IsIdentifier name) ↔
        (∀ d ∈ declarations, IsIdentifier d.name) ∧
        (∀ key ∈ writtenKeys params r, ¬IsAscii key → ∀ word,
          Naming.identifier? key = some word → IsIdentifier word) ∧
        ∀ d ∈ declarations, ∀ values, d.body = .enum values → ∀ literal ∈ values,
          ¬IsAscii literal → ∀ word, Naming.identifier? literal = some word →
            ∀ c ∈ word.toList, IsIdentifierPart c) := by
  intro declarations
  obtain ⟨hvalid, hname, -⟩ := Kind.resolve_run h
  have hnames : ∀ name, name ∈ files.flatMap (·.declaredNames) ↔ DeclaresName params r name :=
    fun _ => Rendering.mem_declaredNames_iff h hfiles
  have hbases : ∀ d ∈ declarations, ∃ base, k.NamedAfter d base ∧
      (IsIdentifier d.name ↔ IsIdentifier (nonemptyBase base)) := by
    intro d hd
    obtain ⟨base, hbase⟩ := Kind.exists_namedAfter_of_mem_reachableDeclarations h hd
    exact ⟨base, hbase, hbase.isIdentifier_iff hvalid⟩
  have hkind : IsIdentifier r.name := by
    rw [hname]
    exact isIdentifier_of_isPascalIdentifier (Kind.validate_names hvalid).pascal
  refine ⟨hnames, fun key hkey => Rendering.exists_identifier_of_key h hfiles hkey,
    fun d hd values hbody literal hliteral =>
      (Rendering.expressible h hfiles d hd).constants.exists_identifier hbody hliteral,
    hbases, ?_⟩
  simp only [hnames]
  exact forall_declaresName_iff hkind

end Go

namespace Sample

open Go

/-- All names that the Go file of a lamp declares are identifiers. -/
theorem isIdentifier_lamp : lamp.resolve .nominal = .ok lampResolved ∧
    ∃ file, typesFile {} lampResolved = .ok file ∧
      ∀ name ∈ file.declaredNames, IsIdentifier name := by
  obtain ⟨file, hfile⟩ := exists_typesFile_lamp
  obtain ⟨-, -, -, -, hall⟩ := declaredNames_isIdentifier_iff resolve_lamp (.types hfile)
  have hreachable : (lampResolved.presented {}).reachableDeclarations =
      lampResolved.declarations := by cbv
  have hkeys : ∀ key ∈ writtenKeys {} lampResolved, IsAscii key := by
    have hwritten : writtenKeys {} lampResolved =
        ["metadata", "spec", "mode", "color", "status"] := by
      rw [writtenKeys, hreachable]
      with_unfolding_all rfl
    rw [hwritten]
    decide
  have hliterals : ∀ d ∈ lampResolved.declarations, ∀ values, d.body = .enum values →
      ∀ literal ∈ values, IsAscii literal := by
    refine List.forall_mem_cons.mpr ⟨?_, List.forall_mem_singleton.mpr ?_⟩ <;>
    · rintro values ⟨⟩
      decide
  rw [List.flatMap_singleton, hreachable] at hall
  exact ⟨resolve_lamp, file, hfile, hall.mpr ⟨by decide +kernel,
    fun key hkey hascii => absurd (hkeys key hkey) hascii,
    fun d hd values hbody literal hliteral hascii =>
      absurd (hliterals d hd values hbody literal hliteral) hascii⟩⟩

/-- A kind with a definition whose name starts with a digit. -/
def login : Kind where
  name := "Login"
  metadata := { type := .struct { fields := [] } }
  spec := { fields := [{ name := "second", type := .reference "2fa" }] }
  status := { fields := [] }
  definitions := [{
    name := "2fa", type := .struct { fields := [{ name := "secret", type := .string }] } }]

/-- The kind, resolved. -/
def loginResolved : ResolvedKind where
  name := "Login"
  machineName := "login"
  description := []
  metadata := { name := "metadata", type := .struct [] }
  spec := { name := "spec", type := .struct [{ name := "second", type := .named "2fa" }] }
  status := { name := "status", type := .struct [] }
  declarations := [
    ⟨"2fa", [], .struct [{ name := "secret", type := .scalar .string }], .defined⟩]

/-- The kind has a Go file, and this declares a type whose name is no identifier. -/
theorem not_isIdentifier_login : login.resolve .nominal = .ok loginResolved ∧
    ∃ file, typesFile {} loginResolved = .ok file ∧ "2fa" ∈ file.declaredNames ∧
      ¬IsIdentifier "2fa" := by
  have hresolve : login.resolve .nominal = .ok loginResolved := by with_unfolding_all rfl
  have hreachable : (loginResolved.presented {}).reachableDeclarations =
      loginResolved.declarations := by cbv
  obtain ⟨file, hfile⟩ : ∃ file, typesFile {} loginResolved = .ok file := by
    refine exists_typesFile_iff.mpr ⟨⟨_, by with_unfolding_all rfl⟩, ?_⟩
    rw [hreachable]
    refine List.forall_mem_singleton.mpr ⟨⟨_, by with_unfolding_all rfl⟩, fun values hbody => ?_⟩
    cases hbody
  have hmem : (⟨"2fa", [], .struct [{ name := "secret", type := .scalar .string }], .defined⟩ :
      Declaration) ∈ (loginResolved.presented {}).reachableDeclarations := by
    rw [hreachable]
    exact List.mem_singleton_self _
  have hdeclared : "2fa" ∈ [file].flatMap (·.declaredNames) :=
    (Rendering.mem_declaredNames_iff hresolve (.types hfile)).mpr (.type hmem)
  rw [List.flatMap_singleton] at hdeclared
  exact ⟨hresolve, file, hfile, hdeclared, by decide +kernel⟩

end Sample

end KindSchema
