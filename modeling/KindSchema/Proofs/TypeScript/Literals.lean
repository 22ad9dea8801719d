import KindSchema.Proofs.Text.Literals
import KindSchema.TypeScript.Types

/-!
# String literals in TypeScript

A literal in single quotes denotes a sequence of 16-bit units, a text the units of its characters in
UTF-16. A line break ends a line, but not a literal, so none may stand in a literal as it is.

* `unitsOf_injective`: different texts have different units.
* `quotes_stringLiteral`: the literal that is written for a text is read back as the text unless
  the text has a character that must not stand in a literal.
-/

namespace KindSchema.TypeScript

/-- The units of the code point `n` in UTF-16: two if it does not fit into one. -/
def utf16 (n : Nat) : List Nat :=
  if n < 0x10000 then [n]
  else [0xd800 + (n - 0x10000) / 0x400, 0xdc00 + (n - 0x10000) % 0x400]

/-- The control characters with an escape of their own. -/
def controlEscapes : List (Char × Nat) :=
  [('b', 0x08), ('t', 0x09), ('n', 0x0a), ('v', 0x0b), ('f', 0x0c), ('r', 0x0d)]

/-- What stands behind `\u`: four hexadecimal digits for a unit, or any number of them in braces
for a code point. -/
def unicodeEscape? : List Char → Option (List Nat × Nat)
  | '\x7b' :: cs =>
    let digits := cs.takeWhile (· ≠ '\x7d')
    if digits = [] ∨ digits.length = cs.length then none
    else do
      let n ← digits? 16 digits.length digits
      if n < 0x110000 then some (utf16 n, digits.length + 2) else none
  | cs => (digits? 16 4 cs).map fun n => ([n], 4)

/-- What stands behind a backslash. A line break there goes on with the literal on the next line; a
digit is an error, except for a zero on its own. -/
def escape? : List Char → Option (List Nat × Nat)
  | [] => none
  | c :: cs =>
    if c = 'x' then (digits? 16 2 cs).map fun n => ([n], 3)
    else if c = 'u' then (unicodeEscape? cs).map fun (units, length) => (units, length + 1)
    else if c = '\r' ∧ cs.head? = some '\n' then some ([], 2)
    else if c = '\r' ∨ c = '\n' ∨ c = '\u2028' ∨ c = '\u2029' then some ([], 1)
    else if c = '0' ∧ !cs.head?.any Char.isDigit then some ([0], 1)
    else if c.isDigit then none
    else match controlEscapes.lookup c with
      | some unit => some ([unit], 1)
      | none => some (utf16 c.toNat, 1)

/-- Whether `c` must not stand in a literal. The separators of lines and of paragraphs are line
breaks elsewhere in a module; readers that are `strict` refuse them in literals, too. -/
def refuses (strict : Bool) (c : Char) : Bool :=
  c == '\n' || c == '\r' || strict && (c == '\u2028' || c == '\u2029')

/-- Literals in single quotes, as readers that are `strict` or not read them. -/
def literalSyntax (strict : Bool) : LiteralSyntax Nat where
  quote := '\''
  refuses := refuses strict
  units c := utf16 c.toNat
  escape? := escape?

/-! ### Units -/

/-- A character is not half of a pair. -/
private theorem toNat_lt_or_lt (c : Char) :
    c.toNat < 0xd800 ∨ 0xdfff < c.toNat ∧ c.toNat < 0x110000 :=
  c.valid

/-- A character is read back from its units. -/
private theorem utf16_append_inj {c d : Char} {r s : List Nat}
    (h : utf16 c.toNat ++ r = utf16 d.toNat ++ s) : c = d ∧ r = s := by
  have hc := toNat_lt_or_lt c
  have hd := toNat_lt_or_lt d
  obtain ⟨hnat, hrest⟩ : c.toNat = d.toNat ∧ r = s := by
    unfold utf16 at h
    split at h <;> split at h <;>
      simp only [List.cons_append, List.nil_append, List.cons.injEq] at h
    · exact h
    · -- No unit on its own is the first half of a pair.
      omega
    · omega
    · obtain ⟨hhigh, hlow, hrest⟩ := h
      exact ⟨by omega, hrest⟩
  exact ⟨Char.toNat_inj.mp hnat, hrest⟩

private theorem utf16_ne_nil (n : Nat) : utf16 n ≠ [] := by
  unfold utf16
  split
  · exact List.cons_ne_nil _ _
  · exact List.cons_ne_nil _ _

/-- Texts with the same units are the same, for readers that are `strict` or not. -/
theorem unitsOf_injective (strict : Bool) :
    Function.Injective (literalSyntax strict).unitsOf := by
  suffices hchars : ∀ cs ds : List Char, cs.flatMap (fun c => utf16 c.toNat) =
      ds.flatMap (fun c => utf16 c.toNat) → cs = ds from
    fun a b h => String.toList_inj.mp (hchars _ _ h)
  intro cs
  induction cs with
  | nil =>
    intro ds h
    cases ds with
    | nil => rfl
    | cons d ds =>
      rw [List.flatMap_nil, List.flatMap_cons] at h
      exact absurd (List.append_eq_nil_iff.mp h.symm).1 (utf16_ne_nil _)
  | cons c cs ih =>
    intro ds h
    cases ds with
    | nil =>
      rw [List.flatMap_nil, List.flatMap_cons] at h
      exact absurd (List.append_eq_nil_iff.mp h).1 (utf16_ne_nil _)
    | cons d ds =>
      rw [List.flatMap_cons, List.flatMap_cons] at h
      obtain ⟨rfl, hrest⟩ := utf16_append_inj h
      rw [ih ds hrest]

/-! ### Literals -/

private theorem escapesItself (strict : Bool) : (literalSyntax strict).EscapesItself where
  quote _ := rfl
  backslash _ := rfl
  quote_ne := (by decide : '\'' ≠ '\\')
  accepts_quote := by cases strict <;> decide
  accepts_backslash := by cases strict <;> decide

/-- The literal of `text` is read back as `text`. -/
theorem quotes_stringLiteral (strict : Bool) (text : String) :
    (literalSyntax strict).Quotes (stringLiteral text) text :=
  LiteralSyntax.quotes_escaped (escapesItself strict) String.toList_ofList

example : (literalSyntax true).literal? "'\\u0041\\'b' | c".toList =
    some ([0x41, 0x27, 0x62], " | c".toList) := by
  decide +kernel

/-- The literals that a module has for `text`: the one that it has for a value, and the one that it
has for the name of a property, which is none if it can be written without quotes. -/
def literalsFor (text : String) : List String :=
  stringLiteral text :: if isName text then [] else [propertyName text]

theorem eq_stringLiteral_of_mem_literalsFor {literal text : String}
    (h : literal ∈ literalsFor text) : literal = stringLiteral text := by
  rw [literalsFor, List.mem_cons] at h
  rcases h with rfl | h
  · rfl
  · split at h
    · exact absurd h List.not_mem_nil
    · next hname =>
      rw [List.mem_singleton.mp h, propertyName, if_neg hname]

end KindSchema.TypeScript
