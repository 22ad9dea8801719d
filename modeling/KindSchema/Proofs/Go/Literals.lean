import Mathlib.Data.String.Basic
import KindSchema.Go.Printing
import KindSchema.Proofs.Json.Pointer
import KindSchema.Proofs.Text.Literals

/-!
# String literals in Go

A string literal in double quotes denotes a sequence of bytes, a text its bytes in UTF-8. A raw
string stands between backquotes; nothing in it is escaped, and carriage returns in it are left out.

* `unitsOf_injective`: different texts have different bytes.
* `quotes_stringLiteral`: the literal that is written for a text is read back as the text unless
  the text has a character that must not stand in a literal.
* `length_of_body?`: a literal has no more bytes than its source, and fewer if anything in it is
  escaped.
-/

namespace KindSchema.Go

/-- The escapes of one character, with the bytes that they stand for. -/
def singleEscapes : List (Char × UInt8) :=
  [('a', 0x07), ('b', 0x08), ('f', 0x0c), ('n', 0x0a), ('r', 0x0d), ('t', 0x09), ('v', 0x0b),
    ('\\', 0x5c), ('"', 0x22)]

/-- The bytes of the code point `n`, if it is one of a character. -/
def codePointBytes? (n : Nat) : Option (List UInt8) :=
  if n.isValidChar then some (String.utf8EncodeChar (Char.ofNat n)) else none

/-- The byte of `n`, if it is one. -/
def byte? (n : Nat) : Option (List UInt8) :=
  if n < 0x100 then some [UInt8.ofNat n] else none

/-- An escape that writes a number in `count` digits to `base`, behind `skipped` characters of its
own; `bytes?` gives the bytes of the number. -/
def numberEscape? (bytes? : Nat → Option (List UInt8)) (base skipped count : Nat)
    (cs : List Char) : Option (List UInt8 × Nat) := do
  let n ← digits? base count (cs.drop skipped)
  return (← bytes? n, skipped + count)

/-- What stands behind a backslash: two hexadecimal or three octal digits for a byte, four or eight
hexadecimal digits for a character, or a single character. -/
def escape? : List Char → Option (List UInt8 × Nat)
  | [] => none
  | c :: cs =>
    if c = 'x' then numberEscape? byte? 16 1 2 (c :: cs)
    else if c = 'u' then numberEscape? codePointBytes? 16 1 4 (c :: cs)
    else if c = 'U' then numberEscape? codePointBytes? 16 1 8 (c :: cs)
    else if c.isDigit then numberEscape? byte? 8 0 3 (c :: cs)
    else (singleEscapes.lookup c).map fun byte => ([byte], 1)

/-- Whether `c` must not stand in a Go file, to a compiler that is `strict`: there are two
characters that compilers may refuse. -/
def refusedInSource (strict : Bool) (c : Char) : Bool :=
  strict && (c == '\x00' || c == '\ufeff')

/-- Literals in double quotes. They end on the line on which they begin. -/
def literalSyntax (strict : Bool) : LiteralSyntax UInt8 where
  quote := '"'
  refuses c := c == '\n' || refusedInSource strict c
  units := String.utf8EncodeChar
  escape? := escape?

/-- Reads a raw string: its characters, and what follows it. -/
def rawString? (strict : Bool) : List Char → Option (List Char × List Char)
  | [] => none
  | c :: cs =>
    if c = '\x60' then
      match cs.dropWhile (· ≠ '\x60') with
      | [] => none
      | _ :: rest =>
        let content := cs.takeWhile (· ≠ '\x60')
        if content.any (refusedInSource strict) then none
        else some (content.filter (· ≠ '\r'), rest)
    else none

/-! ### Literals -/

private theorem unitsOf_eq (strict : Bool) (text : String) :
    (literalSyntax strict).unitsOf text = text.toList.flatMap String.utf8EncodeChar :=
  rfl

/-- The bytes of a text are those of its encoding. -/
private theorem toByteArray_unitsOf (strict : Bool) (text : String) :
    ((literalSyntax strict).unitsOf text).toByteArray = text.toByteArray := by
  have hencode : text.toList.utf8Encode = text.toByteArray := by
    rw [← String.toByteArray_ofList, String.ofList_toList]
  exact hencode

/-- Texts with the same bytes are the same. -/
theorem unitsOf_injective (strict : Bool) : Function.Injective (literalSyntax strict).unitsOf := by
  intro a b h
  rw [← String.toByteArray_inj, ← toByteArray_unitsOf strict, h, toByteArray_unitsOf]

/-- So it is for characters, too. -/
theorem eq_of_flatMap_units_eq {strict : Bool} {cs ds : List Char}
    (h : cs.flatMap (literalSyntax strict).units = ds.flatMap (literalSyntax strict).units) :
    cs = ds := by
  refine String.ofList_injective (unitsOf_injective strict ?_)
  rw [unitsOf_eq, unitsOf_eq, String.toList_ofList, String.toList_ofList]
  exact h

private theorem escapesItself (strict : Bool) : (literalSyntax strict).EscapesItself where
  quote _ := rfl
  backslash _ := rfl
  quote_ne := (by decide : '"' ≠ '\\')
  accepts_quote := by cases strict <;> decide
  accepts_backslash := by cases strict <;> decide

/-- The literal of `text` is read back as `text`. -/
theorem quotes_stringLiteral (strict : Bool) (text : String) :
    (literalSyntax strict).Quotes (stringLiteral text) text :=
  LiteralSyntax.quotes_escaped (escapesItself strict) String.toList_ofList

/-! ### Lengths -/

private theorem length_of_codePointBytes? {n : Nat} {units : List UInt8}
    (h : codePointBytes? n = some units) : units.length ≤ 4 := by
  rw [codePointBytes?] at h
  split at h
  · rw [← Option.some.inj h, String.length_utf8EncodeChar]
    exact Char.utf8Size_le_four _
  · cases h

private theorem length_of_byte? {n : Nat} {units : List UInt8} (h : byte? n = some units) :
    units.length = 1 := by
  rw [byte?] at h
  split at h
  · rw [← Option.some.inj h, List.length_singleton]
  · cases h

private theorem length_of_numberEscape? {bytes? : Nat → Option (List UInt8)}
    {base skipped count : Nat} {cs : List Char} {units : List UInt8} {length : Nat}
    (hcount : 0 < count)
    (hbytes : ∀ {n bytes}, bytes? n = some bytes → bytes.length ≤ skipped + count)
    (h : numberEscape? bytes? base skipped count cs = some (units, length)) :
    units.length ≤ length ∧ length ≤ cs.length := by
  obtain ⟨n, hn, h⟩ := Option.bind_eq_some_iff.mp h
  obtain ⟨bytes, hunits, h⟩ := Option.bind_eq_some_iff.mp h
  cases h
  have hlong := le_length_of_digits? hn
  rw [List.length_drop] at hlong
  exact ⟨hbytes hunits, by omega⟩

/-- What stands behind a backslash has as many characters as bytes, or more. -/
private theorem length_of_escape? {cs : List Char} {units : List UInt8} {length : Nat}
    (h : escape? cs = some (units, length)) : units.length ≤ length ∧ length ≤ cs.length := by
  have hbyte {n bytes} (h : byte? n = some bytes) (bound : Nat) (hbound : 1 ≤ bound) :
      bytes.length ≤ bound := (length_of_byte? h).trans_le hbound
  have hcodePoint {n bytes} (h : codePointBytes? n = some bytes) (bound : Nat)
      (hbound : 4 ≤ bound) : bytes.length ≤ bound := (length_of_codePointBytes? h).trans hbound
  cases cs with
  | nil => cases h
  | cons c cs =>
    rw [escape?] at h
    -- No escape denotes more bytes than it has characters.
    split_ifs at h
    · exact length_of_numberEscape? (by decide) (fun h => hbyte h _ (by decide)) h
    · exact length_of_numberEscape? (by decide) (fun h => hcodePoint h _ (by decide)) h
    · exact length_of_numberEscape? (by decide) (fun h => hcodePoint h _ (by decide)) h
    · exact length_of_numberEscape? (by decide) (fun h => hbyte h _ (by decide)) h
    · obtain ⟨byte, -, h⟩ := Option.map_eq_some_iff.mp h
      cases h
      exact ⟨Nat.le_refl 1, by rw [List.length_cons]; omega⟩

/-- That `cs` starts with the characters `body` that a literal denotes, as they are, and its closing
quote, before `rest`; their units are `units`. -/
structure StandsPlain (s : LiteralSyntax UInt8) (cs : List Char) (units : List UInt8)
    (rest : List Char) (body : List Char) : Prop where
  source : cs = body ++ s.quote :: rest
  units : units = body.flatMap s.units
  plain : ∀ c ∈ body, c ≠ s.quote ∧ c ≠ '\\' ∧ s.refuses c = false

theorem length_le_utf8Len (cs : List Char) : cs.length ≤ String.utf8Len cs := by
  induction cs with
  | nil => exact Nat.le_refl 0
  | cons c cs ih =>
    rw [List.length_cons, String.utf8Len_cons]
    exact Nat.add_le_add ih c.utf8Size_pos

/-- What so many characters are dropped from is at least so many bytes longer. -/
private theorem add_utf8Len_drop_le {cs : List Char} {n : Nat} (h : n ≤ cs.length) :
    n + String.utf8Len (cs.drop n) ≤ String.utf8Len cs :=
  calc n + String.utf8Len (cs.drop n)
    _ = (cs.take n).length + String.utf8Len (cs.drop n) := by rw [List.length_take_of_le h]
    _ ≤ String.utf8Len (cs.take n) + String.utf8Len (cs.drop n) :=
      Nat.add_le_add_right (length_le_utf8Len _) _
    _ = String.utf8Len cs := by rw [← String.utf8Len_append, List.take_append_drop]

section Body

variable {strict : Bool} {cs rest : List Char} {units : List UInt8}

theorem length_flatMap_units (strict : Bool) (cs : List Char) :
    (cs.flatMap (literalSyntax strict).units).length = String.utf8Len cs := by
  induction cs with
  | nil => rfl
  | cons c cs ih =>
    rw [List.flatMap_cons, List.length_append, ih, String.utf8Len_cons, Nat.add_comm]
    exact congrArg _ (String.length_utf8EncodeChar c)

/-- A literal of characters that stand for themselves has a byte more than it denotes, for the
quote. -/
private theorem StandsPlain.length_eq {body : List Char}
    (h : StandsPlain (literalSyntax strict) cs units rest body) :
    units.length + String.utf8Len rest + 1 = String.utf8Len cs := by
  have hquote : (literalSyntax strict).quote.utf8Size = 1 := rfl
  rw [h.source, h.units, length_flatMap_units, String.utf8Len_append, String.utf8Len_cons, hquote,
    Nat.add_assoc]

/-- The literal at the head of `cs` has fewer bytes than its source, unless every character in it
stands for itself. -/
theorem length_of_body? (h : (literalSyntax strict).body? cs = some (units, rest)) :
    units.length + String.utf8Len rest + 1 < String.utf8Len cs ∨
      ∃ body, StandsPlain (literalSyntax strict) cs units rest body := by
  fun_induction LiteralSyntax.body? (literalSyntax strict) cs generalizing units rest with
  | case1 => cases h
  | case2 cs =>
    cases h
    exact .inr ⟨[], rfl, rfl, fun c hc => absurd hc List.not_mem_nil⟩
  | case3 cs hquote ih =>
    obtain ⟨⟨bytes, length⟩, hescape, h⟩ := Option.bind_eq_some_iff.mp h
    obtain ⟨⟨more, rest⟩, hmore, h⟩ := Option.bind_eq_some_iff.mp h
    cases h
    obtain ⟨hbytes, hlength⟩ := length_of_escape? hescape
    have hle : more.length + String.utf8Len rest + 1 ≤ String.utf8Len (cs.drop length) := by
      rcases ih length hmore with hlt | ⟨body, hbody⟩
      · exact hlt.le
      · exact hbody.length_eq.le
    -- An escape has a backslash more than it has bytes.
    have hdrop := add_utf8Len_drop_le hlength
    have hbackslash : '\\'.utf8Size = 1 := rfl
    rw [List.length_append, String.utf8Len_cons]
    exact .inl (by omega)
  | case4 => cases h
  | case5 c cs hquote hbackslash hrefuses ih =>
    obtain ⟨⟨more, rest⟩, hmore, h⟩ := Option.bind_eq_some_iff.mp h
    cases h
    rcases ih hmore with hlt | ⟨body, hsource, hunits, hplain⟩
    · have hsize : ((literalSyntax strict).units c).length = c.utf8Size :=
        String.length_utf8EncodeChar c
      rw [List.length_append, String.utf8Len_cons, hsize]
      exact .inl (by omega)
    · refine .inr ⟨c :: body, ?_, ?_, List.forall_mem_cons.mpr ⟨⟨hquote, hbackslash, ?_⟩, hplain⟩⟩
      · rw [hsource, List.cons_append]
      · rw [hunits, List.flatMap_cons]
      · simpa using hrefuses

end Body

end KindSchema.Go
