import KindSchema.Json.Reading

/-!
# String literals

How the string literals of a language are read. A literal stands between two quotes and denotes a
sequence of units, which languages count differently. A character stands for itself unless it is
refused, and a backslash opens an escape, the meaning of which is the language's own.

* `LiteralSyntax.literal?`: what a literal at the beginning of a text denotes, and what follows it.
* `LiteralSyntax.quotes_escaped`: a text that is put between quotes, with a backslash before every
  quote and every backslash in it, is read back exactly if none of its characters is refused.
-/

namespace KindSchema

/-- The number in `count` digits to `base` that `cs` starts with. -/
def digits? (base count : Nat) (cs : List Char) : Option Nat :=
  if cs.length < count then none
  else (cs.take count).foldlM (fun n c => do
    let digit ← Json.hexValue? c
    if digit < base then some (base * n + digit) else none) 0

/-- There are no more than `cs.length` digits. -/
theorem le_length_of_digits? {base count n : Nat} {cs : List Char}
    (h : digits? base count cs = some n) : count ≤ cs.length := by
  rw [digits?] at h
  split at h
  · cases h
  · next hlong => exact Nat.le_of_not_lt hlong

/-- The string literals of a language in which a text is a sequence of units of the sort `υ`. -/
structure LiteralSyntax (υ : Type) where
  quote : Char
  /-- Whether a character must not stand in a literal. -/
  refuses : Char → Bool
  /-- The units of a character. -/
  units : Char → List υ
  /-- The units for what stands behind a backslash, and how many characters that takes. -/
  escape? : List Char → Option (List υ × Nat)

/-- How `c` is written between two quotes `quote`. -/
def escaped (quote c : Char) : List Char :=
  if c = '\\' ∨ c = quote then ['\\', c] else [c]

namespace LiteralSyntax

variable {υ : Type}

/-- Reads a literal from behind its opening quote by the syntax `s`: the units that it denotes, and
what follows its closing quote. -/
def body? (s : LiteralSyntax υ) : List Char → Option (List υ × List Char)
  | [] => none
  | c :: cs =>
    if c = s.quote then some ([], cs)
    else if c = '\\' then do
      let (units, length) ← s.escape? cs
      let (more, rest) ← body? s (cs.drop length)
      return (units ++ more, rest)
    else if s.refuses c then none
    else do
      let (more, rest) ← body? s cs
      return (s.units c ++ more, rest)
termination_by cs => cs.length

/-- Reads a literal by the syntax `s`: the units that it denotes, and what follows it. -/
def literal? (s : LiteralSyntax υ) : List Char → Option (List υ × List Char)
  | [] => none
  | c :: cs => if c = s.quote then s.body? cs else none

/-- The units of `text`. -/
def unitsOf (s : LiteralSyntax υ) (text : String) : List υ :=
  text.toList.flatMap s.units

/-- That `literal` is written for `text`: whatever follows, it ends where it ends and denotes the
text. If a character of the text is refused it is no literal at all. -/
def Quotes (s : LiteralSyntax υ) (literal text : String) : Prop :=
  ∀ rest, s.literal? (literal.toList ++ rest) =
    if text.toList.any s.refuses then none else some (s.unitsOf text, rest)

/-- That by the syntax `s` a backslash makes the quote, and another backslash, stand for itself. -/
structure EscapesItself (s : LiteralSyntax υ) : Prop where
  quote : ∀ rest, s.escape? (s.quote :: rest) = some (s.units s.quote, 1)
  backslash : ∀ rest, s.escape? ('\\' :: rest) = some (s.units '\\', 1)
  quote_ne : s.quote ≠ '\\'
  accepts_quote : s.refuses s.quote = false
  accepts_backslash : s.refuses '\\' = false

section Body

variable {s : LiteralSyntax υ} {cs : List Char}

private theorem body?_quote : s.body? (s.quote :: cs) = some ([], cs) := by
  rw [body?, if_pos rfl]

private theorem body?_backslash (h : s.quote ≠ '\\') : s.body? ('\\' :: cs) = do
    let (units, length) ← s.escape? cs
    let (more, rest) ← s.body? (cs.drop length)
    return (units ++ more, rest) := by
  rw [body?, if_neg h.symm, if_pos rfl]

private theorem body?_of_refuses {c : Char} (hquote : c ≠ s.quote) (hbackslash : c ≠ '\\')
    (h : s.refuses c = true) : s.body? (c :: cs) = none := by
  rw [body?, if_neg hquote, if_neg hbackslash, if_pos h]

private theorem body?_cons {c : Char} (hquote : c ≠ s.quote) (hbackslash : c ≠ '\\')
    (h : s.refuses c = false) : s.body? (c :: cs) = do
    let (more, rest) ← s.body? cs
    return (s.units c ++ more, rest) := by
  rw [body?, if_neg hquote, if_neg hbackslash, if_neg (by simp [h])]

end Body

/-- The characters of `body`, which need no escape, are read as they are, up to the closing
quote. -/
theorem body?_of_plain {s : LiteralSyntax υ} {body : List Char}
    (h : ∀ c ∈ body, c ≠ s.quote ∧ c ≠ '\\' ∧ s.refuses c = false) (rest : List Char) :
    s.body? (body ++ s.quote :: rest) = some (body.flatMap s.units, rest) := by
  induction body with
  | nil => exact body?_quote
  | cons c body ih =>
    obtain ⟨⟨hquote, hbackslash, hrefuses⟩, hbody⟩ := List.forall_mem_cons.mp h
    rw [List.cons_append, body?_cons hquote hbackslash hrefuses, ih hbody, List.flatMap_cons]
    rfl

/-- One character that is escaped where it has to be is read back. -/
private theorem body?_escaped {s : LiteralSyntax υ} (hs : s.EscapesItself) (c : Char)
    (cs : List Char) :
    s.body? (escaped s.quote c ++ cs) =
      if s.refuses c then none else do
        let (more, rest) ← s.body? cs
        return (s.units c ++ more, rest) := by
  unfold escaped
  split
  · next hspecial =>
    -- Escapes are read alike for both characters, and neither is refused.
    have hescape : s.escape? (c :: cs) = some (s.units c, 1) := by
      rcases hspecial with rfl | rfl
      · exact hs.backslash cs
      · exact hs.quote cs
    have haccepts : s.refuses c = false := by
      rcases hspecial with rfl | rfl
      · exact hs.accepts_backslash
      · exact hs.accepts_quote
    rw [List.cons_append, body?_backslash hs.quote_ne, List.cons_append, List.nil_append, hescape,
      if_neg (by simp [haccepts])]
    rfl
  · next hplain =>
    obtain ⟨hbackslash, hquote⟩ := not_or.mp hplain
    rw [List.cons_append, List.nil_append]
    split
    · next hrefuses => exact body?_of_refuses hquote hbackslash hrefuses
    · next haccepts => exact body?_cons hquote hbackslash (by simpa using haccepts)

/-- A text that is escaped character by character is read back up to the closing quote, unless one
of its characters is refused. -/
private theorem body?_flatMap_escaped {s : LiteralSyntax υ} (hs : s.EscapesItself)
    (cs rest : List Char) :
    s.body? (cs.flatMap (escaped s.quote) ++ s.quote :: rest) =
      if cs.any s.refuses then none else some (cs.flatMap s.units, rest) := by
  induction cs with
  | nil => exact body?_quote
  | cons c cs ih =>
    rw [List.flatMap_cons, List.append_assoc, body?_escaped hs, ih, List.any_cons,
      List.flatMap_cons]
    by_cases hc : s.refuses c = true
    · simp [hc]
    · by_cases hcs : cs.any s.refuses = true
      · simp [hc, hcs]
      · simp [hc, hcs]

/-- The literal `literal` is written for `text` by escaping the quotes and backslashes of `text`. -/
theorem quotes_escaped {s : LiteralSyntax υ} (hs : s.EscapesItself) {literal text : String}
    (h : literal.toList = s.quote :: (text.toList.flatMap (escaped s.quote) ++ [s.quote])) :
    s.Quotes literal text := by
  intro rest
  rw [h, List.cons_append, List.append_assoc, literal?, if_pos rfl]
  exact body?_flatMap_escaped hs text.toList rest

end LiteralSyntax

end KindSchema
