import KindSchema.Proofs.Json.Spelling

/-!
# Where words, numerals and strings end

A word, a numeral or a string that has been read is a lexeme: what stands behind it, if it is a
delimiter, does not matter. A string may look ahead for the other half of a surrogate pair, but
never beyond its own end.

`isLocal_readScalar` says so for all scalars, from one lemma for each function that reads a part of
them.
-/

namespace KindSchema.Json

/-- That what `read` takes off a text does not depend on what stands behind it, as long as that is a
delimiter. -/
def IsLocal (read : List Char → Reading × Rest) : Prop :=
  ∀ ⦃cs r rest⦄, read cs = (r, some rest) →
    ∃ lex, cs = lex ++ rest ∧ ∀ rest', Delimited rest' → read (lex ++ rest') = (r, some rest')

/-- A reader that leaves all but a fixed beginning to a local one is local on such texts. -/
private theorem IsLocal.behind {read read' : List Char → Reading × Rest} (h : IsLocal read)
    (before : List Char) (heq : ∀ cs, read' (before ++ cs) = read cs) {cs rest : List Char}
    {r : Reading} (hread : read' (before ++ cs) = (r, some rest)) :
    ∃ lex, before ++ cs = lex ++ rest ∧
      ∀ rest', Delimited rest' → read' (lex ++ rest') = (r, some rest') := by
  rw [heq] at hread
  obtain ⟨lex, rfl, hlex⟩ := h hread
  refine ⟨before ++ lex, (List.append_assoc _ _ _).symm, fun rest' hrest' => ?_⟩
  rw [List.append_assoc, heq]
  exact hlex rest' hrest'

/-! ### Words -/

private theorem isLocal_readWord (value : Reading) (word : List Char) :
    IsLocal (readWord value word) := by
  induction word with
  | nil =>
    intro cs r rest h
    cases h
    exact ⟨[], rfl, fun _ _ => rfl⟩
  | cons w word ih =>
    intro cs r rest h
    cases cs with
    | nil => cases h
    | cons c cs =>
      rw [readWord] at h
      split at h
      · next heq =>
        obtain ⟨lex, rfl, hlex⟩ := ih h
        refine ⟨c :: lex, rfl, fun rest' hrest' => ?_⟩
        rw [List.cons_append, readWord, if_pos heq]
        exact hlex rest' hrest'
      · cases h

/-! ### Numerals -/

/-- That `cs` is at its end or goes on with something else than a digit. -/
def NoDigit (cs : List Char) : Prop :=
  ∀ c ∈ cs.head?, c.isDigit = false

/-- Nothing that continues a numeral is a delimiter. -/
private theorem not_numeral_of_isDelimiter {c : Char} (h : isDelimiter c = true) :
    c.isDigit = false ∧ c ≠ '.' ∧ c ≠ 'e' ∧ c ≠ 'E' := by
  simp only [isDelimiter, isSpace, Bool.or_eq_true, beq_iff_eq, or_assoc] at h
  rcases h with rfl | rfl | rfl | rfl | rfl | rfl | rfl | rfl <;> decide

private theorem Delimited.noDigit {cs : List Char} (h : Delimited cs) : NoDigit cs :=
  fun c hc => (not_numeral_of_isDelimiter (h c hc)).1

private theorem noDigit_dropWhile (cs : List Char) : NoDigit (cs.dropWhile Char.isDigit) := by
  intro c hc
  have hhead := List.head?_dropWhile_not Char.isDigit cs
  rw [Option.mem_def.mp hc] at hhead
  simpa using hhead

/-- A delimiter may stand in the place of the rest of a text that goes on without a digit. -/
private theorem NoDigit.append {lex rest rest' : List Char} (h : NoDigit (lex ++ rest))
    (hrest' : Delimited rest') : NoDigit (lex ++ rest') := by
  cases lex with
  | nil => exact hrest'.noDigit
  | cons c lex => exact h

private theorem takeWhile_digits {digits rest : List Char} (h : ∀ c ∈ digits, c.isDigit = true)
    (hrest : NoDigit rest) : (digits ++ rest).takeWhile Char.isDigit = digits := by
  rw [List.takeWhile_append_of_pos h]
  cases rest with
  | nil => exact List.append_nil _
  | cons c rest =>
    rw [List.takeWhile_cons_of_neg (by simp [hrest c rfl]), List.append_nil]

private theorem dropWhile_digits {digits rest : List Char} (h : ∀ c ∈ digits, c.isDigit = true)
    (hrest : NoDigit rest) : (digits ++ rest).dropWhile Char.isDigit = rest := by
  rw [List.dropWhile_append_of_pos h]
  cases rest with
  | nil => rfl
  | cons c rest => rw [List.dropWhile_cons_of_neg (by simp [hrest c rfl])]

/-- A text is its digits and what follows them. -/
private theorem exists_digits_append (cs : List Char) : ∃ digits rest, cs = digits ++ rest ∧
    (∀ c ∈ digits, c.isDigit = true) ∧ NoDigit rest :=
  ⟨cs.takeWhile Char.isDigit, cs.dropWhile Char.isDigit, List.takeWhile_append_dropWhile.symm,
    List.all_eq_true.mp List.all_takeWhile, noDigit_dropWhile cs⟩

/-- The rest of an exponent of `numeral` after its sign. -/
def readExponentDigits (numeral : Numeral) (negativeExponent : Bool) (cs : List Char) :
    Reading × Rest :=
  let digits := cs.takeWhile Char.isDigit
  if digits = [] then lackingDigit cs
  else (.number { numeral with exponent := some (negativeExponent, digits) },
    some (cs.dropWhile Char.isDigit))

private theorem isLocal_readExponentDigits (numeral : Numeral) (negativeExponent : Bool) :
    IsLocal (readExponentDigits numeral negativeExponent) := by
  intro cs r rest h
  obtain ⟨digits, after, rfl, hdigits, hafter⟩ := exists_digits_append cs
  unfold readExponentDigits at h
  dsimp only at h
  rw [takeWhile_digits hdigits hafter, dropWhile_digits hdigits hafter] at h
  split at h
  · cases h
  · next hne =>
    cases h
    refine ⟨digits, rfl, fun rest' hrest' => ?_⟩
    unfold readExponentDigits
    dsimp only
    rw [takeWhile_digits hdigits hrest'.noDigit, dropWhile_digits hdigits hrest'.noDigit,
      if_neg hne]

/-- The digits of an exponent begin with a digit. -/
private theorem exists_of_readExponentDigits {numeral : Numeral} {negativeExponent : Bool}
    {cs rest : List Char} {r : Reading}
    (h : readExponentDigits numeral negativeExponent cs = (r, some rest)) :
    ∃ d cs', cs = d :: cs' ∧ d.isDigit = true := by
  cases cs with
  | nil => cases h
  | cons d cs =>
    cases hd : d.isDigit with
    | true => exact ⟨d, cs, rfl, hd⟩
    | false =>
      unfold readExponentDigits at h
      dsimp only at h
      rw [List.takeWhile_cons_of_neg (by simp [hd]), if_pos rfl] at h
      cases h

section Exponent

variable {numeral : Numeral} {e : Char} (he : e = 'e' ∨ e = 'E')

include he

private theorem readExponent_plus (cs : List Char) :
    readExponent numeral ([e, '+'] ++ cs) = readExponentDigits numeral false cs :=
  if_pos he

private theorem readExponent_minus (cs : List Char) :
    readExponent numeral ([e, '-'] ++ cs) = readExponentDigits numeral true cs :=
  if_pos he

private theorem readExponent_unsigned {cs : List Char} (h : ∀ c ∈ cs.head?, c ≠ '+' ∧ c ≠ '-') :
    readExponent numeral (e :: cs) = readExponentDigits numeral false cs := by
  refine (if_pos he).trans ?_
  cases cs with
  | nil => rfl
  | cons d cs =>
    obtain ⟨hplus, hminus⟩ := h d rfl
    split
    · next heq => exact absurd (List.cons.inj heq).1 hplus
    · next heq => exact absurd (List.cons.inj heq).1 hminus
    · rfl

end Exponent

/-- Without an `e` a numeral ends. -/
private theorem readExponent_none {numeral : Numeral} {cs : List Char}
    (h : ∀ c ∈ cs.head?, c ≠ 'e' ∧ c ≠ 'E') :
    readExponent numeral cs = (.number numeral, some cs) := by
  unfold readExponent
  cases cs with
  | nil => rfl
  | cons c cs => exact if_neg (not_or.mpr (h c rfl))

/-- A digit is no sign. -/
private theorem not_sign_of_isDigit {c : Char} (h : c.isDigit = true) : c ≠ '+' ∧ c ≠ '-' := by
  constructor <;> (rintro rfl; cases h)

private theorem isLocal_readExponent (numeral : Numeral) : IsLocal (readExponent numeral) := by
  intro cs r rest h
  -- Without an exponent nothing is read, and a delimiter does not start one.
  by_cases hnone : ∀ c ∈ cs.head?, c ≠ 'e' ∧ c ≠ 'E'
  · rw [readExponent_none hnone] at h
    cases h
    refine ⟨[], rfl, fun rest' hrest' => readExponent_none fun c hc => ?_⟩
    exact (not_numeral_of_isDelimiter (hrest' c hc)).2.2
  cases cs with
  | nil => exact absurd (fun _ hc => nomatch hc) hnone
  | cons e cs =>
    have he : e = 'e' ∨ e = 'E' := Decidable.not_not.mp fun hne =>
      hnone fun c hc => Option.some.inj hc ▸ not_or.mp hne
    by_cases hsign : ∀ c ∈ cs.head?, c ≠ '+' ∧ c ≠ '-'
    · rw [readExponent_unsigned he hsign] at h
      obtain ⟨lex, rfl, hlex⟩ := isLocal_readExponentDigits numeral false h
      refine ⟨e :: lex, rfl, fun rest' hrest' => ?_⟩
      -- That the exponent has no sign depends on its first digit, so that digit has to be known.
      obtain ⟨d, cs', hcs', hd⟩ := exists_of_readExponentDigits (hlex rest' hrest')
      rw [List.cons_append, readExponent_unsigned he]
      · exact hlex rest' hrest'
      · rw [hcs']
        exact fun c hc => Option.some.inj hc ▸ not_sign_of_isDigit hd
    · cases cs with
      | nil => exact absurd (fun _ hc => nomatch hc) hsign
      | cons d cs =>
        have hd : d = '+' ∨ d = '-' := Decidable.not_not.mp fun hne =>
          hsign fun c hc => Option.some.inj hc ▸ not_or.mp hne
        rcases hd with rfl | rfl
        · exact (isLocal_readExponentDigits numeral false).behind [e, '+'] (readExponent_plus he) h
        · exact (isLocal_readExponentDigits numeral true).behind [e, '-'] (readExponent_minus he) h

/-- Without a point a numeral has no fraction. -/
private theorem readFraction_none {numeral : Numeral} {cs : List Char}
    (h : ∀ c ∈ cs.head?, c ≠ '.') :
    readFraction numeral cs = readExponent numeral cs := by
  unfold readFraction
  split
  · exact absurd rfl (h '.' rfl)
  · rfl

private theorem isLocal_readFraction (numeral : Numeral) : IsLocal (readFraction numeral) := by
  intro cs r rest h
  by_cases hnone : ∀ c ∈ cs.head?, c ≠ '.'
  · rw [readFraction_none hnone] at h
    obtain ⟨lex, rfl, hlex⟩ := isLocal_readExponent numeral h
    refine ⟨lex, rfl, fun rest' hrest' => ?_⟩
    rw [readFraction_none]
    · exact hlex rest' hrest'
    · cases lex with
      | nil => exact fun c hc => (not_numeral_of_isDelimiter (hrest' c hc)).2.1
      | cons c lex => exact hnone
  cases cs with
  | nil => exact absurd (fun _ hc => nomatch hc) hnone
  | cons c cs =>
    obtain rfl : c = '.' := Decidable.not_not.mp fun hne =>
      hnone fun d hd => Option.some.inj hd ▸ hne
    obtain ⟨digits, after, rfl, hdigits, hafter⟩ := exists_digits_append cs
    have hread (after : List Char) (hafter : NoDigit after) :
        readFraction numeral ('.' :: (digits ++ after)) =
          if digits = [] then lackingDigit (digits ++ after)
          else readExponent { numeral with fraction := some digits } after := by
      rw [readFraction, takeWhile_digits hdigits hafter, dropWhile_digits hdigits hafter]
    rw [hread after hafter] at h
    split at h
    · cases h
    · next hne =>
      obtain ⟨lex, rfl, hlex⟩ := isLocal_readExponent _ h
      refine ⟨'.' :: (digits ++ lex), ?_, fun rest' hrest' => ?_⟩
      · rw [List.cons_append, List.append_assoc]
      · rw [List.cons_append, List.append_assoc, hread _ (hafter.append hrest'), if_neg hne]
        exact hlex rest' hrest'

/-- A numeral that does not begin with a zero is its digits and what follows them. -/
private theorem readNumeral_digits {negative : Bool} {digits after : List Char}
    (hdigits : ∀ c ∈ digits, c.isDigit = true) (hafter : NoDigit after)
    (hzero : ∀ c ∈ (digits ++ after).head?, c ≠ '0') :
    readNumeral negative (digits ++ after) =
      if digits = [] then lackingDigit (digits ++ after)
      else readFraction { negative, whole := digits } after := by
  unfold readNumeral
  split
  · next heq =>
    rw [heq] at hzero
    exact absurd rfl (hzero '0' rfl)
  · dsimp only
    rw [takeWhile_digits hdigits hafter, dropWhile_digits hdigits hafter]

/-- A zero at the head of a numeral stands alone. -/
private theorem readNumeral_zero {negative : Bool} {after : List Char} (hafter : NoDigit after) :
    readNumeral negative ('0' :: after) = readFraction { negative, whole := ['0'] } after := by
  rw [readNumeral, if_neg]
  cases after with
  | nil => exact Bool.false_ne_true
  | cons d after => simp [hafter d rfl]

private theorem isLocal_readNumeral (negative : Bool) : IsLocal (readNumeral negative) := by
  intro cs r rest h
  -- A number is a zero or starts with another digit; no digit may follow the zero.
  by_cases hzero : ∀ c ∈ cs.head?, c ≠ '0'
  · obtain ⟨digits, after, rfl, hdigits, hafter⟩ := exists_digits_append cs
    rw [readNumeral_digits hdigits hafter hzero] at h
    split at h
    · cases h
    · next hne =>
      obtain ⟨lex, rfl, hlex⟩ := isLocal_readFraction _ h
      refine ⟨digits ++ lex, (List.append_assoc _ _ _).symm, fun rest' hrest' => ?_⟩
      rw [List.append_assoc, readNumeral_digits hdigits (hafter.append hrest'), if_neg hne]
      · exact hlex rest' hrest'
      · obtain ⟨d, digits, rfl⟩ := List.exists_cons_of_ne_nil hne
        exact hzero
  cases cs with
  | nil => exact absurd (fun _ hc => nomatch hc) hzero
  | cons c cs =>
    obtain rfl : c = '0' := Decidable.not_not.mp fun hne =>
      hzero fun d hd => Option.some.inj hd ▸ hne
    have hafter : NoDigit cs := by
      intro d hd
      rw [readNumeral, Option.mem_def.mp hd] at h
      cases hdigit : d.isDigit with
      | false => rfl
      | true =>
        rw [Option.any_some, if_pos hdigit] at h
        cases h
    rw [readNumeral_zero hafter] at h
    obtain ⟨lex, rfl, hlex⟩ := isLocal_readFraction _ h
    refine ⟨'0' :: lex, rfl, fun rest' hrest' => ?_⟩
    rw [List.cons_append, readNumeral_zero (hafter.append hrest')]
    exact hlex rest' hrest'

/-! ### Strings -/

/-- That `digits` are read as the hexadecimal number `n`, whatever stands behind them. -/
def IsHex (digits : List Char) (n : Nat) : Prop :=
  ∀ rest, readHex (digits ++ rest) = .ok (n, rest)

private theorem exists_of_readHex {cs rest : List Char} {n : Nat} (h : readHex cs = .ok (n, rest)) :
    ∃ digits, cs = digits ++ rest ∧ IsHex digits n := by
  unfold readHex at h
  dsimp only at h
  split at h
  · next a b c d after =>
    split at h
    · next a' b' c' d' ha hb hc hd =>
      cases h
      refine ⟨[a, b, c, d], rfl, fun rest' => ?_⟩
      simp only [readHex, List.cons_append, List.nil_append, ha, hb, hc, hd]
    · cases h
  · cases h

/-- The pieces of a string, by how they are written. -/
inductive IsPiece : List Char → Prop
  | plain (c : Char) (h : c ≠ '\\') : IsPiece [c]
  | short (c : Char) (h : c ≠ 'u') : IsPiece ['\\', c]
  /-- An escape by digits, with the other half of a surrogate pair if there is one. -/
  | hex {digits n other} (h : IsHex digits n) : IsPiece ('\\' :: 'u' :: (digits ++ other))

private theorem IsPiece.digits {digits : List Char} {n : Nat} (h : IsHex digits n) :
    IsPiece ('\\' :: 'u' :: digits) := by
  have hpiece := @IsPiece.hex digits n [] h
  rwa [List.append_nil] at hpiece

/-- That what the first half of a surrogate pair finds behind it is settled by `cs`, whatever
follows. -/
def Settled (cs : List Char) : Prop :=
  ∀ ⦃high : Nat⦄ ⦃flaw : Flaw⦄ ⦃rest : List Char⦄,
    readLowSurrogate high (cs ++ rest) = .unpaired flaw (cs ++ rest) →
      ∀ rest', readLowSurrogate high (cs ++ rest') = .unpaired flaw (cs ++ rest')

/-- An escape by digits is the other half if its number says so. -/
private theorem readLowSurrogate_hex {digits : List Char} {n : Nat} (h : IsHex digits n)
    (high : Nat) (rest : List Char) : readLowSurrogate high ('\\' :: 'u' :: (digits ++ rest)) =
      if isLowSurrogate n then
        .char (Char.ofNat (0x10000 + (high - 0xd800) * 0x400 + (n - 0xdc00))) rest
      else .unpaired .malformed ('\\' :: 'u' :: (digits ++ rest)) := by
  simp only [readLowSurrogate, h rest]

/-- What does not begin as an escape by digits is no other half. -/
private theorem readLowSurrogate_other {cs : List Char} (hne : cs ≠ []) (hend : cs ≠ ['\\'])
    (hescape : ∀ rest, cs ≠ '\\' :: 'u' :: rest) (high : Nat) :
    readLowSurrogate high cs = .unpaired .malformed cs := by
  unfold readLowSurrogate
  split
  · exact absurd rfl hne
  · exact absurd rfl hend
  · exact absurd rfl (hescape _)
  · rfl

/-- A piece is enough to settle whether it is the other half of a surrogate pair. -/
private theorem IsPiece.settled {piece : List Char} (h : IsPiece piece) (cs : List Char) :
    Settled (piece ++ cs) := by
  intro high flaw rest hread rest'
  cases h with
  | plain c h =>
    have hother (after : List Char) : readLowSurrogate high (c :: after) =
        .unpaired .malformed (c :: after) :=
      readLowSurrogate_other (List.cons_ne_nil _ _) (fun heq => h (List.cons.inj heq).1)
        (fun _ heq => h (List.cons.inj heq).1) high
    cases (hother _).symm.trans hread
    exact hother _
  | short c h =>
    have hother (after : List Char) : readLowSurrogate high ('\\' :: c :: after) =
        .unpaired .malformed ('\\' :: c :: after) :=
      readLowSurrogate_other (List.cons_ne_nil '\\' (c :: after))
        (fun heq => nomatch (List.cons.inj heq).2)
        (fun _ heq => h (List.cons.inj (List.cons.inj heq).2).1) high
    cases (hother _).symm.trans hread
    exact hother _
  | hex h =>
    simp only [List.cons_append, List.append_assoc] at hread ⊢
    rw [readLowSurrogate_hex h] at hread ⊢
    split at hread
    · cases hread
    · next hlow =>
      cases hread
      rw [if_neg hlow]

/-- A surrogate without its other half takes nothing of the text. -/
private theorem eq_of_readLowSurrogate {high : Nat} {flaw : Flaw} {cs rest : List Char}
    (h : readLowSurrogate high cs = .unpaired flaw rest) : rest = cs := by
  unfold readLowSurrogate at h
  split at h
  · cases h; rfl
  · cases h; rfl
  · split at h
    · cases h; rfl
    · split at h
      · cases h
      · cases h; rfl
  · cases h; rfl

/-- The other half of a surrogate pair is read whatever stands behind it. -/
private theorem exists_of_readLowSurrogate {high : Nat} {c : Char} {cs rest : List Char}
    (h : readLowSurrogate high cs = .char c rest) :
    ∃ digits, cs = '\\' :: 'u' :: (digits ++ rest) ∧
      ∀ rest', readLowSurrogate high ('\\' :: 'u' :: (digits ++ rest')) = .char c rest' := by
  unfold readLowSurrogate at h
  split at h
  · cases h
  · cases h
  -- Only this case reads a character: an escape with the other half of the pair.
  · next after =>
    split at h
    · cases h
    · next low after' hhex =>
      obtain ⟨digits, rfl, hdigits⟩ := exists_of_readHex hhex
      split at h
      · next hlow =>
        obtain ⟨rfl, rfl⟩ := Piece.char.inj h
        refine ⟨digits, rfl, fun rest' => ?_⟩
        rw [readLowSurrogate_hex hdigits]
        exact if_pos hlow
      · cases h
  · cases h

/-- What `c` behind a backslash stands for, unless digits follow it. -/
def shortEscape? (c : Char) : Option Char :=
  if c = 'b' then some '\x08'
  else if c = 'f' then some '\x0c'
  else if c = 'n' then some '\n'
  else if c = 'r' then some '\r'
  else if c = 't' then some '\t'
  else if c = '"' ∨ c = '\\' ∨ c = '/' then some c
  else none

private theorem readPiece_short {c : Char} (h : c ≠ 'u') (rest : List Char) :
    readPiece ('\\' :: c :: rest) =
      (shortEscape? c).elim (.stop .malformed) fun d => .char d rest := by
  rw [readPiece]
  unfold readEscape shortEscape?
  split
  · next heq => cases heq
  · next heq => exact absurd (List.cons.inj heq).1 h
  · next heq => cases heq; rfl
  · next heq => cases heq; rfl
  · next heq => cases heq; rfl
  · next heq => cases heq; rfl
  · next heq => cases heq; rfl
  · next hb hf hn hr ht heq =>
    obtain ⟨rfl, rfl⟩ := List.cons.inj heq
    rw [if_neg hb, if_neg hf, if_neg hn, if_neg hr, if_neg ht]
    split <;> rfl

/-- An escape by digits is a surrogate or stands for a character. -/
private theorem readPiece_hex {digits : List Char} {n : Nat} (h : IsHex digits n)
    (rest : List Char) :
    readPiece ('\\' :: 'u' :: (digits ++ rest)) =
      if isLowSurrogate n then .unpaired .malformed rest
      else if isHighSurrogate n then readLowSurrogate n rest
      else .char (Char.ofNat n) rest := by
  simp only [readPiece, readEscape, h rest]

private theorem readPiece_plain {c : Char} (hquote : c ≠ '"') (hbackslash : c ≠ '\\')
    (rest : List Char) :
    readPiece (c :: rest) = if c.toNat < 0x20 then .stop .malformed else .char c rest := by
  unfold readPiece
  split
  · next heq => cases heq
  · next heq => exact absurd (List.cons.inj heq).1 hquote
  · next heq => exact absurd (List.cons.inj heq).1 hbackslash
  · next heq =>
    obtain ⟨rfl, rfl⟩ := List.cons.inj heq
    rfl

/-- How a text can go on inside a string that goes on. -/
private theorem readPiece_cases (cs : List Char) :
    (∃ flaw, readPiece cs = .stop flaw) ∨ (∃ rest, cs = '"' :: rest) ∨
      (∃ c rest, cs = c :: rest ∧ c ≠ '"' ∧ c ≠ '\\') ∨
      (∃ c rest, cs = '\\' :: c :: rest ∧ c ≠ 'u') ∨
      ∃ digits n rest, cs = '\\' :: 'u' :: (digits ++ rest) ∧ IsHex digits n := by
  cases cs with
  | nil => exact .inl ⟨_, rfl⟩
  | cons c cs =>
    by_cases hquote : c = '"'
    · exact .inr (.inl ⟨cs, by rw [hquote]⟩)
    by_cases hbackslash : c = '\\'
    · rw [hbackslash]
      cases cs with
      | nil => exact .inl ⟨_, rfl⟩
      | cons e cs =>
        by_cases hu : e = 'u'
        · rw [hu]
          cases hhex : readHex cs with
          | error flaw => exact .inl ⟨flaw, by simp only [readPiece, readEscape, hhex]⟩
          | ok result =>
            obtain ⟨digits, rfl, hdigits⟩ := exists_of_readHex hhex
            exact .inr (.inr (.inr (.inr ⟨digits, _, _, rfl, hdigits⟩)))
        · exact .inr (.inr (.inr (.inl ⟨e, cs, rfl, hu⟩)))
    · exact .inr (.inr (.inl ⟨c, cs, rfl, hquote, hbackslash⟩))

/-- A piece that stands for a character is read whatever stands behind it. -/
private theorem exists_of_readPiece_char {c : Char} {cs rest : List Char}
    (h : readPiece cs = .char c rest) : ∃ piece, IsPiece piece ∧ cs = piece ++ rest ∧
      ∀ rest', readPiece (piece ++ rest') = .char c rest' := by
  rcases readPiece_cases cs with ⟨flaw, hstop⟩ | ⟨after, rfl⟩ |
    ⟨d, after, rfl, hquote, hbackslash⟩ | ⟨d, after, rfl, hu⟩ | ⟨digits, n, after, rfl, hdigits⟩
  · rw [hstop] at h
    cases h
  · cases h
  · rw [readPiece_plain hquote hbackslash] at h
    split at h
    · cases h
    · next hcontrol =>
      cases h
      refine ⟨[c], .plain c hbackslash, rfl, fun rest' => ?_⟩
      exact (readPiece_plain hquote hbackslash rest').trans (if_neg hcontrol)
  · rw [readPiece_short hu] at h
    cases hshort : shortEscape? d with
    | none =>
      rw [hshort] at h
      cases h
    | some e =>
      rw [hshort] at h
      cases h
      refine ⟨['\\', d], .short d hu, rfl, fun rest' => (readPiece_short hu rest').trans ?_⟩
      rw [hshort]
      rfl
  · rw [readPiece_hex hdigits] at h
    split at h
    · cases h
    · next hlow =>
      -- A first half needs the escape behind it for its character, so the piece is made of both.
      split at h
      · next hhigh =>
        obtain ⟨other, rfl, hother⟩ := exists_of_readLowSurrogate h
        refine ⟨'\\' :: 'u' :: (digits ++ '\\' :: 'u' :: other), .hex hdigits, ?_, fun rest' => ?_⟩
        · simp only [List.cons_append, List.append_assoc]
        · simp only [List.cons_append, List.append_assoc]
          rw [readPiece_hex hdigits, if_neg hlow, if_pos hhigh]
          exact hother rest'
      · next hhigh =>
        obtain ⟨rfl, rfl⟩ := Piece.char.inj h
        refine ⟨_, .digits hdigits, rfl, fun rest' => ?_⟩
        rw [List.cons_append, List.cons_append, readPiece_hex hdigits, if_neg hlow, if_neg hhigh]

/-- A surrogate without its other half is read in the same way whatever stands behind it, once it is
settled that the other half is not there. -/
private theorem exists_of_readPiece_unpaired {flaw : Flaw} {cs rest : List Char}
    (h : readPiece cs = .unpaired flaw rest) : ∃ piece, IsPiece piece ∧ cs = piece ++ rest ∧
      ∀ body rest' : List Char, Settled body → rest = body ++ rest' → ∀ rest'',
        readPiece (piece ++ (body ++ rest'')) = .unpaired flaw (body ++ rest'') := by
  rcases readPiece_cases cs with ⟨flaw, hstop⟩ | ⟨after, rfl⟩ |
    ⟨d, after, rfl, hquote, hbackslash⟩ | ⟨d, after, rfl, hu⟩ | ⟨digits, n, after, rfl, hdigits⟩
  · rw [hstop] at h
    cases h
  · cases h
  · rw [readPiece_plain hquote hbackslash] at h
    split at h <;> cases h
  · rw [readPiece_short hu] at h
    cases hshort : shortEscape? d <;> (rw [hshort] at h; cases h)
  · rw [readPiece_hex hdigits] at h
    split at h
    -- A second half is unpaired whatever follows it; a first half depends on that.
    · next hlow =>
      cases h
      refine ⟨_, .digits hdigits, rfl, fun body rest' _ _ rest'' => ?_⟩
      rw [List.cons_append, List.cons_append, readPiece_hex hdigits, if_pos hlow]
    · next hlow =>
      split at h
      · next hhigh =>
        obtain rfl := eq_of_readLowSurrogate h
        refine ⟨_, .digits hdigits, rfl, fun body rest' hbody hrest rest'' => ?_⟩
        rw [List.cons_append, List.cons_append, readPiece_hex hdigits, if_neg hlow, if_pos hhigh]
        rw [hrest] at h
        exact hbody h rest''
      · cases h

private theorem IsPiece.length_pos {piece : List Char} (h : IsPiece piece) : 0 < piece.length := by
  cases h <;> exact Nat.succ_pos _

/-- A closing quote is no other half of a surrogate pair. -/
private theorem settled_quote (cs : List Char) : Settled ('"' :: cs) :=
  (IsPiece.plain '"' (by decide)).settled cs

private theorem readLowSurrogate_ne_finish {high : Nat} {cs rest : List Char} :
    readLowSurrogate high cs ≠ .finish rest := by
  intro h
  unfold readLowSurrogate at h
  split at h
  · cases h
  · cases h
  · split at h
    · cases h
    · split at h <;> cases h
  · cases h

/-- Only a quote closes a string. -/
private theorem eq_of_readPiece_finish {cs rest : List Char} (h : readPiece cs = .finish rest) :
    cs = '"' :: rest := by
  rcases readPiece_cases cs with ⟨flaw, hstop⟩ | ⟨after, rfl⟩ |
    ⟨d, after, rfl, hquote, hbackslash⟩ | ⟨d, after, rfl, hu⟩ | ⟨digits, n, after, rfl, hdigits⟩
  · rw [hstop] at h
    cases h
  · cases h
    rfl
  · rw [readPiece_plain hquote hbackslash] at h
    split at h <;> cases h
  · rw [readPiece_short hu] at h
    cases hshort : shortEscape? d <;> (rw [hshort] at h; cases h)
  · rw [readPiece_hex hdigits] at h
    split at h
    · cases h
    · split at h
      · exact absurd h readLowSurrogate_ne_finish
      · cases h

/-- That a string is read as `r` up to the end of `body`, whatever stands behind it, in any number
of pieces that is not too small; `sofar` is what has been read of it. -/
def EndsString (sofar : Sofar) (body : List Char) (r : Reading) : Prop :=
  ∀ bound rest : List Char, body.length ≤ bound.length →
    readStringBody sofar bound (body ++ rest) = (r, some rest)

/-- A piece may stand in front of the end of a string. -/
private theorem EndsString.behind {sofar sofar' : Sofar} {piece body : List Char} {r : Reading}
    (h : EndsString sofar' body r) (hpiece : IsPiece piece)
    (hread : ∀ (b : Char) (bound rest : List Char),
      readStringBody sofar (b :: bound) (piece ++ (body ++ rest)) =
        readStringBody sofar' bound (body ++ rest)) :
    EndsString sofar (piece ++ body) r := by
  intro bound rest hbound
  have hpositive := hpiece.length_pos
  rw [List.length_append] at hbound
  obtain ⟨b, bound, rfl⟩ := List.exists_cons_of_length_pos (show 0 < bound.length by omega)
  rw [List.length_cons] at hbound
  rw [List.append_assoc, hread]
  exact h bound rest (by omega)

/-- What has been read of a string is its end, and settles what the pieces before it look for. -/
private theorem exists_of_readStringBody {sofar : Sofar} {bound cs rest : List Char} {r : Reading}
    (h : readStringBody sofar bound cs = (r, some rest)) :
    ∃ body, cs = body ++ rest ∧ Settled body ∧ EndsString sofar body r := by
  -- From the last piece to the first: a half of a surrogate pair needs what follows it settled.
  induction bound generalizing sofar cs with
  | nil => cases h
  | cons b bound ih =>
    rw [readStringBody] at h
    split at h
    · next after hfinish =>
      cases h
      refine ⟨['"'], eq_of_readPiece_finish hfinish, settled_quote [], fun bound rest' hbound => ?_⟩
      obtain ⟨b', bound', rfl⟩ := List.exists_cons_of_length_pos hbound
      rfl
    · next c after hchar =>
      obtain ⟨body, rfl, -, hbody⟩ := ih h
      obtain ⟨piece, hpiece, rfl, hread⟩ := exists_of_readPiece_char hchar
      refine ⟨piece ++ body, (List.append_assoc _ _ _).symm, hpiece.settled body,
        hbody.behind hpiece fun b bound rest' => ?_⟩
      rw [readStringBody, hread]
    · next flaw after hunpaired =>
      obtain ⟨body, rfl, hsettled, hbody⟩ := ih h
      obtain ⟨piece, hpiece, rfl, hread⟩ := exists_of_readPiece_unpaired hunpaired
      refine ⟨piece ++ body, (List.append_assoc _ _ _).symm, hpiece.settled body,
        hbody.behind hpiece fun b bound rest' => ?_⟩
      rw [readStringBody, hread body rest hsettled rfl]
    · cases h

private theorem isLocal_readString : IsLocal readString := by
  intro cs r rest h
  obtain ⟨body, rfl, -, hbody⟩ := exists_of_readStringBody h
  refine ⟨body, rfl, fun rest' _ => hbody _ rest' ?_⟩
  rw [List.length_cons, List.length_append]
  omega

/-! ### Scalars -/

private theorem readScalar_digit {c : Char} (h : c.isDigit = true) (cs : List Char) :
    readScalar (c :: cs) = readNumeral false (c :: cs) := by
  unfold readScalar
  split
  · next heq => cases heq
  · next heq => cases heq; cases h
  · next heq => cases heq; cases h
  · next heq => cases heq; cases h
  · next heq => cases heq; cases h
  · next heq => cases heq; cases h
  · next heq =>
    obtain ⟨rfl, rfl⟩ := List.cons.inj heq
    exact if_pos h

/-- What has been read of a scalar is a lexeme. -/
theorem isLocal_readScalar : IsLocal readScalar := by
  intro cs r rest h
  unfold readScalar at h
  split at h
  · cases h
  · exact (isLocal_readWord _ _).behind ['n'] (fun _ => rfl) h
  · exact (isLocal_readWord _ _).behind ['t'] (fun _ => rfl) h
  · exact (isLocal_readWord _ _).behind ['f'] (fun _ => rfl) h
  · exact (isLocal_readNumeral true).behind ['-'] (fun _ => rfl) h
  · exact isLocal_readString.behind ['"'] (fun _ => rfl) h
  · next c cs _ _ _ _ _ =>
    split at h
    · next hdigit =>
      obtain ⟨lex, hlex, hread⟩ := isLocal_readNumeral false h
      cases lex with
      | nil => cases hread [] delimited_nil
      | cons d lex =>
        -- The digit that says that a numeral begins here is its own first digit.
        obtain ⟨rfl, rfl⟩ := List.cons.inj hlex
        refine ⟨c :: lex, rfl, fun rest' hrest' => ?_⟩
        rw [List.cons_append, readScalar_digit hdigit]
        exact hread rest' hrest'
    · cases h

/-- What has been read of a scalar at the head of `cs` is a lexeme. -/
theorem exists_isLexeme {cs rest : List Char} {r : Reading} (h : readScalar cs = (r, some rest)) :
    ∃ lex, cs = lex ++ rest ∧ IsLexeme r lex :=
  isLocal_readScalar h

end KindSchema.Json
