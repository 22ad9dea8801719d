import KindSchema.Proofs.Json.Reading

/-!
# The grammar of JSON texts

Which texts spell a value, said without a reader: values stand between brackets and commas with any
amount of space around them, and so do keys and colons. `Spells`, `SpellsItems` and `SpellsMembers`
have one rule for each way to write a value; `IsText` is for a whole text.

Only the smallest pieces, words, numerals and strings, are taken as the reader takes them:
`IsLexeme` says that a piece of text is read as a scalar wherever it stands. As texts are put
together of such pieces, items and members can be put in another order in the text as in the value.

* `readValue_of_spells`: a text that spells a value is read as it, whatever follows.
* `Reading.ofText_of_isText`: so a text is a spelling of one value at most.
-/

namespace KindSchema.Json

/-! ### Lexemes -/

/-- Whether `c` ends a word or a numeral. -/
def isDelimiter (c : Char) : Bool :=
  isSpace c || c == ',' || c == ':' || c == ']' || c == '\x7d'

/-- That `cs` is at its end or goes on with a delimiter. -/
def Delimited (cs : List Char) : Prop :=
  ∀ c ∈ cs.head?, isDelimiter c = true

/-- That `cs` is read as the scalar `r` wherever it stands before a delimiter. -/
def IsLexeme (r : Reading) (cs : List Char) : Prop :=
  ∀ rest, Delimited rest → readScalar (cs ++ rest) = (r, some rest)

/-- That `cs` holds nothing but space. -/
def Blank (cs : List Char) : Prop :=
  ∀ c ∈ cs, isSpace c = true

theorem Blank.append {cs cs' : List Char} (h : Blank cs) (h' : Blank cs') : Blank (cs ++ cs') :=
  List.forall_mem_append.mpr ⟨h, h'⟩

theorem delimited_nil : Delimited [] :=
  fun _ hc => nomatch hc

private theorem delimited_cons {c : Char} {cs : List Char} (h : isDelimiter c = true) :
    Delimited (c :: cs) :=
  fun _ hc => Option.some.inj hc ▸ h

private theorem delimited_comma (cs : List Char) : Delimited (',' :: cs) :=
  delimited_cons rfl

private theorem delimited_colon (cs : List Char) : Delimited (':' :: cs) :=
  delimited_cons rfl

private theorem delimited_bracket (cs : List Char) : Delimited (']' :: cs) :=
  delimited_cons rfl

private theorem delimited_brace (cs : List Char) : Delimited ('\x7d' :: cs) :=
  delimited_cons rfl

private theorem isDelimiter_of_isSpace {c : Char} (h : isSpace c = true) :
    isDelimiter c = true := by
  simp [isDelimiter, h]

private theorem delimited_append {cs rest : List Char} (h : Blank cs) (hrest : Delimited rest) :
    Delimited (cs ++ rest) := by
  cases cs with
  | nil => exact hrest
  | cons c cs => exact delimited_cons (isDelimiter_of_isSpace (h c List.mem_cons_self))

private theorem skipSpace_append {cs : List Char} (h : Blank cs) (rest : List Char) :
    skipSpace (cs ++ rest) = skipSpace rest :=
  List.dropWhile_append_of_pos h

/-- The space at the head of `cs`. -/
theorem exists_blank_append (cs : List Char) : ∃ blank, Blank blank ∧ cs = blank ++ skipSpace cs :=
  ⟨cs.takeWhile isSpace, List.all_eq_true.mp List.all_takeWhile,
    List.takeWhile_append_dropWhile.symm⟩

/-- No scalar begins with a delimiter or with an opening bracket. -/
private theorem not_isDelimiter_of_readScalar {c : Char} {cs : List Char} {r : Reading}
    {rest : List Char} (h : readScalar (c :: cs) = (r, some rest)) :
    isDelimiter c = false ∧ c ≠ '[' ∧ c ≠ '\x7b' := by
  have habsent {d : Char} (hd : readScalar (d :: cs) = (.absent .malformed, none)) : c ≠ d := by
    rintro rfl
    rw [h] at hd
    cases hd
  refine ⟨?_, habsent rfl, habsent rfl⟩
  simp only [isDelimiter, isSpace, Bool.or_eq_false_iff, beq_eq_false_iff_ne]
  exact ⟨⟨⟨⟨⟨⟨⟨habsent rfl, habsent rfl⟩, habsent rfl⟩, habsent rfl⟩, habsent rfl⟩, habsent rfl⟩,
    habsent rfl⟩, habsent rfl⟩

private theorem IsLexeme.exists_cons {r : Reading} {cs : List Char} (h : IsLexeme r cs) :
    ∃ c cs', cs = c :: cs' ∧ isDelimiter c = false ∧ c ≠ '[' ∧ c ≠ '\x7b' := by
  have hread := h [] delimited_nil
  rw [List.append_nil] at hread
  cases cs with
  | nil => cases hread
  | cons c cs => exact ⟨c, cs, rfl, not_isDelimiter_of_readScalar hread⟩

/-! ### Values -/

mutual

/-- The texts that spell a value, without space around it. -/
inductive Spells : Reading → List Char → Prop
  | lexeme {r cs} (h : IsLexeme r cs) : Spells r cs
  | emptyArray {blank} (h : Blank blank) : Spells (.array [] none) ('[' :: blank ++ [']'])
  | array {items cs} (h : SpellsItems items cs) : Spells (.array items none) ('[' :: cs ++ [']'])
  | emptyObject {blank} (h : Blank blank) :
    Spells (.object [] none) ('\x7b' :: blank ++ ['\x7d'])
  | object {members cs} (h : SpellsMembers members cs) :
    Spells (.object members none) ('\x7b' :: cs ++ ['\x7d'])

/-- The texts that spell one item or more, with commas between them. -/
inductive SpellsItems : List Reading → List Char → Prop
  | last {item before cs after} (hbefore : Blank before) (h : Spells item cs)
      (hafter : Blank after) : SpellsItems [item] (before ++ cs ++ after)
  | more {item before cs after items rest} (hbefore : Blank before) (h : Spells item cs)
      (hafter : Blank after) (hrest : SpellsItems items rest) :
    SpellsItems (item :: items) (before ++ cs ++ after ++ ',' :: rest)

/-- The texts that spell a member: its key, a colon and its value. -/
inductive SpellsMember : Reading × Reading → List Char → Prop
  | intro {token value before key afterKey beforeValue cs after} (hbefore : Blank before)
      (hkey : IsLexeme (.string token) key) (hafterKey : Blank afterKey)
      (hbeforeValue : Blank beforeValue) (h : Spells value cs) (hafter : Blank after) :
    SpellsMember (.string token, value)
      (before ++ key ++ afterKey ++ ':' :: (beforeValue ++ cs ++ after))

/-- The texts that spell one member or more, with commas between them. -/
inductive SpellsMembers : List (Reading × Reading) → List Char → Prop
  | last {member cs} (h : SpellsMember member cs) : SpellsMembers [member] cs
  | more {member cs members rest} (h : SpellsMember member cs)
      (hrest : SpellsMembers members rest) :
    SpellsMembers (member :: members) (cs ++ ',' :: rest)

end

/-- That `text` spells `r`, with any space around it. -/
def IsText (r : Reading) (text : String) : Prop :=
  ∃ before cs after, Blank before ∧ Spells r cs ∧ Blank after ∧
    text.toList = before ++ cs ++ after

/-! ### Spellings are read -/

/-- A value begins with a character that is no delimiter. -/
private theorem Spells.exists_cons {r : Reading} {cs : List Char} (h : Spells r cs) :
    ∃ c cs', cs = c :: cs' ∧ isDelimiter c = false := by
  cases h with
  | lexeme h =>
    obtain ⟨c, cs', hcs, hc, -⟩ := h.exists_cons
    exact ⟨c, cs', hcs, hc⟩
  | emptyArray => exact ⟨_, _, rfl, rfl⟩
  | array => exact ⟨_, _, rfl, rfl⟩
  | emptyObject => exact ⟨_, _, rfl, rfl⟩
  | object => exact ⟨_, _, rfl, rfl⟩

private theorem isSpace_of_not_isDelimiter {c : Char} (h : isDelimiter c = false) :
    isSpace c = false := by
  cases hspace : isSpace c with
  | false => rfl
  | true => rw [isDelimiter_of_isSpace hspace] at h; cases h

/-- No space has to be skipped before a value. -/
private theorem Spells.skipSpace_append {r : Reading} {cs : List Char} (h : Spells r cs)
    (rest : List Char) : skipSpace (cs ++ rest) = cs ++ rest := by
  obtain ⟨c, cs', rfl, hc⟩ := h.exists_cons
  exact skipSpace_of_not_isSpace (isSpace_of_not_isDelimiter hc) _

private theorem Spells.length_pos {r : Reading} {cs : List Char} (h : Spells r cs) :
    0 < cs.length := by
  obtain ⟨c, cs', rfl, -⟩ := h.exists_cons
  exact Nat.succ_pos _

/-- A scalar is read as a value. -/
private theorem readValue_of_isLexeme {r : Reading} {cs : List Char} (h : IsLexeme r cs)
    {fuel : Nat} (hfuel : 0 < fuel) {rest : List Char} (hrest : Delimited rest) :
    readValue fuel (cs ++ rest) = (r, some rest) := by
  obtain ⟨fuel, rfl⟩ := Nat.exists_eq_add_of_lt hfuel
  obtain ⟨c, cs', rfl, -, hbracket, hbrace⟩ := h.exists_cons
  rw [← h rest hrest, List.cons_append]
  unfold readValue
  split
  · next heq => exact absurd (List.cons.inj heq).1 hbracket
  · next heq => exact absurd (List.cons.inj heq).1 hbrace
  · rfl

/-- Behind the space before it, a value begins with a character that is no delimiter. -/
private theorem Spells.exists_skipSpace {r : Reading} {before cs : List Char}
    (hbefore : Blank before) (h : Spells r cs) (rest : List Char) :
    ∃ c cs', skipSpace (before ++ (cs ++ rest)) = c :: cs' ∧ isDelimiter c = false := by
  obtain ⟨c, cs', hcs, hc⟩ := h.exists_cons
  refine ⟨c, cs' ++ rest, ?_, hc⟩
  rw [KindSchema.Json.skipSpace_append hbefore, h.skipSpace_append, hcs, List.cons_append]

private theorem SpellsItems.exists_skipSpace {items : List Reading} {cs : List Char}
    (h : SpellsItems items cs) (rest : List Char) :
    ∃ c cs', skipSpace (cs ++ rest) = c :: cs' ∧ isDelimiter c = false := by
  cases h with
  | last hbefore h hafter =>
    rw [List.append_assoc, List.append_assoc]
    exact h.exists_skipSpace hbefore _
  | more hbefore h hafter hrest =>
    rw [List.append_assoc, List.append_assoc, List.append_assoc]
    exact h.exists_skipSpace hbefore _

private theorem SpellsMember.exists_skipSpace {member : Reading × Reading} {cs : List Char}
    (h : SpellsMember member cs) (rest : List Char) :
    ∃ c cs', skipSpace (cs ++ rest) = c :: cs' ∧ isDelimiter c = false := by
  cases h with
  | intro hbefore hkey =>
    rw [List.append_assoc, List.append_assoc, List.append_assoc]
    exact (Spells.lexeme hkey).exists_skipSpace hbefore _

private theorem SpellsMembers.exists_skipSpace {members : List (Reading × Reading)} {cs : List Char}
    (h : SpellsMembers members cs) (rest : List Char) :
    ∃ c cs', skipSpace (cs ++ rest) = c :: cs' ∧ isDelimiter c = false := by
  cases h with
  | last h => exact h.exists_skipSpace rest
  | more h =>
    rw [List.append_assoc]
    exact h.exists_skipSpace _

/-- That the key and the value of `member` are read from `cs` one after the other, up to `rest`. -/
def ReadsMember (fuel : Nat) (member : Reading × Reading) (cs rest : List Char) : Prop :=
  ∃ afterKey beforeValue afterValue,
    readValue fuel (skipSpace cs) = (member.1, some afterKey) ∧
      skipSpace afterKey = ':' :: beforeValue ∧
      readValue fuel (skipSpace beforeValue) = (member.2, some afterValue) ∧
      skipSpace afterValue = skipSpace rest

mutual

/-- If `cs` spells `r`, it is read as `r`, whatever follows. -/
theorem readValue_of_spells : ∀ {r : Reading} {cs : List Char}, Spells r cs →
    ∀ {fuel : Nat} {rest : List Char}, 2 * cs.length ≤ fuel → Delimited rest →
      readValue fuel (cs ++ rest) = (r, some rest)
  | _, _, .lexeme h, fuel, rest, hfuel, hrest => by
    have hpositive := (Spells.lexeme h).length_pos
    exact readValue_of_isLexeme h (by omega) hrest
  | _, _, .emptyArray h, fuel + 1, rest, _, _ => by
    rw [List.cons_append, List.cons_append, List.append_assoc, readValue, skipSpace_append h]
    rfl
  | _, _, .array h, fuel + 1, rest, hfuel, _ => by
    rw [List.length_append, List.length_cons, List.length_singleton] at hfuel
    -- The array is not taken for an empty one, as its first item begins with no bracket.
    obtain ⟨c, cs', hskip, hc⟩ := h.exists_skipSpace (']' :: rest)
    rw [List.cons_append, List.cons_append, List.append_assoc]
    refine readValue_bracket hskip ?_ (readItems_of_spells h (by omega))
    rintro rfl
    cases hc
  | _, _, .emptyObject h, fuel + 1, rest, _, _ => by
    rw [List.cons_append, List.cons_append, List.append_assoc, readValue, skipSpace_append h]
    rfl
  | _, _, .object h, fuel + 1, rest, hfuel, _ => by
    rw [List.length_append, List.length_cons, List.length_singleton] at hfuel
    obtain ⟨c, cs', hskip, hc⟩ := h.exists_skipSpace ('\x7d' :: rest)
    rw [List.cons_append, List.cons_append, List.append_assoc]
    refine readValue_brace hskip ?_ (readMembers_of_spells h (by omega))
    rintro rfl
    cases hc

/-- The texts of `items` are read up to the closing bracket. -/
theorem readItems_of_spells : ∀ {items : List Reading} {cs : List Char}, SpellsItems items cs →
    ∀ {fuel : Nat} {rest : List Char}, 2 * cs.length + 1 ≤ fuel →
      readItems fuel (skipSpace (cs ++ ']' :: rest)) = (items, none, some rest)
  | _, _, .last hbefore h hafter, fuel + 1, rest, hfuel => by
    rw [List.length_append, List.length_append] at hfuel
    rw [List.append_assoc, List.append_assoc, skipSpace_append hbefore, h.skipSpace_append]
    refine readItems_bracket
      (readValue_of_spells h (by omega) (delimited_append hafter (delimited_bracket rest))) ?_
    rw [skipSpace_append hafter, skipSpace_of_not_isSpace rfl]
  | _, _, .more hbefore h hafter hrest, fuel + 1, rest, hfuel => by
    rw [List.length_append, List.length_append, List.length_append, List.length_cons] at hfuel
    rw [List.append_assoc, List.append_assoc, List.append_assoc, List.cons_append,
      skipSpace_append hbefore, h.skipSpace_append]
    refine readItems_comma
      (readValue_of_spells h (by omega) (delimited_append hafter (delimited_comma _))) ?_
      (readItems_of_spells hrest (by omega))
    rw [skipSpace_append hafter, skipSpace_of_not_isSpace rfl]

/-- The text of `member` is read up to what follows it. -/
theorem readsMember_of_spells : ∀ {member : Reading × Reading} {cs : List Char},
    SpellsMember member cs → ∀ {fuel : Nat} {rest : List Char}, 2 * cs.length ≤ fuel →
      Delimited rest → ReadsMember fuel member (cs ++ rest) rest
  | _, _, @SpellsMember.intro _ _ _ _ afterKey beforeValue value after hbefore hkey hafterKey
      hbeforeValue h hafter, fuel, rest, hfuel, hrest => by
    have hlexeme := Spells.lexeme hkey
    have hpositive := hlexeme.length_pos
    simp only [List.length_append, List.length_cons] at hfuel
    simp only [List.append_assoc, List.cons_append]
    refine ⟨afterKey ++ ':' :: (beforeValue ++ (value ++ (after ++ rest))),
      beforeValue ++ (value ++ (after ++ rest)), after ++ rest, ?_, ?_, ?_,
      skipSpace_append hafter rest⟩
    · rw [skipSpace_append hbefore, hlexeme.skipSpace_append]
      exact readValue_of_isLexeme hkey (by omega) (delimited_append hafterKey (delimited_colon _))
    · rw [skipSpace_append hafterKey, skipSpace_of_not_isSpace rfl]
    · rw [skipSpace_append hbeforeValue, h.skipSpace_append]
      exact readValue_of_spells h (by omega) (delimited_append hafter hrest)

/-- The texts of `members` are read up to the closing brace. -/
theorem readMembers_of_spells : ∀ {members : List (Reading × Reading)} {cs : List Char},
    SpellsMembers members cs → ∀ {fuel : Nat} {rest : List Char}, 2 * cs.length + 1 ≤ fuel →
      readMembers fuel (skipSpace (cs ++ '\x7d' :: rest)) = (members, none, some rest)
  | _, _, .last h, fuel + 1, rest, hfuel => by
    obtain ⟨afterKey, beforeValue, afterValue, hkey, hcolon, hvalue, hafter⟩ :=
      readsMember_of_spells h (show 2 * _ ≤ fuel by omega) (delimited_brace rest)
    exact readMembers_brace hkey hcolon hvalue (hafter.trans (skipSpace_of_not_isSpace rfl _))
  | _, _, .more h hrest, fuel + 1, rest, hfuel => by
    rw [List.length_append, List.length_cons] at hfuel
    obtain ⟨afterKey, beforeValue, afterValue, hkey, hcolon, hvalue, hafter⟩ :=
      readsMember_of_spells h (show 2 * _ ≤ fuel by omega) (delimited_comma _)
    rw [List.append_assoc, List.cons_append]
    exact readMembers_comma hkey hcolon hvalue (hafter.trans (skipSpace_of_not_isSpace rfl _))
      (readMembers_of_spells hrest (by omega))

end

/-- The text `text` is read as `r`, the value it spells, and nothing is left over. -/
theorem Reading.ofText_of_isText {r : Reading} {text : String} (h : IsText r text) :
    Reading.ofText text = (r, none) := by
  obtain ⟨before, cs, after, hbefore, hcs, hafter, htext⟩ := h
  have hafterEnd : skipSpace after = [] := by
    have hskip := skipSpace_append hafter []
    rwa [List.append_nil] at hskip
  have hdelimited : Delimited after := by
    have happend := delimited_append hafter delimited_nil
    rwa [List.append_nil] at happend
  -- The fuel is twice the length of the whole text, which is more than its value needs.
  have hread : readValue (2 * (cs ++ after).length + 2) (cs ++ after) = (r, some after) := by
    refine readValue_of_spells hcs ?_ hdelimited
    rw [List.length_append]
    omega
  unfold ofText
  dsimp only
  rw [htext, List.append_assoc, skipSpace_append hbefore, hcs.skipSpace_append, hread]
  dsimp only
  rw [if_pos hafterEnd]

end KindSchema.Json
