import KindSchema.Proofs.Json.Lexemes

/-!
# Whole readings

A reading is whole if the text did not break off in it. A text whose reading is whole, and behind
which nothing is left over, is a spelling of it: `isText_of_ofText`. So the grammar has a rule for
all that the reader takes.
-/

namespace KindSchema.Json

/-- That `token` does not break off: it is a string for those who skip it, or for those who want
it. -/
def StringToken.Whole (token : StringToken) : Prop :=
  token.flaw? = none ∨ ∃ s, token.text = .ok s

mutual

/-- That the text does not break off in a value, and that the keys in it are strings. -/
def Reading.Whole : Reading → Prop
  | .null => True
  | .bool _ => True
  | .number _ => True
  | .string token => token.Whole
  | .array items finish => WholeItems items ∧ finish = none
  | .object members finish => WholeMembers members ∧ finish = none
  | .absent _ => False
  | .broken _ _ => False

/-- That the text breaks off in none of some items. -/
def WholeItems : List Reading → Prop
  | [] => True
  | item :: items => item.Whole ∧ WholeItems items

/-- That the text breaks off in none of some members. -/
def WholeMembers : List (Reading × Reading) → Prop
  | [] => True
  | (key, value) :: members =>
    (∃ token, key = .string token ∧ token.Whole) ∧ value.Whole ∧ WholeMembers members

end

/-! ### Readings that break off -/

/-- That `read` gives nothing whole where it stops. -/
def StopsBroken (read : List Char → Reading × Rest) : Prop :=
  ∀ ⦃cs r⦄, read cs = (r, none) → ¬ r.Whole

private theorem stopsBroken_readWord (value : Reading) (word : List Char) :
    StopsBroken (readWord value word) := by
  induction word with
  | nil => intro cs r h; cases h
  | cons w word ih =>
    intro cs r h
    cases cs with
    | nil => cases h; exact id
    | cons c cs =>
      rw [readWord] at h
      split at h
      · exact ih h
      · cases h; exact id

private theorem stopsBroken_lackingDigit : StopsBroken lackingDigit := by
  intro cs r h
  cases h
  exact id

private theorem stopsBroken_readExponentDigits (numeral : Numeral) (negativeExponent : Bool) :
    StopsBroken (readExponentDigits numeral negativeExponent) := by
  intro cs r h
  unfold readExponentDigits at h
  dsimp only at h
  split at h
  · exact stopsBroken_lackingDigit h
  · cases h

private theorem stopsBroken_readExponent (numeral : Numeral) :
    StopsBroken (readExponent numeral) := by
  intro cs r h
  unfold readExponent at h
  split at h
  · cases h
  · split at h
    · dsimp only at h
      split at h <;> exact stopsBroken_readExponentDigits numeral _ h
    · cases h

private theorem stopsBroken_readFraction (numeral : Numeral) :
    StopsBroken (readFraction numeral) := by
  intro cs r h
  unfold readFraction at h
  split at h
  · dsimp only at h
    split at h
    · exact stopsBroken_lackingDigit h
    · exact stopsBroken_readExponent _ h
  · exact stopsBroken_readExponent _ h

private theorem stopsBroken_readNumeral (negative : Bool) : StopsBroken (readNumeral negative) := by
  intro cs r h
  unfold readNumeral at h
  split at h
  · split at h
    · cases h; exact id
    · exact stopsBroken_readFraction _ h
  · dsimp only at h
    split at h
    · exact stopsBroken_lackingDigit h
    · exact stopsBroken_readFraction _ h

private theorem stopsBroken_readStringBody (sofar : Sofar) (bound : List Char) :
    StopsBroken (readStringBody sofar bound) := by
  induction bound generalizing sofar with
  | nil =>
    intro cs r h
    cases h
    rintro (h | ⟨s, h⟩) <;> cases h
  | cons b bound ih =>
    intro cs r h
    rw [readStringBody] at h
    split at h
    · cases h
    · exact ih _ h
    · exact ih _ h
    · cases h
      rintro (h | ⟨s, h⟩)
      · cases h
      · cases sofar <;> cases h

private theorem stopsBroken_readScalar : StopsBroken readScalar := by
  intro cs r h
  unfold readScalar at h
  split at h
  · cases h; exact id
  · exact stopsBroken_readWord _ _ h
  · exact stopsBroken_readWord _ _ h
  · exact stopsBroken_readWord _ _ h
  · exact stopsBroken_readNumeral _ h
  · exact stopsBroken_readStringBody _ _ h
  · split at h
    · exact stopsBroken_readNumeral _ h
    · cases h; exact id

/-! ### Whole readings are spelled -/

/-- Space may stand before the first of some items. -/
private theorem SpellsItems.behind {items : List Reading} {blank cs : List Char}
    (hblank : Blank blank) (h : SpellsItems items cs) : SpellsItems items (blank ++ cs) := by
  cases h with
  | last hbefore h hafter =>
    rw [← List.append_assoc, ← List.append_assoc]
    exact .last (hblank.append hbefore) h hafter
  | more hbefore h hafter hrest =>
    rw [← List.append_assoc, ← List.append_assoc, ← List.append_assoc]
    exact .more (hblank.append hbefore) h hafter hrest

/-- Space may stand before the first of some members. -/
private theorem SpellsMembers.behind {members : List (Reading × Reading)} {blank cs : List Char}
    (hblank : Blank blank) (h : SpellsMembers members cs) :
    SpellsMembers members (blank ++ cs) := by
  have hmember {member : Reading × Reading} {cs : List Char} (h : SpellsMember member cs) :
      SpellsMember member (blank ++ cs) := by
    cases h with
    | intro hbefore hkey hafterKey hbeforeValue h hafter =>
      rw [← List.append_assoc, ← List.append_assoc, ← List.append_assoc]
      exact .intro (hblank.append hbefore) hkey hafterKey hbeforeValue h hafter
  cases h with
  | last h => exact .last (hmember h)
  | more h hrest =>
    rw [← List.append_assoc]
    exact .more (hmember h) hrest

/-- A key that is a string was read as a lexeme. -/
private theorem exists_isLexeme_of_readValue {fuel : Nat} {cs : List Char} {token : StringToken}
    {rest : List Char} (h : readValue fuel cs = (.string token, some rest)) :
    ∃ lex, cs = lex ++ rest ∧ IsLexeme (.string token) lex := by
  cases fuel with
  | zero => cases h
  | succ fuel =>
    unfold readValue at h
    split at h
    · split at h <;> cases h
    · split at h <;> cases h
    · exact exists_isLexeme h

section Steps

variable {fuel : Nat} {cs : List Char} {more : Rest}

/-- How items can be read without a flaw of their list. -/
private theorem readItems_cases {items : List Reading}
    (h : readItems (fuel + 1) cs = (items, none, more)) :
    ∃ item others, items = item :: others ∧
      (readValue fuel cs = (item, none) ∨
        ∃ after rest, readValue fuel cs = (item, some after) ∧
          (skipSpace after = ']' :: rest ∧ others = [] ∧ more = some rest ∨
            skipSpace after = ',' :: rest ∧
              readItems fuel (skipSpace rest) = (others, none, more))) := by
  unfold readItems at h
  -- The list stops at an item that is broken, ends with it, or goes on behind a comma.
  split at h
  · next item hitem =>
    cases h
    exact ⟨item, [], rfl, .inl hitem⟩
  · next item after hitem =>
    split at h
    · cases h
    · next rest hskip =>
      cases h
      exact ⟨item, [], rfl, .inr ⟨after, rest, hitem, .inl ⟨hskip, rfl, rfl⟩⟩⟩
    · next rest hskip =>
      rcases hothers : readItems fuel (skipSpace rest) with ⟨others, finish, more'⟩
      rw [hothers] at h
      cases h
      exact ⟨item, others, rfl, .inr ⟨after, rest, hitem, .inr ⟨hskip, hothers⟩⟩⟩
    · cases h

/-- How members can be read without a flaw of their list. -/
private theorem readMembers_cases {members : List (Reading × Reading)}
    (h : readMembers (fuel + 1) cs = (members, none, more)) :
    ∃ key value others, members = (key, value) :: others ∧
      ((∃ flaw, value = .absent flaw) ∨
        ∃ afterKey beforeValue, readValue fuel cs = (key, some afterKey) ∧
          skipSpace afterKey = ':' :: beforeValue ∧
          (readValue fuel (skipSpace beforeValue) = (value, none) ∨
            ∃ after rest, readValue fuel (skipSpace beforeValue) = (value, some after) ∧
              (skipSpace after = '\x7d' :: rest ∧ others = [] ∧ more = some rest ∨
                skipSpace after = ',' :: rest ∧
                  readMembers fuel (skipSpace rest) = (others, none, more)))) := by
  unfold readMembers at h
  split at h
  · next key hkey =>
    cases h
    exact ⟨key, _, [], rfl, .inl ⟨_, rfl⟩⟩
  · next key afterKey hkey =>
    split at h
    · cases h
      exact ⟨key, _, [], rfl, .inl ⟨_, rfl⟩⟩
    · next beforeValue hcolon =>
      split at h
      · next value hvalue =>
        cases h
        exact ⟨key, value, [], rfl, .inr ⟨afterKey, beforeValue, hkey, hcolon, .inl hvalue⟩⟩
      · next value after hvalue =>
        split at h
        · cases h
        · next rest hskip =>
          cases h
          exact ⟨key, value, [], rfl, .inr ⟨afterKey, beforeValue, hkey, hcolon,
            .inr ⟨after, rest, hvalue, .inl ⟨hskip, rfl, rfl⟩⟩⟩⟩
        · next rest hskip =>
          rcases hothers : readMembers fuel (skipSpace rest) with ⟨others, finish, more'⟩
          rw [hothers] at h
          cases h
          exact ⟨key, value, others, rfl, .inr ⟨afterKey, beforeValue, hkey, hcolon,
            .inr ⟨after, rest, hvalue, .inr ⟨hskip, hothers⟩⟩⟩⟩
        · cases h
    · cases h
      exact ⟨key, _, [], rfl, .inl ⟨_, rfl⟩⟩

end Steps

theorem blank_nil : Blank [] :=
  fun _ hc => nomatch hc

mutual

/-- What has been read as a whole value is a spelling of it. -/
private theorem exists_of_readValue : ∀ {fuel : Nat} {cs : List Char} {r : Reading} {more : Rest},
    readValue fuel cs = (r, more) → r.Whole →
      ∃ body rest, more = some rest ∧ cs = body ++ rest ∧ Spells r body
  | 0, _, _, _, h, hwhole => by
    cases h
    exact absurd hwhole id
  | fuel + 1, cs, r, more, h, hwhole => by
    unfold readValue at h
    split at h
    · next cs =>
      obtain ⟨blank, hblank, hcs⟩ := exists_blank_append cs
      split at h
      · cases h
        cases hwhole.2
      · next rest hskip =>
        cases h
        rw [hskip] at hcs
        refine ⟨'[' :: blank ++ [']'], rest, rfl, ?_, .emptyArray hblank⟩
        rw [hcs, List.append_assoc, List.cons_append, List.singleton_append]
      · -- The space behind the bracket is taken as space before the first item.
        rcases hitems : readItems fuel (skipSpace cs) with ⟨items, finish, more'⟩
        rw [hitems] at h
        cases h
        obtain ⟨hwhole, rfl⟩ := hwhole
        obtain ⟨body, rest, rfl, hbody, hspells⟩ := exists_of_readItems hitems hwhole
        rw [hbody] at hcs
        refine ⟨'[' :: (blank ++ body) ++ [']'], rest, rfl, ?_, .array (hspells.behind hblank)⟩
        simp only [hcs, List.append_assoc, List.cons_append, List.nil_append]
    · next cs =>
      obtain ⟨blank, hblank, hcs⟩ := exists_blank_append cs
      split at h
      · cases h
        cases hwhole.2
      · next rest hskip =>
        cases h
        rw [hskip] at hcs
        refine ⟨'\x7b' :: blank ++ ['\x7d'], rest, rfl, ?_, .emptyObject hblank⟩
        rw [hcs, List.append_assoc, List.cons_append, List.singleton_append]
      · rcases hmembers : readMembers fuel (skipSpace cs) with ⟨members, finish, more'⟩
        rw [hmembers] at h
        cases h
        obtain ⟨hwhole, rfl⟩ := hwhole
        obtain ⟨body, rest, rfl, hbody, hspells⟩ := exists_of_readMembers hmembers hwhole
        rw [hbody] at hcs
        refine ⟨'\x7b' :: (blank ++ body) ++ ['\x7d'], rest, rfl, ?_,
          .object (hspells.behind hblank)⟩
        simp only [hcs, List.append_assoc, List.cons_append, List.nil_append]
    -- What is neither a list nor an object is a lexeme, whole if it is read to its end.
    · cases more with
      | none => exact absurd hwhole (stopsBroken_readScalar h)
      | some rest =>
        obtain ⟨lex, rfl, hlex⟩ := exists_isLexeme h
        exact ⟨lex, rest, rfl, rfl, .lexeme hlex⟩

/-- What has been read as whole items is a spelling of them, up to the closing bracket. -/
private theorem exists_of_readItems :
    ∀ {fuel : Nat} {cs : List Char} {items : List Reading} {more : Rest},
    readItems fuel cs = (items, none, more) → WholeItems items →
      ∃ body rest, more = some rest ∧ cs = body ++ ']' :: rest ∧ SpellsItems items body
  | 0, _, _, _, h, _ => by cases h
  | fuel + 1, cs, items, more, h, hwhole => by
    obtain ⟨item, others, rfl, hitem | ⟨after, rest, hitem, hrest⟩⟩ := readItems_cases h
    -- An item that is broken is not whole, so the first way to stop is excluded.
    · obtain ⟨_, _, hnone, -⟩ := exists_of_readValue hitem hwhole.1
      cases hnone
    · obtain ⟨body, _, ⟨⟩, rfl, hbody⟩ := exists_of_readValue hitem hwhole.1
      obtain ⟨blank, hblank, hafter⟩ := exists_blank_append after
      rcases hrest with ⟨hskip, rfl, rfl⟩ | ⟨hskip, hothers⟩
      · rw [hskip] at hafter
        refine ⟨[] ++ body ++ blank, rest, rfl, ?_, .last blank_nil hbody hblank⟩
        rw [hafter, List.nil_append, List.append_assoc]
      · obtain ⟨otherBody, last, rfl, hother, hspells⟩ := exists_of_readItems hothers hwhole.2
        obtain ⟨blank', hblank', hrest⟩ := exists_blank_append rest
        rw [hskip, hrest, hother] at hafter
        refine ⟨[] ++ body ++ blank ++ ',' :: (blank' ++ otherBody), last, rfl, ?_,
          .more blank_nil hbody hblank (hspells.behind hblank')⟩
        rw [hafter]
        simp only [List.nil_append, List.append_assoc, List.cons_append]

/-- What has been read as whole members is a spelling of them, up to the closing brace. -/
private theorem exists_of_readMembers : ∀ {fuel : Nat} {cs : List Char}
    {members : List (Reading × Reading)} {more : Rest},
    readMembers fuel cs = (members, none, more) → WholeMembers members →
      ∃ body rest, more = some rest ∧ cs = body ++ '\x7d' :: rest ∧ SpellsMembers members body
  | 0, _, _, _, h, _ => by cases h
  | fuel + 1, cs, items, more, h, hwhole => by
    -- Without a colon there would be an absent value, which is not whole.
    obtain ⟨key, value, others, rfl, ⟨flaw, rfl⟩ | ⟨afterKey, beforeValue, hkey, hcolon, hvalue⟩⟩ :=
      readMembers_cases h
    · exact absurd hwhole.2.1 id
    obtain ⟨⟨token, rfl, -⟩, hvalueWhole, hothersWhole⟩ := hwhole
    obtain ⟨lex, rfl, hlex⟩ := exists_isLexeme_of_readValue hkey
    obtain ⟨blankKey, hblankKey, hafterKey⟩ := exists_blank_append afterKey
    obtain ⟨blankValue, hblankValue, hbeforeValue⟩ := exists_blank_append beforeValue
    rcases hvalue with hvalue | ⟨after, rest, hvalue, hrest⟩
    · obtain ⟨_, _, hnone, -⟩ := exists_of_readValue hvalue hvalueWhole
      cases hnone
    obtain ⟨body, _, ⟨⟩, hbodyText, hbody⟩ := exists_of_readValue hvalue hvalueWhole
    obtain ⟨blank, hblank, hafter⟩ := exists_blank_append after
    have hmember := SpellsMember.intro blank_nil hlex hblankKey hblankValue hbody hblank
    rcases hrest with ⟨hskip, rfl, rfl⟩ | ⟨hskip, hothers⟩
    · refine ⟨_, rest, rfl, ?_, .last hmember⟩
      rw [hskip] at hafter
      rw [hafterKey, hcolon, hbeforeValue, hbodyText, hafter]
      simp only [List.nil_append, List.append_assoc, List.cons_append]
    · obtain ⟨otherBody, last, rfl, hother, hspells⟩ := exists_of_readMembers hothers hothersWhole
      obtain ⟨blank', hblank', hrest⟩ := exists_blank_append rest
      refine ⟨_, last, rfl, ?_, .more hmember (hspells.behind hblank')⟩
      rw [hskip, hrest, hother] at hafter
      rw [hafterKey, hcolon, hbeforeValue, hbodyText, hafter]
      simp only [List.nil_append, List.append_assoc, List.cons_append]

end

/-- If `text` is read as the whole value `r`, with nothing left over, it spells `r`. -/
theorem isText_of_ofText {text : String} {r : Reading} (h : Reading.ofText text = (r, none))
    (hwhole : r.Whole) : IsText r text := by
  obtain ⟨before, hbefore, htext⟩ := exists_blank_append text.toList
  unfold Reading.ofText at h
  dsimp only at h
  split at h
  · next hread =>
    cases h
    obtain ⟨_, _, hnone, -⟩ := exists_of_readValue hread hwhole
    cases hnone
  · next after hread =>
    obtain ⟨rfl, hend⟩ := Prod.mk.inj h
    obtain ⟨body, _, ⟨⟩, hbodyText, hbody⟩ := exists_of_readValue hread hwhole
    obtain ⟨blank, hblank, hafter⟩ := exists_blank_append after
    split at hend
    · next hskip =>
      rw [hskip, List.append_nil] at hafter
      refine ⟨before, body, blank, hbefore, hbody, hblank, ?_⟩
      rw [htext, hbodyText, hafter, List.append_assoc]
    · cases hend

end KindSchema.Json
