import Mathlib.Tactic.SplitIfs
import KindSchema.Json.Basic
import KindSchema.Json.Decoding

/-!
# Reading what was written

The text of a JSON value is read back: `Reading.ofText_compact` says that the reading of the text in
one line is `Json.reading`, which has no flaws, and that nothing is left over.

* `readPiece_escapeChar`: an escape stands for the character that it was made of.
* `readValue_compactChars`: a value is read back whatever follows it, given enough fuel; two for
  each character are enough.
* `check_reading`: a value can be read in full if it does not nest more brackets than the budget.
-/

namespace KindSchema.Json

/-! ### Strings -/

private theorem hexValue?_hexDigit : ∀ n < 16, hexValue? (hexDigit n) = some n := by
  decide

/-- The four digits of a control character are read as its code point. -/
private theorem readHex_hexDigits {n : Nat} (h : n < 256) (rest : List Char) :
    readHex ('0' :: '0' :: hexDigit (n / 16) :: hexDigit (n % 16) :: rest) = .ok (n, rest) := by
  have hzero : hexValue? '0' = some 0 := rfl
  have hhigh := hexValue?_hexDigit (n / 16) (by omega)
  have hlow := hexValue?_hexDigit (n % 16) (by omega)
  have hvalue : ((0 * 16 + 0) * 16 + n / 16) * 16 + n % 16 = n := by omega
  simp only [readHex, hzero, hhigh, hlow, hvalue]

/-- A character that needs no escape stands for itself. -/
private theorem readPiece_self {c : Char} (hquote : c ≠ '"') (hbackslash : c ≠ '\\')
    (hcontrol : ¬ c.toNat < 0x20) (rest : List Char) :
    readPiece (c :: rest) = .char c rest := by
  unfold readPiece
  split
  · next heq => cases heq
  · next heq => exact absurd (List.cons.inj heq).1 hquote
  · next heq => exact absurd (List.cons.inj heq).1 hbackslash
  · next heq =>
    obtain ⟨rfl, rfl⟩ := List.cons.inj heq
    rw [if_neg hcontrol]

/-- The escape of `c` stands for `c`. -/
theorem readPiece_escapeChar (c : Char) (rest : List Char) :
    readPiece (escapeChar c ++ rest) = .char c rest := by
  unfold escapeChar
  split_ifs with hquote hbackslash hback hfeed hline hreturn htab hcontrol
  · rw [hquote]
    rfl
  · rw [hbackslash]
    rfl
  · rw [hback]
    rfl
  · rw [hfeed]
    rfl
  · rw [hline]
    rfl
  · rw [hreturn]
    rfl
  · rw [htab]
    rfl
  -- A control character is written with four digits, and is no half of a surrogate pair.
  · have hhex := readHex_hexDigits (n := c.toNat) (by omega) rest
    have hlow : isLowSurrogate c.toNat = false := by
      simp only [isLowSurrogate, Bool.and_eq_false_iff, decide_eq_false_iff_not]
      omega
    have hhigh : isHighSurrogate c.toNat = false := by
      simp only [isHighSurrogate, Bool.and_eq_false_iff, decide_eq_false_iff_not]
      omega
    simp [readPiece, readEscape, hhex, hlow, hhigh, Char.ofNat_toNat]
  · exact readPiece_self hquote hbackslash hcontrol rest

private theorem escapeChar_ne_nil (c : Char) : escapeChar c ≠ [] := by
  unfold escapeChar
  split_ifs <;> exact List.cons_ne_nil _ _

/-- Escapes make a text no shorter. -/
private theorem length_le_length_escaped (cs : List Char) :
    cs.length ≤ (cs.flatMap escapeChar).length := by
  induction cs with
  | nil => exact Nat.le_refl _
  | cons c cs ih =>
    have hpositive := List.length_pos_iff.mpr (escapeChar_ne_nil c)
    rw [List.flatMap_cons, List.length_append, List.length_cons]
    omega

/-- The characters of a string are read one after the other up to the closing quote. -/
private theorem readStringBody_escaped {cs sofar bound : List Char} (rest : List Char)
    (h : cs.length < bound.length) :
    readStringBody (.ok sofar) bound (cs.flatMap escapeChar ++ '"' :: rest) =
      (.string ⟨.ok (String.ofList (sofar.reverse ++ cs)), none⟩, some rest) := by
  induction cs generalizing sofar bound with
  | nil =>
    obtain ⟨b, bound, rfl⟩ := List.exists_cons_of_length_pos h
    rw [List.append_nil]
    rfl
  | cons c cs ih =>
    obtain ⟨b, bound, rfl⟩ := List.exists_cons_of_length_pos (Nat.lt_of_le_of_lt (Nat.zero_le _) h)
    have hbound : cs.length < bound.length := by
      rw [List.length_cons, List.length_cons] at h
      omega
    have hread : readStringBody (.ok (c :: sofar)) bound _ = _ := ih hbound
    rw [List.reverse_cons, List.append_assoc] at hread
    rw [List.flatMap_cons, List.append_assoc, readStringBody, readPiece_escapeChar]
    exact hread

/-- A string is read back after its opening quote. -/
private theorem readString_escaped (s : String) (rest : List Char) :
    readString (s.toList.flatMap escapeChar ++ '"' :: rest) =
      (.string ⟨.ok s, none⟩, some rest) := by
  have hlength := length_le_length_escaped s.toList
  have hbound : s.toList.length <
      ('"' :: (s.toList.flatMap escapeChar ++ '"' :: rest)).length := by
    rw [List.length_cons, List.length_append]
    omega
  rw [readString, readStringBody_escaped rest hbound, List.reverse_nil, List.nil_append,
    String.ofList_toList]

/-! ### Values -/

mutual

/-- The reading of a value that is written without flaws. -/
def reading : Json → Reading
  | .null => .null
  | .bool b => .bool b
  | .string s => .string ⟨.ok s, none⟩
  | .array items => .array (itemReadings items) none
  | .object members => .object (memberReadings members) none

/-- The readings of some items. -/
def itemReadings : List Json → List Reading
  | [] => []
  | item :: items => reading item :: itemReadings items

/-- The readings of some members. -/
def memberReadings : List (String × Json) → List (Reading × Reading)
  | [] => []
  | (key, value) :: members => (.string ⟨.ok key, none⟩, reading value) :: memberReadings members

end

theorem skipSpace_of_not_isSpace {c : Char} (h : isSpace c = false) (cs : List Char) :
    skipSpace (c :: cs) = c :: cs := by
  rw [skipSpace, List.dropWhile_cons_of_neg]
  rw [h]
  exact Bool.false_ne_true

/-- The text of a value begins with neither space nor a closing bracket. -/
private theorem exists_compactChars_eq (j : Json) :
    ∃ c cs, j.compactChars = c :: cs ∧ isSpace c = false ∧ c ≠ ']' := by
  cases j with
  | null => exact ⟨_, _, rfl, rfl, by decide⟩
  | bool b => cases b <;> exact ⟨_, _, rfl, rfl, by decide⟩
  | string s => exact ⟨_, _, rfl, rfl, by decide⟩
  | array items =>
    rw [compactChars]
    exact ⟨_, _, rfl, rfl, by decide⟩
  | object members =>
    rw [compactChars]
    exact ⟨_, _, rfl, rfl, by decide⟩

private theorem skipSpace_compactChars (j : Json) (rest : List Char) :
    skipSpace (j.compactChars ++ rest) = j.compactChars ++ rest := by
  obtain ⟨c, cs, hcs, hspace, -⟩ := exists_compactChars_eq j
  rw [hcs]
  exact skipSpace_of_not_isSpace hspace _

/-- The string of `s` is read back with its quotes. -/
theorem readScalar_stringChars (s : String) (rest : List Char) :
    readScalar (stringChars s ++ rest) = (.string ⟨.ok s, none⟩, some rest) := by
  have htext : stringChars s ++ rest =
      '"' :: (s.toList.flatMap escapeChar ++ '"' :: rest) := by
    rw [stringChars, List.cons_append, List.cons_append, List.append_assoc]
    rfl
  rw [htext, ← readString_escaped s rest]
  rfl

/-- A string stands as a value or as a key. -/
private theorem readValue_stringChars (s : String) {fuel : Nat} (rest : List Char)
    (hfuel : 0 < fuel) :
    readValue fuel (stringChars s ++ rest) = (.string ⟨.ok s, none⟩, some rest) := by
  obtain ⟨fuel, rfl⟩ := Nat.exists_eq_add_of_lt hfuel
  rw [← readScalar_stringChars s rest]
  rfl

private theorem compactItems_cons (item next : Json) (items : List Json) :
    compactItems (item :: next :: items) =
      item.compactChars ++ ',' :: compactItems (next :: items) :=
  rfl

private theorem compactMembers_cons (key : String) (value : Json) (next : String × Json)
    (members : List (String × Json)) :
    compactMembers ((key, value) :: next :: members) =
      stringChars key ++ ':' :: value.compactChars ++ ',' :: compactMembers (next :: members) :=
  rfl

/-- The text of some items begins as that of the first. -/
private theorem exists_compactItems_eq (item : Json) (items : List Json) :
    ∃ more, compactItems (item :: items) = item.compactChars ++ more := by
  cases items with
  | nil => exact ⟨[], by rw [compactItems, List.append_nil]⟩
  | cons next items => exact ⟨_, compactItems_cons item next items⟩

private theorem skipSpace_compactItems (item : Json) (items : List Json) (rest : List Char) :
    skipSpace (compactItems (item :: items) ++ rest) = compactItems (item :: items) ++ rest := by
  obtain ⟨more, hmore⟩ := exists_compactItems_eq item items
  rw [hmore, List.append_assoc]
  exact skipSpace_compactChars item _

/-- The text of some members begins with a quote. -/
private theorem exists_compactMembers_eq (member : String × Json) (members : List (String × Json)) :
    ∃ more, compactMembers (member :: members) = '"' :: more := by
  obtain ⟨key, value⟩ := member
  cases members with
  | nil => exact ⟨_, by rw [compactMembers, stringChars, List.cons_append, List.cons_append]⟩
  | cons next members =>
    exact ⟨_, by rw [compactMembers_cons, stringChars, List.cons_append, List.cons_append,
      List.cons_append]⟩

private theorem skipSpace_compactMembers (member : String × Json) (members : List (String × Json))
    (rest : List Char) : skipSpace (compactMembers (member :: members) ++ rest) =
      compactMembers (member :: members) ++ rest := by
  obtain ⟨more, hmore⟩ := exists_compactMembers_eq member members
  rw [hmore]
  exact skipSpace_of_not_isSpace rfl _

section Brackets

variable {fuel : Nat} {cs cs' : List Char} {c : Char} {finish : Option Flaw} {more : Rest}

/-- An array that is not closed at once is read as its items. -/
theorem readValue_bracket {items : List Reading} (hskip : skipSpace cs = c :: cs') (hc : c ≠ ']')
    (h : readItems fuel (skipSpace cs) = (items, finish, more)) :
    readValue (fuel + 1) ('[' :: cs) = (.array items finish, more) := by
  rw [readValue]
  split
  · next heq => rw [hskip] at heq; cases heq
  · next heq => rw [hskip] at heq; exact absurd (List.cons.inj heq).1 hc
  · rw [h]

/-- An object that is not closed at once is read as its members. -/
theorem readValue_brace {members : List (Reading × Reading)} (hskip : skipSpace cs = c :: cs')
    (hc : c ≠ '\x7d') (h : readMembers fuel (skipSpace cs) = (members, finish, more)) :
    readValue (fuel + 1) ('\x7b' :: cs) = (.object members finish, more) := by
  rw [readValue]
  split
  · next heq => rw [hskip] at heq; cases heq
  · next heq => rw [hskip] at heq; exact absurd (List.cons.inj heq).1 hc
  · rw [h]

end Brackets

/-- An array that is not empty is read as its items. -/
private theorem readValue_array {fuel : Nat} {item : Json} {items : List Json} {rest : List Char}
    {readings : List Reading} {more : Rest}
    (h : readItems fuel (compactItems (item :: items) ++ ']' :: rest) = (readings, none, more)) :
    readValue (fuel + 1) ((Json.array (item :: items)).compactChars ++ rest) =
      (.array readings none, more) := by
  obtain ⟨tail, htail⟩ := exists_compactItems_eq item items
  obtain ⟨c, cs, hcs, -, hc⟩ := exists_compactChars_eq item
  have hskip := skipSpace_compactItems item items (']' :: rest)
  rw [← hskip] at h
  rw [htail, hcs] at hskip
  rw [compactChars, List.cons_append, List.cons_append, List.append_assoc, List.singleton_append]
  rw [htail, hcs] at h ⊢
  exact readValue_bracket hskip hc h

/-- An object that is not empty is read as its members. -/
private theorem readValue_object {fuel : Nat} {member : String × Json}
    {members : List (String × Json)} {rest : List Char} {readings : List (Reading × Reading)}
    {more : Rest}
    (h : readMembers fuel (compactMembers (member :: members) ++ '\x7d' :: rest) =
      (readings, none, more)) :
    readValue (fuel + 1) ((Json.object (member :: members)).compactChars ++ rest) =
      (.object readings none, more) := by
  obtain ⟨tail, htail⟩ := exists_compactMembers_eq member members
  have hskip := skipSpace_compactMembers member members ('\x7d' :: rest)
  rw [← hskip] at h
  rw [htail] at hskip
  rw [compactChars, List.cons_append, List.cons_append, List.append_assoc, List.singleton_append]
  rw [htail] at h ⊢
  exact readValue_brace hskip (by decide) h

section Steps

variable {fuel : Nat} {cs afterKey beforeValue afterValue rest : List Char}
  {item key value : Reading} {more : Rest}

/-- A closing bracket ends the items. -/
theorem readItems_bracket (hitem : readValue fuel cs = (item, some afterValue))
    (hbracket : skipSpace afterValue = ']' :: rest) :
    readItems (fuel + 1) cs = ([item], none, some rest) := by
  simp only [readItems, hitem, hbracket]

/-- After a comma there are further items. -/
theorem readItems_comma {items : List Reading} {finish : Option Flaw}
    (hitem : readValue fuel cs = (item, some afterValue))
    (hcomma : skipSpace afterValue = ',' :: rest)
    (hitems : readItems fuel (skipSpace rest) = (items, finish, more)) :
    readItems (fuel + 1) cs = (item :: items, finish, more) := by
  simp only [readItems, hitem, hcomma, hitems]

/-- A closing brace ends the members. -/
theorem readMembers_brace (hkey : readValue fuel cs = (key, some afterKey))
    (hcolon : skipSpace afterKey = ':' :: beforeValue)
    (hvalue : readValue fuel (skipSpace beforeValue) = (value, some afterValue))
    (hbrace : skipSpace afterValue = '\x7d' :: rest) :
    readMembers (fuel + 1) cs = ([(key, value)], none, some rest) := by
  simp only [readMembers, hkey, hcolon, hvalue, hbrace]

/-- After a comma there are further members. -/
theorem readMembers_comma {members : List (Reading × Reading)} {finish : Option Flaw}
    (hkey : readValue fuel cs = (key, some afterKey))
    (hcolon : skipSpace afterKey = ':' :: beforeValue)
    (hvalue : readValue fuel (skipSpace beforeValue) = (value, some afterValue))
    (hcomma : skipSpace afterValue = ',' :: rest)
    (hmembers : readMembers fuel (skipSpace rest) = (members, finish, more)) :
    readMembers (fuel + 1) cs = ((key, value) :: members, finish, more) := by
  simp only [readMembers, hkey, hcolon, hvalue, hcomma, hmembers]

end Steps

/-- A value has some text. -/
private theorem length_compactChars_pos (j : Json) : 0 < j.compactChars.length := by
  obtain ⟨c, cs, hcs, -, -⟩ := exists_compactChars_eq j
  rw [hcs]
  exact Nat.succ_pos _

mutual

/-- The value `j` is read back, whatever follows it. -/
theorem readValue_compactChars : ∀ (j : Json) (fuel : Nat) (rest : List Char),
    2 * j.compactChars.length ≤ fuel →
      readValue fuel (j.compactChars ++ rest) = (j.reading, some rest)
  | .null, fuel + 1, _, _ => rfl
  | .bool true, fuel + 1, _, _ => rfl
  | .bool false, fuel + 1, _, _ => rfl
  | .string s, fuel, rest, hfuel => by
    have hpositive := length_compactChars_pos (.string s)
    rw [compactChars]
    exact readValue_stringChars s rest (by omega)
  | .array [], fuel + 1, _, _ => rfl
  | .array (item :: items), fuel + 1, rest, hfuel => by
    refine readValue_array
      (readItems_compactItems (item :: items) fuel rest (List.cons_ne_nil _ _) ?_)
    rw [compactChars, List.length_append, List.length_cons, List.length_singleton] at hfuel
    omega
  | .object [], fuel + 1, _, _ => rfl
  | .object (member :: members), fuel + 1, rest, hfuel => by
    refine readValue_object
      (readMembers_compactMembers (member :: members) fuel rest (List.cons_ne_nil _ _) ?_)
    rw [compactChars, List.length_append, List.length_cons, List.length_singleton] at hfuel
    omega
  | j, 0, _, hfuel => by
    have hpositive := length_compactChars_pos j
    omega

/-- The items of an array are read back up to the closing bracket, if `fuel` is enough for them. -/
theorem readItems_compactItems : ∀ (items : List Json) (fuel : Nat) (rest : List Char),
    items ≠ [] → 2 * (compactItems items).length + 1 ≤ fuel →
      readItems fuel (compactItems items ++ ']' :: rest) = (itemReadings items, none, some rest)
  | [item], fuel + 1, rest, _, hfuel => by
    rw [compactItems] at hfuel ⊢
    have hitem := readValue_compactChars item fuel (']' :: rest) (by omega)
    exact readItems_bracket hitem (skipSpace_of_not_isSpace rfl _)
  | item :: next :: items, fuel + 1, rest, _, hfuel => by
    rw [compactItems_cons, List.length_append, List.length_cons] at hfuel
    -- Every item takes some of the fuel and leaves enough for the others.
    have hpositive := length_compactChars_pos item
    have hitem := readValue_compactChars item fuel
      (',' :: (compactItems (next :: items) ++ ']' :: rest)) (by omega)
    have hitems := readItems_compactItems (next :: items) fuel rest (List.cons_ne_nil _ _)
      (by omega)
    rw [← skipSpace_compactItems next items] at hitems
    rw [compactItems_cons, List.append_assoc, List.cons_append]
    exact readItems_comma hitem (skipSpace_of_not_isSpace rfl _) hitems
  | [], _, _, hne, _ => absurd rfl hne
  | _ :: _, 0, _, _, hfuel => absurd hfuel (by omega)

/-- The members of an object are read back up to the closing brace, if `fuel` is enough for them. -/
theorem readMembers_compactMembers : ∀ (members : List (String × Json)) (fuel : Nat)
    (rest : List Char), members ≠ [] → 2 * (compactMembers members).length + 1 ≤ fuel →
      readMembers fuel (compactMembers members ++ '\x7d' :: rest) =
        (memberReadings members, none, some rest)
  | [(key, value)], fuel + 1, rest, _, hfuel => by
    rw [compactMembers, List.length_append, List.length_cons] at hfuel
    have hkey : readValue fuel _ = _ := readValue_stringChars key
      (':' :: (value.compactChars ++ '\x7d' :: rest)) (by omega)
    have hvalue := readValue_compactChars value fuel ('\x7d' :: rest) (by omega)
    rw [← skipSpace_compactChars value] at hvalue
    rw [compactMembers, List.append_assoc, List.cons_append]
    exact readMembers_brace hkey (skipSpace_of_not_isSpace rfl _) hvalue
      (skipSpace_of_not_isSpace rfl _)
  | (key, value) :: next :: members, fuel + 1, rest, _, hfuel => by
    rw [compactMembers_cons, List.length_append, List.length_append, List.length_cons,
      List.length_cons] at hfuel
    have hkey : readValue fuel _ = _ := readValue_stringChars key
      (':' :: (value.compactChars ++ ',' :: (compactMembers (next :: members) ++ '\x7d' :: rest)))
      (by omega)
    have hvalue := readValue_compactChars value fuel
      (',' :: (compactMembers (next :: members) ++ '\x7d' :: rest)) (by omega)
    have hmembers := readMembers_compactMembers (next :: members) fuel rest
      (List.cons_ne_nil _ _) (by omega)
    rw [← skipSpace_compactChars value] at hvalue
    rw [← skipSpace_compactMembers next members] at hmembers
    rw [compactMembers_cons, List.append_assoc, List.append_assoc, List.cons_append,
      List.cons_append]
    exact readMembers_comma hkey (skipSpace_of_not_isSpace rfl _) hvalue
      (skipSpace_of_not_isSpace rfl _) hmembers
  | [], _, _, hne, _ => absurd rfl hne
  | _ :: _, 0, _, _, hfuel => absurd hfuel (by omega)

end

/-- The text of `j` in one line is read back, and nothing is left over. -/
theorem Reading.ofText_compact (j : Json) : Reading.ofText j.compact = (j.reading, none) := by
  have hspace : skipSpace j.compactChars = j.compactChars := by
    have hspace := skipSpace_compactChars j []
    rw [List.append_nil] at hspace
    exact hspace
  have hread := readValue_compactChars j (2 * j.compactChars.length + 2) [] (by omega)
  rw [List.append_nil] at hread
  unfold ofText
  dsimp only
  rw [compact, String.toList_ofList, hspace, hread]
  rfl

/-! ### Nesting -/

mutual

/-- How many brackets are nested in a value. -/
def depth : Json → Nat
  | .null => 0
  | .bool _ => 0
  | .string _ => 0
  | .array items => itemsDepth items + 1
  | .object members => membersDepth members + 1

/-- How many brackets are nested in some items. -/
def itemsDepth : List Json → Nat
  | [] => 0
  | item :: items => max item.depth (itemsDepth items)

/-- How many brackets are nested in the values of some members. -/
def membersDepth : List (String × Json) → Nat
  | [] => 0
  | (_, value) :: members => max value.depth (membersDepth members)

end

private theorem itemsDepth_le_iff {items : List Json} {n : Nat} :
    itemsDepth items ≤ n ↔ ∀ item ∈ items, item.depth ≤ n := by
  induction items with
  | nil => simp [itemsDepth]
  | cons item items ih => rw [itemsDepth, Nat.max_le, ih, List.forall_mem_cons]

private theorem membersDepth_le_iff {members : List (String × Json)} {n : Nat} :
    membersDepth members ≤ n ↔ ∀ member ∈ members, member.2.depth ≤ n := by
  induction members with
  | nil => simp [membersDepth]
  | cons member members ih => rw [membersDepth, Nat.max_le, ih, List.forall_mem_cons]

theorem depth_array_le_iff {items : List Json} {n : Nat} :
    (Json.array items).depth ≤ n ↔ ∃ m, n = m + 1 ∧ ∀ item ∈ items, item.depth ≤ m := by
  cases n with
  | zero => simp [depth]
  | succ n => simp [depth, itemsDepth_le_iff]

theorem depth_object_le_iff {members : List (String × Json)} {n : Nat} :
    (Json.object members).depth ≤ n ↔ ∃ m, n = m + 1 ∧ ∀ member ∈ members, member.2.depth ≤ m := by
  cases n with
  | zero => simp [depth]
  | succ n => simp [depth, membersDepth_le_iff]

/-- The list of `lines` nests one bracket, even if it is empty. -/
theorem depth_texts (lines : List String) : (texts lines).depth = 1 := by
  have hitems : itemsDepth (lines.map .string) ≤ 0 := by
    refine itemsDepth_le_iff.mpr fun item hitem => ?_
    obtain ⟨line, -, rfl⟩ := List.mem_map.mp hitem
    exact Nat.le_refl _
  rw [texts, depth]
  omega

mutual

/-- The value `j` can be read in full if it does not nest more brackets than `budget`. -/
theorem check_reading : ∀ (j : Json) (budget : Nat), j.depth ≤ budget →
    j.reading.check budget = .ok ()
  | .null, _, _ => rfl
  | .bool _, _, _ => rfl
  | .string _, _, _ => rfl
  | .array items, budget + 1, hdepth => by
    have hitems := checkItems_reading items budget (Nat.le_of_succ_le_succ hdepth)
    rw [reading, Reading.check, hitems]
    · rfl
    · exact fun _ hflaw => nomatch hflaw
  | .object members, budget + 1, hdepth => by
    have hmembers := checkMembers_reading members budget (Nat.le_of_succ_le_succ hdepth)
    rw [reading, Reading.check, hmembers]
    · rfl
    · exact fun _ hflaw => nomatch hflaw

theorem checkItems_reading : ∀ (items : List Json) (budget : Nat), itemsDepth items ≤ budget →
    checkItems budget (itemReadings items) = .ok ()
  | [], _, _ => rfl
  | item :: items, budget, hdepth => by
    obtain ⟨hitem, hitems⟩ := Nat.max_le.mp hdepth
    rw [itemReadings, checkItems, check_reading item budget hitem]
    exact checkItems_reading items budget hitems

theorem checkMembers_reading : ∀ (members : List (String × Json)) (budget : Nat),
    membersDepth members ≤ budget → checkMembers budget (memberReadings members) = .ok ()
  | [], _, _ => rfl
  | (key, value) :: members, budget, hdepth => by
    obtain ⟨hvalue, hmembers⟩ := Nat.max_le.mp hdepth
    rw [memberReadings, checkMembers, check_reading value budget hvalue]
    exact checkMembers_reading members budget hmembers

end

end KindSchema.Json
