import Mathlib.Data.List.Forall2
import Mathlib.Data.String.Basic
import KindSchema.Json.Basic
import KindSchema.Json.Reading
import KindSchema.Text.Pieces

/-!
# JSON Pointers

A JSON Pointer writes a path into a document: each token of the path stands behind a slash, and in
a token `~1` stands for a slash and `~0` for a tilde. A reference within a document is a `#` and a
pointer, in which `%` and two hexadecimal digits stand for an octet of UTF-8. All other characters
stand for themselves.

* `Json.part?`: the part of a value to which a path leads.
* `Json.fragmentPath?`: the path that a reference is read as.
* `Json.fragmentPath?_plainFragment_iff`: a path that is written without any escapes is read back
  exactly if its tokens need none.
-/

namespace KindSchema.Json

/-! ### Paths -/

/-- The parts of a value, with the tokens that lead to them: the values of the members of an object
by their keys, the items of an array by their numbers. -/
def parts : Json → List (String × Json)
  | .object members => members
  | .array items => items.mapIdx fun i item => (toString i, item)
  | .null | .bool _ | .string _ => []

/-- The part of `value` to which `path` leads. -/
def part? (value : Json) (path : List String) : Option Json :=
  path.foldlM (fun value token => value.parts.lookup token) value

@[simp]
theorem part?_nil (value : Json) : value.part? [] = some value :=
  rfl

@[simp]
theorem part?_cons (value : Json) (token : String) (path : List String) :
    value.part? (token :: path) = (value.parts.lookup token).bind (·.part? path) :=
  List.foldlM_cons

/-! ### Percent signs -/

/-- The octets that a text stands for in which `%` and two hexadecimal digits stand for one octet.
A percent sign without two digits behind it makes no sense. -/
def percentDecoded? : List Char → Option (List UInt8)
  | [] => some []
  | '%' :: high :: low :: rest => do
    let high ← hexValue? high
    let low ← hexValue? low
    return UInt8.ofNat (16 * high + low) :: (← percentDecoded? rest)
  | '%' :: _ => none
  | c :: rest => do return String.utf8EncodeChar c ++ (← percentDecoded? rest)

/-- The text that the part of a reference behind its `#` stands for. -/
def fragmentText? (fragment : List Char) : Option String := do
  String.fromUTF8? (← percentDecoded? fragment).toByteArray

/-- Without percent signs, the octets of a text are its own. -/
private theorem percentDecoded?_of_not_mem {cs : List Char} (h : '%' ∉ cs) :
    percentDecoded? cs = some (cs.flatMap String.utf8EncodeChar) := by
  induction cs with
  | nil => rfl
  | cons c cs ih =>
    obtain ⟨hc, hcs⟩ := List.ne_and_not_mem_of_not_mem_cons h
    rw [percentDecoded?, ih hcs, List.flatMap_cons]
    · rfl
    · rintro _ _ _ rfl
      exact absurd rfl hc
    · exact fun hpercent => absurd hpercent.symm hc

/-- A text stands for fewer octets than it has, unless it has no percent sign. -/
private theorem length_percentDecoded? {cs : List Char} {octets : List UInt8}
    (h : percentDecoded? cs = some octets) : octets.length < String.utf8Len cs ∨
      '%' ∉ cs ∧ octets.length = String.utf8Len cs := by
  -- Three characters make one octet, and any other character makes as many octets as it has.
  fun_induction percentDecoded? cs generalizing octets with
  | case1 =>
    obtain rfl := Option.some.inj h
    exact .inr ⟨List.not_mem_nil, rfl⟩
  | case2 high low rest ih =>
    obtain ⟨_, -, h⟩ := Option.bind_eq_some_iff.mp h
    obtain ⟨_, -, h⟩ := Option.bind_eq_some_iff.mp h
    obtain ⟨octets, hrest, h⟩ := Option.bind_eq_some_iff.mp h
    obtain rfl := Option.some.inj h
    have hle : octets.length ≤ String.utf8Len rest := by
      rcases ih hrest with hlt | ⟨-, heq⟩ <;> omega
    have hhigh := high.utf8Size_pos
    have hlow := low.utf8Size_pos
    refine .inl ?_
    simp only [List.length_cons, String.utf8Len_cons]
    omega
  | case3 => cases h
  | case4 c rest _ hpercent ih =>
    obtain ⟨octets, hrest, h⟩ := Option.bind_eq_some_iff.mp h
    obtain rfl := Option.some.inj h
    rw [List.length_append, String.length_utf8EncodeChar, String.utf8Len_cons]
    rcases ih hrest with hlt | ⟨hmem, heq⟩
    · exact .inl (by omega)
    · refine .inr ⟨fun hcons => ?_, by omega⟩
      rcases List.mem_cons.mp hcons with hc | hcs
      · exact hpercent hc.symm
      · exact hmem hcs

theorem fromUTF8?_eq_some_iff {octets : ByteArray} {text : String} :
    String.fromUTF8? octets = some text ↔ text.toByteArray = octets := by
  unfold String.fromUTF8?
  split
  · next hvalid =>
    rw [Option.some.injEq, ← String.toByteArray_inj]
    exact eq_comm
  · next hvalid =>
    refine iff_of_false (Option.some_ne_none text).symm fun h => hvalid ?_
    rw [← h]
    exact text.isValidUTF8

private theorem fragmentText?_of_not_mem {cs : List Char} (h : '%' ∉ cs) :
    fragmentText? cs = some (String.ofList cs) := by
  rw [fragmentText?, percentDecoded?_of_not_mem h]
  exact fromUTF8?_eq_some_iff.mpr String.toByteArray_ofList

/-- A fragment stands for a shorter text, unless it has no percent sign. -/
private theorem utf8Len_fragmentText? {cs : List Char} {text : String}
    (h : fragmentText? cs = some text) :
    String.utf8Len text.toList < String.utf8Len cs ∨ '%' ∉ cs ∧ text = String.ofList cs := by
  obtain ⟨octets, hoctets, htext⟩ := Option.bind_eq_some_iff.mp h
  have hlength : String.utf8Len text.toList = octets.length := by
    rw [← String.utf8ByteSize_ofList, String.ofList_toList, ← String.size_toByteArray,
      fromUTF8?_eq_some_iff.mp htext, List.size_toByteArray]
  rcases length_percentDecoded? hoctets with hlt | ⟨hmem, -⟩
  · exact .inl (hlength ▸ hlt)
  · exact .inr ⟨hmem, Option.some.inj (h.symm.trans (fragmentText?_of_not_mem hmem))⟩

/-! ### Tokens -/

/-- The text that a token stands for in which `~1` is a slash and `~0` a tilde. Any other tilde
makes no sense. -/
def unescaped? : List Char → Option (List Char)
  | [] => some []
  | '~' :: '0' :: rest => (unescaped? rest).map ('~' :: ·)
  | '~' :: '1' :: rest => (unescaped? rest).map ('/' :: ·)
  | '~' :: _ => none
  | c :: rest => (unescaped? rest).map (c :: ·)

/-- The path that `pointer` writes. -/
def pointerPath? (pointer : String) : Option (List String) :=
  match pieces (· == '/') pointer.toList with
  | [] :: tokens => (tokens.mapM unescaped?).map fun texts => texts.map String.ofList
  | _ => none

/-- The path within the document that the reference `target` is read as. -/
def fragmentPath? (target : String) : Option (List String) :=
  match target.toList with
  | '#' :: fragment => (fragmentText? fragment).bind pointerPath?
  | _ => none

private theorem unescaped?_of_not_mem {token : List Char} (h : '~' ∉ token) :
    unescaped? token = some token := by
  induction token with
  | nil => rfl
  | cons c token ih =>
    obtain ⟨hc, htoken⟩ := List.ne_and_not_mem_of_not_mem_cons h
    rw [unescaped?, ih htoken]
    · rfl
    · rintro _ rfl
      exact absurd rfl hc
    · rintro _ rfl
      exact absurd rfl hc
    · exact fun htilde => absurd htilde.symm hc

/-- A token stands for a shorter text, unless it has no tilde. -/
private theorem utf8Len_unescaped? {token text : List Char} (h : unescaped? token = some text) :
    String.utf8Len text < String.utf8Len token ∨ '~' ∉ token ∧ text = token := by
  -- The induction follows the reader: an escape takes two characters for one.
  fun_induction unescaped? token generalizing text with
  | case1 =>
    obtain rfl := Option.some.inj h
    exact .inr ⟨List.not_mem_nil, rfl⟩
  | case2 rest ih | case3 rest ih =>
    obtain ⟨rest', hrest, rfl⟩ := Option.map_eq_some_iff.mp h
    have hle : String.utf8Len rest' ≤ String.utf8Len rest := by
      rcases ih hrest with hlt | ⟨-, rfl⟩ <;> omega
    have hslash : '/'.utf8Size = '~'.utf8Size := rfl
    have hzero := '0'.utf8Size_pos
    have hone := '1'.utf8Size_pos
    refine .inl ?_
    simp only [String.utf8Len_cons]
    omega
  | case4 => cases h
  | case5 c rest _ _ htilde ih =>
    obtain ⟨rest', hrest, rfl⟩ := Option.map_eq_some_iff.mp h
    rw [String.utf8Len_cons, String.utf8Len_cons]
    rcases ih hrest with hlt | ⟨hmem, rfl⟩
    · exact .inl (by omega)
    · refine .inr ⟨fun hcons => ?_, rfl⟩
      rcases List.mem_cons.mp hcons with hc | hrest
      · exact htilde hc.symm
      · exact hmem hrest

/-! ### Pointers -/

/-- The text of `tokens`, each behind a slash. -/
def slashed (tokens : List (List Char)) : List Char :=
  tokens.flatMap ('/' :: ·)

@[simp]
theorem slashed_nil : slashed [] = [] :=
  rfl

@[simp]
theorem slashed_cons (token : List Char) (tokens : List (List Char)) :
    slashed (token :: tokens) = '/' :: (token ++ slashed tokens) :=
  List.flatMap_cons

/-- Tokens without slashes are the pieces of their text. -/
private theorem pieces_append_slashed {before : List Char} {tokens : List (List Char)}
    (hbefore : '/' ∉ before) (htokens : ∀ token ∈ tokens, '/' ∉ token) :
    pieces (· == '/') (before ++ slashed tokens) = before :: tokens := by
  -- What is before the first slash becomes the next token, so that it has to vary.
  induction tokens generalizing before with
  | nil => rw [slashed_nil, List.append_nil, pieces_of_not_mem hbefore]
  | cons token tokens ih =>
    obtain ⟨htoken, htokens⟩ := List.forall_mem_cons.mp htokens
    rw [slashed_cons, pieces_append_break rfl, pieces_of_not_mem hbefore, ih htoken htokens,
      List.singleton_append]

/-- The text whose pieces are nothing and some tokens. -/
private theorem eq_slashed_of_pieces {cs : List Char} {tokens : List (List Char)}
    (h : pieces (· == '/') cs = [] :: tokens) : cs = slashed tokens := by
  have hjoined (before : List Char) (tokens : List (List Char)) :
      ['/'].intercalate (before :: tokens) = before ++ slashed tokens := by
    induction tokens generalizing before with
    | nil => rw [List.intercalate_singleton, slashed_nil, List.append_nil]
    | cons token tokens ih =>
      rw [List.intercalate_cons_cons, ih, slashed_cons, List.append_assoc, List.singleton_append]
  rw [← intercalate_pieces '/' cs, h, hjoined, List.nil_append]

/-- Tokens stand for shorter texts, unless they have no tildes. -/
private theorem utf8Len_slashed {tokens texts : List (List Char)}
    (h : List.Forall₂ (fun token text => unescaped? token = some text) tokens texts) :
    String.utf8Len (slashed texts) < String.utf8Len (slashed tokens) ∨
      (∀ token ∈ tokens, '~' ∉ token) ∧ texts = tokens := by
  induction h with
  | nil => exact .inr ⟨List.forall_mem_nil _, rfl⟩
  | @cons token text tokens texts htext _ ih =>
    simp only [slashed_cons, String.utf8Len_cons, String.utf8Len_append]
    rcases utf8Len_unescaped? htext with hlt | ⟨htoken, rfl⟩ <;>
      rcases ih with hlt' | ⟨htokens, rfl⟩
    · exact .inl (by omega)
    · exact .inl (by omega)
    · exact .inl (by omega)
    · exact .inr ⟨List.forall_mem_cons.mpr ⟨htoken, htokens⟩, rfl⟩

/-- A function that may have no result has one on a list if it has one on each element. -/
private theorem mapM_eq_some_iff {α β : Type} {f : α → Option β} {l : List α} {bs : List β} :
    l.mapM f = some bs ↔ List.Forall₂ (fun a b => f a = some b) l bs := by
  induction l generalizing bs with
  | nil =>
    rw [List.mapM_nil, List.forall₂_nil_left_iff]
    exact Option.some_inj.trans eq_comm
  | cons a l ih =>
    rw [List.mapM_cons, List.forall₂_cons_left_iff]
    constructor
    · intro h
      obtain ⟨b, hb, h⟩ := Option.bind_eq_some_iff.mp h
      obtain ⟨rest, hrest, h⟩ := Option.bind_eq_some_iff.mp h
      exact ⟨b, rest, hb, ih.mp hrest, (Option.some.inj h).symm⟩
    · rintro ⟨b, rest, hb, hrest, rfl⟩
      rw [hb, ih.mpr hrest]
      rfl

/-- A path whose tokens have neither slashes nor tildes is read from their text. -/
private theorem pointerPath?_slashed {path : List String}
    (h : ∀ token ∈ path, '/' ∉ token.toList ∧ '~' ∉ token.toList) :
    pointerPath? (String.ofList (slashed (path.map (·.toList)))) = some path := by
  have hpieces : pieces (· == '/') (slashed (path.map (·.toList))) = [] :: path.map (·.toList) :=
    pieces_append_slashed List.not_mem_nil
      (List.forall_mem_map.mpr fun token htoken => (h token htoken).1)
  have htokens : (path.map (·.toList)).mapM unescaped? = some (path.map (·.toList)) := by
    refine mapM_eq_some_iff.mpr (List.forall₂_same.mpr (List.forall_mem_map.mpr ?_))
    exact fun token htoken => unescaped?_of_not_mem (h token htoken).2
  rw [pointerPath?, String.toList_ofList, hpieces]
  simp [htokens]

/-- A pointer is longer than the tokens of its path with their slashes, unless it has no escapes. -/
private theorem utf8Len_pointerPath? {pointer : String} {path : List String}
    (h : pointerPath? pointer = some path) :
    String.utf8Len (slashed (path.map (·.toList))) < String.utf8Len pointer.toList ∨
      (∀ token ∈ path, '/' ∉ token.toList ∧ '~' ∉ token.toList) ∧
        pointer.toList = slashed (path.map (·.toList)) := by
  unfold pointerPath? at h
  split at h
  · next tokens hpieces =>
    obtain ⟨texts, htexts, rfl⟩ := Option.map_eq_some_iff.mp h
    have hback : (texts.map String.ofList).map (·.toList) = texts := by simp
    have hslash : ∀ token ∈ tokens, '/' ∉ token := by
      intro token htoken hmem
      have hpiece : token ∈ pieces (· == '/') pointer.toList :=
        hpieces ▸ List.mem_cons_of_mem _ htoken
      exact absurd (mem_of_mem_pieces hpiece hmem).2 (by decide)
    rw [eq_slashed_of_pieces hpieces, hback]
    rcases utf8Len_slashed (mapM_eq_some_iff.mp htexts) with hlt | ⟨htilde, rfl⟩
    · exact .inl hlt
    · refine .inr ⟨List.forall_mem_map.mpr fun token htoken => ?_, rfl⟩
      rw [String.toList_ofList]
      exact ⟨hslash token htoken, htilde token htoken⟩
  · cases h

/-! ### References -/

/-- A reference to `path` that writes its tokens as they are. -/
def plainFragment (path : List String) : String :=
  String.ofList ('#' :: slashed (path.map (·.toList)))

/-- That `token` has none of the characters that have to be escaped to stand for themselves. -/
def NeedsNoEscape (token : String) : Prop :=
  ('/' ∉ token.toList ∧ '~' ∉ token.toList) ∧ '%' ∉ token.toList

instance (token : String) : Decidable (NeedsNoEscape token) :=
  inferInstanceAs (Decidable (_ ∧ _))

/-- The path `path` that is written without any escapes is read back exactly if its tokens need
none. -/
theorem fragmentPath?_plainFragment_iff {path : List String} :
    fragmentPath? (plainFragment path) = some path ↔ ∀ token ∈ path, NeedsNoEscape token := by
  have hread : fragmentPath? (plainFragment path) =
      (fragmentText? (slashed (path.map (·.toList)))).bind pointerPath? := by
    rw [plainFragment, fragmentPath?, String.toList_ofList]
    rfl
  have hpercent : '%' ∉ slashed (path.map (·.toList)) ↔ ∀ token ∈ path, '%' ∉ token.toList := by
    simp [slashed]
  have hplain : (∀ token ∈ path, NeedsNoEscape token) ↔
      (∀ token ∈ path, '/' ∉ token.toList ∧ '~' ∉ token.toList) ∧
        '%' ∉ slashed (path.map (·.toList)) := by
    rw [hpercent]
    exact forall₂_and
  rw [hread, hplain]
  constructor
  · intro h
    obtain ⟨pointer, hpointer, hpath⟩ := Option.bind_eq_some_iff.mp h
    -- Every escape would make the text shorter on its way to the path, whose own text it is.
    rcases utf8Len_pointerPath? hpath with hlt | ⟨htokens, htext⟩ <;>
      rcases utf8Len_fragmentText? hpointer with hlt' | ⟨hmem, rfl⟩
    · omega
    · rw [String.toList_ofList] at hlt
      omega
    · rw [htext] at hlt'
      omega
    · exact ⟨htokens, hmem⟩
  · rintro ⟨htokens, hmem⟩
    rw [fragmentText?_of_not_mem hmem]
    exact pointerPath?_slashed htokens

-- With its escape, the slash in a token is read back, too.
example : fragmentPath? "#/definitions/Media~1Image" = some ["definitions", "Media/Image"] := by
  decide

end KindSchema.Json
