import KindSchema.Go.Conversion
import KindSchema.Proofs.Go.Literals
import KindSchema.Proofs.Go.Expressible

/-!
# Tags of Go structs

The tag of a field is a raw string. It holds entries, each of a key and a literal in double quotes,
and the value for the key `json` is the name of the field in JSON with some options, between commas.

* `fieldTag?`: how the tag of a field is read.
* `fieldTag?_tagText_iff`: the tag that is written for a key is read back as the key exactly if the
  key has none of the characters that mean something in one of the three notations.
* `tags_readBack_iff`: so it is for all fields of a struct that has a Go type.
-/

namespace KindSchema

namespace Go

/-! ### Reading -/

/-- Whether `c` can stand in the key of an entry. -/
def isEntryKeyChar (c : Char) : Bool :=
  ' ' < c && c != ':' && c != '"' && c != '\x7f'

/-- What follows a literal, read from behind its opening quote without regard to its escapes. -/
def afterLiteral : List Char → List Char
  | [] => []
  | '"' :: cs => cs
  | '\\' :: _ :: cs => afterLiteral cs
  | _ :: cs => afterLiteral cs

private theorem length_afterLiteral (cs : List Char) : (afterLiteral cs).length ≤ cs.length := by
  fun_induction afterLiteral cs with
  | case1 => exact Nat.le_refl 0
  | case2 cs => exact Nat.le_succ _
  | case3 c cs ih => simp only [List.length_cons]; omega
  | case4 c cs _ _ ih => simp only [List.length_cons]; omega

/-- The bytes of the value that the entries of `tag` have for `key`. -/
def entryValue? (key tag : List Char) : Option (List UInt8) :=
  let entry := tag.dropWhile (· == ' ')
  match _found : entry.dropWhile isEntryKeyChar with
  | ':' :: '"' :: literal =>
    let name := entry.takeWhile isEntryKeyChar
    if name = [] then none
    else if name = key then ((literalSyntax false).body? literal).map (·.1)
    else entryValue? key (afterLiteral literal)
  | _ => none
termination_by tag.length
decreasing_by
  have hentry : entry.length ≤ tag.length :=
    (List.dropWhile_sublist (l := tag) (· == ' ')).length_le
  have hrest := (List.dropWhile_sublist (l := entry) isEntryKeyChar).length_le
  have hliteral := length_afterLiteral literal
  rw [_found, List.length_cons, List.length_cons] at hrest
  omega

/-- The name and the options that `bytes`, those of a value, hold between commas. -/
def nameAndOptions? (bytes : List UInt8) : Option (String × List String) := do
  let value ← String.fromUTF8? bytes.toByteArray
  match pieces (· == ',') value.toList with
  | [] => none
  | name :: options => some (String.ofList name, options.map String.ofList)

/-- Reads `tag`, the tag of a field: the name of the field in JSON, and its options. Nothing may
follow the raw string. -/
def fieldTag? (strict : Bool) (tag : List Char) : Option (String × List String) := do
  let (content, rest) ← rawString? strict tag
  let bytes ← entryValue? "json".toList content
  if rest = [] then nameAndOptions? bytes else none

/-- Whether `c` stands for itself in the value of a tag, where it must neither end the raw string
nor be left out of it, and neither end the literal nor be escaped or refused in it. -/
def standsInTag (strict : Bool) (c : Char) : Bool :=
  c != '\x60' && !refusedInSource strict c && c != '\r' && c != '"' && c != '\\' && c != '\n'

private theorem standsInTag_iff {strict : Bool} {c : Char} : standsInTag strict c = true ↔
    (c ≠ '\x60' ∧ refusedInSource strict c = false) ∧
      c ≠ '\r' ∧ c ≠ '"' ∧ c ≠ '\\' ∧ c ≠ '\n' := by
  simp [standsInTag, and_assoc]

/-! ### Raw strings -/

/-- A raw string ends at the first backquote. -/
private theorem rawString?_append {strict : Bool} {text : List Char} (h : '\x60' ∉ text)
    (rest : List Char) :
    rawString? strict ('\x60' :: (text ++ '\x60' :: rest)) =
      if text.any (refusedInSource strict) then none
      else some (text.filter (· ≠ '\r'), rest) := by
  have htext : ∀ c ∈ text, decide (c ≠ '\x60') = true :=
    fun c hc => decide_eq_true fun heq => h (heq ▸ hc)
  rw [rawString?, if_pos rfl, List.dropWhile_append_of_pos htext,
    List.takeWhile_append_of_pos htext, List.dropWhile_cons_of_neg (by decide),
    List.takeWhile_cons_of_neg (by decide), List.append_nil]

/-- A text between backquotes is one raw string if it has no backquote itself, and nothing that is
refused. -/
private theorem rawString?_eq_some_iff {strict : Bool} {text content : List Char} :
    rawString? strict ('\x60' :: (text ++ ['\x60'])) = some (content, []) ↔
      (∀ c ∈ text, c ≠ '\x60' ∧ refusedInSource strict c = false) ∧
        content = text.filter (· ≠ '\r') := by
  -- A back quote inside the text would end the raw string early and leave something over.
  by_cases hmem : '\x60' ∈ text
  · obtain ⟨before, after, rfl, hbefore⟩ := List.eq_append_cons_of_mem hmem
    rw [List.append_assoc, List.cons_append, rawString?_append hbefore]
    refine iff_of_false (fun h => ?_) fun h => (h.1 _ hmem).1 rfl
    split at h
    · cases h
    · exact List.append_ne_nil_of_right_ne_nil after (List.cons_ne_nil _ _)
        (congrArg Prod.snd (Option.some.inj h))
  · have haccepted : (∀ c ∈ text, c ≠ '\x60' ∧ refusedInSource strict c = false) ↔
        ¬ text.any (refusedInSource strict) = true := by
      rw [Bool.not_eq_true, List.any_eq_false]
      refine forall₂_congr fun c hc => ?_
      have hne : c ≠ '\x60' := fun heq => hmem (heq ▸ hc)
      rw [and_iff_right hne, Bool.not_eq_true]
    rw [rawString?_append hmem, haccepted, Option.ite_none_left_eq_some, Option.some.injEq,
      Prod.mk.injEq, and_iff_left rfl]
    exact and_congr_right' eq_comm

/-! ### Entries -/

/-- The value of the one entry of a tag. -/
private theorem entryValue?_json (literal : List Char) :
    entryValue? "json".toList ("json:\"".toList ++ literal) =
      ((literalSyntax false).body? literal).map (·.1) := by
  have hentry : ("json:\"".toList ++ literal).dropWhile (· == ' ') =
      "json:\"".toList ++ literal := rfl
  have hrest : ("json:\"".toList ++ literal).dropWhile isEntryKeyChar = ':' :: '"' :: literal := rfl
  have hname : ("json:\"".toList ++ literal).takeWhile isEntryKeyChar = "json".toList := rfl
  rw [entryValue?]
  dsimp only
  split
  · next literal' hfound =>
    rw [hentry, hrest] at hfound
    cases hfound
    rw [hentry, hname, if_neg (by decide), if_pos rfl]
  · next hnone => exact absurd (hentry ▸ hrest) (hnone literal)

/-- What a raw string keeps of a text is read back as the text only if every character of the text
stands for itself. -/
private theorem body?_filter_iff {text : List Char} :
    (∃ rest, (literalSyntax false).body? (text.filter (· ≠ '\r') ++ ['"']) =
      some (text.flatMap String.utf8EncodeChar, rest)) ↔
      ∀ c ∈ text, c ≠ '\r' ∧ c ≠ '"' ∧ c ≠ '\\' ∧ c ≠ '\n' := by
  have hrefuses (c : Char) : (literalSyntax false).refuses c = false ↔ c ≠ '\n' := by
    simp [literalSyntax, refusedInSource]
  constructor
  · rintro ⟨rest, h⟩
    have hkept : (text.filter (· ≠ '\r')).Sublist text := List.filter_sublist
    rcases length_of_body? h with hlt | ⟨body, hsource, hunits, hplain⟩
    · -- The text would have fewer bytes than what is kept of it.
      have hbytes : (text.flatMap String.utf8EncodeChar).length = String.utf8Len text :=
        length_flatMap_units false text
      have hquote : String.utf8Len ['"'] = 1 := rfl
      have hle := String.utf8Len_le_of_sublist hkept
      rw [String.utf8Len_append, hquote, hbytes] at hlt
      omega
    · obtain rfl : text = body := eq_of_flatMap_units_eq hunits
      have hlength := congrArg List.length hsource
      simp only [List.length_append, List.length_cons, List.length_nil] at hlength
      have hfilter := hkept.eq_of_length (hkept.length_le.antisymm (by omega))
      intro c hc
      obtain ⟨hquote, hbackslash, haccepts⟩ := hplain c hc
      have hreturn := List.filter_eq_self.mp hfilter c hc
      exact ⟨of_decide_eq_true hreturn, hquote, hbackslash, (hrefuses c).mp haccepts⟩
  · intro h
    have hfilter : text.filter (· ≠ '\r') = text :=
      List.filter_eq_self.mpr fun c hc => decide_eq_true (h c hc).1
    refine ⟨[], ?_⟩
    rw [hfilter]
    refine LiteralSyntax.body?_of_plain (fun c hc => ?_) []
    obtain ⟨-, hquote, hbackslash, hfeed⟩ := h c hc
    exact ⟨hquote, hbackslash, (hrefuses c).mpr hfeed⟩

/-- The bytes that a tag has for a text are those of the text only if every character of the text
stands for itself. -/
private theorem entryValue?_filter_iff {text : List Char} :
    entryValue? "json".toList (("json:\"".toList ++ text ++ ['"']).filter (· ≠ '\r')) =
        some (text.flatMap String.utf8EncodeChar) ↔
      ∀ c ∈ text, c ≠ '\r' ∧ c ≠ '"' ∧ c ≠ '\\' ∧ c ≠ '\n' := by
  have hopening : "json:\"".toList.filter (· ≠ '\r') = "json:\"".toList := rfl
  have hclosing : ['"'].filter (· ≠ '\r') = ['"'] := rfl
  rw [← body?_filter_iff, List.filter_append, List.filter_append, hopening, hclosing,
    List.append_assoc, entryValue?_json, Option.map_eq_some_iff]
  exact ⟨fun ⟨(_, rest), hbody, hunits⟩ => ⟨rest, hunits ▸ hbody⟩,
    fun ⟨rest, hbody⟩ => ⟨(_, rest), hbody, rfl⟩⟩

/-! ### Names and options -/

/-- The value of a tag: `name` and `options`, between commas. -/
def tagValue (name : String) (options : List String) : List Char :=
  [','].intercalate ((name :: options).map String.toList)

/-- The bytes of a value hold the name and the options that it is made of, unless one of them has a
comma. -/
private theorem nameAndOptions?_eq_some_iff {name : String} {options : List String}
    {bytes : List UInt8} :
    nameAndOptions? bytes = some (name, options) ↔
      bytes = (tagValue name options).flatMap String.utf8EncodeChar ∧
        ∀ piece ∈ name :: options, ',' ∉ piece.toList := by
  have hencode : ((tagValue name options).flatMap String.utf8EncodeChar).toByteArray =
      (String.ofList (tagValue name options)).toByteArray := String.toByteArray_ofList.symm
  constructor
  · intro h
    obtain ⟨value, hvalue, h⟩ := Option.bind_eq_some_iff.mp h
    have hpieces : pieces (· == ',') value.toList = (name :: options).map String.toList := by
      split at h
      · cases h
      · next p ps hp =>
        cases h
        rw [hp, List.map_cons, List.map_map, String.toList_ofList]
        exact congrArg _ (List.map_id'' (fun _ => String.toList_ofList) ps).symm
    have hvalueText : value = String.ofList (tagValue name options) := by
      rw [tagValue, ← hpieces, intercalate_pieces, String.ofList_toList]
    refine ⟨List.toByteArray_inj.mp ?_, fun piece hpiece hcomma => ?_⟩
    · rw [hencode, ← hvalueText, Json.fromUTF8?_eq_some_iff.mp hvalue]
    · have hmem := hpieces ▸ List.mem_map_of_mem hpiece
      simpa using (mem_of_mem_pieces hmem hcomma).2
  · rintro ⟨rfl, hcommas⟩
    have hpieces : pieces (· == ',') (tagValue name options) =
        (name :: options).map String.toList :=
      pieces_intercalate (List.cons_ne_nil _ _) (List.forall_mem_map.mpr hcommas)
    rw [nameAndOptions?, Json.fromUTF8?_eq_some_iff.mpr hencode.symm, Option.bind_eq_bind,
      Option.bind_some, String.toList_ofList, hpieces, List.map_cons]
    dsimp only
    rw [List.map_map]
    exact congrArg some (Prod.ext String.ofList_toList
      (List.map_id'' (fun _ => String.ofList_toList) options))

/-! ### Tags -/

/-- A tag is read by reading the raw string, then its entry, then the value. -/
private theorem fieldTag?_eq_some {strict : Bool} {tag : List Char} {value : String × List String} :
    fieldTag? strict tag = some value ↔
      ∃ content bytes, rawString? strict tag = some (content, []) ∧
        entryValue? "json".toList content = some bytes ∧ nameAndOptions? bytes = some value := by
  simp only [fieldTag?, Option.bind_eq_bind, Option.bind_eq_some_iff, Prod.exists]
  constructor
  · rintro ⟨content, rest, hraw, bytes, hbytes, h⟩
    obtain ⟨rfl, hvalue⟩ := Option.ite_none_right_eq_some.mp h
    exact ⟨content, bytes, hraw, hbytes, hvalue⟩
  · rintro ⟨content, bytes, hraw, hbytes, hvalue⟩
    exact ⟨content, [], hraw, bytes, hbytes, Option.ite_none_right_eq_some.mpr ⟨rfl, hvalue⟩⟩

/-- A tag is read as the name and the options of its value exactly if every character of the value
stands for itself and no comma stands within the name or an option. -/
private theorem fieldTag?_eq_some_iff {strict : Bool} {name : String} {options : List String} :
    fieldTag? strict ('\x60' :: ("json:\"".toList ++ tagValue name options ++ ['"'] ++ ['\x60'])) =
        some (name, options) ↔
      (∀ c ∈ tagValue name options, standsInTag strict c = true) ∧
        ∀ piece ∈ name :: options, ',' ∉ piece.toList := by
  have hraw : (∀ c ∈ "json:\"".toList ++ tagValue name options ++ ['"'],
      c ≠ '\x60' ∧ refusedInSource strict c = false) ↔
      ∀ c ∈ tagValue name options, c ≠ '\x60' ∧ refusedInSource strict c = false := by
    -- The key and the quotes around the value are harmless, so only the value matters.
    have hopening : ∀ c ∈ "json:\"".toList, c ≠ '\x60' ∧ refusedInSource strict c = false := by
      cases strict <;> simp [refusedInSource]
    have hclosing : ∀ c ∈ ['"'], c ≠ '\x60' ∧ refusedInSource strict c = false := by
      cases strict <;> simp [refusedInSource]
    rw [List.forall_mem_append, List.forall_mem_append, and_iff_left hclosing,
      and_iff_right hopening]
  have hstands : (∀ c ∈ tagValue name options, standsInTag strict c = true) ↔
      (∀ c ∈ tagValue name options, c ≠ '\x60' ∧ refusedInSource strict c = false) ∧
        ∀ c ∈ tagValue name options, c ≠ '\r' ∧ c ≠ '"' ∧ c ≠ '\\' ∧ c ≠ '\n' := by
    rw [← forall₂_and]
    exact forall₂_congr fun c _ => standsInTag_iff
  rw [fieldTag?_eq_some, hstands, ← hraw, ← entryValue?_filter_iff]
  constructor
  · rintro ⟨content, bytes, hcontent, hbytes, hvalue⟩
    obtain ⟨hstanding, rfl⟩ := rawString?_eq_some_iff.mp hcontent
    obtain ⟨rfl, hcommas⟩ := nameAndOptions?_eq_some_iff.mp hvalue
    exact ⟨⟨hstanding, hbytes⟩, hcommas⟩
  · rintro ⟨⟨hstanding, hbytes⟩, hcommas⟩
    exact ⟨_, _, rawString?_eq_some_iff.mpr ⟨hstanding, rfl⟩, hbytes,
      nameAndOptions?_eq_some_iff.mpr ⟨rfl, hcommas⟩⟩

example : fieldTag? true "\x60json:\"a\\u0062,omitempty\"\x60".toList =
    some ("ab", ["omitempty"]) := by
  decide +kernel

/-! ### Fields -/

/-- The options in the tag of a field that is `optional` or not. -/
def tagOptions (optional : Bool) : List String :=
  if optional then ["omitempty"] else []

/-- In the value for a field, its key stands before what says that it is optional. -/
private theorem tagValue_tagOptions (key : String) (optional : Bool) :
    tagValue key (tagOptions optional) =
      key.toList ++ (if optional then ",omitempty" else "").toList := by
  cases optional with
  | false =>
    rw [tagValue, tagOptions, if_neg Bool.false_ne_true, if_neg Bool.false_ne_true,
      List.map_singleton, List.intercalate_singleton]
    exact (List.append_nil _).symm
  | true =>
    rw [tagValue, tagOptions, if_pos rfl, if_pos rfl, List.map_cons, List.map_singleton,
      List.intercalate_cons_cons, List.intercalate_singleton, List.append_assoc]
    rfl

/-- The tag that is written for `key` is read back as `key` exactly if every character of it stands
for itself and none is a comma. -/
theorem fieldTag?_tagText_iff {strict optional : Bool} {key : String} :
    fieldTag? strict (tagText key optional).toList = some (key, tagOptions optional) ↔
      ∀ c ∈ key.toList, c ≠ ',' ∧ standsInTag strict c = true := by
  have htag : (tagText key optional).toList =
      '\x60' :: ("json:\"".toList ++ tagValue key (tagOptions optional) ++ ['"'] ++ ['\x60']) := by
    simp only [tagText, String.toList_append, tagValue_tagOptions, List.append_assoc]
    rfl
  -- The option is made of letters, so only the key of the field can make a tag unreadable.
  have hsuffix : ∀ c ∈ (if optional then ",omitempty" else "").toList,
      standsInTag strict c = true :=
    List.all_eq_true.mp (by cases optional <;> cases strict <;> decide)
  have hoptions : ∀ option ∈ tagOptions optional, ',' ∉ option.toList := by
    cases optional <;> decide
  have hcomma : ',' ∉ key.toList ↔ ∀ c ∈ key.toList, c ≠ ',' :=
    ⟨fun h c hc heq => h (heq ▸ hc), fun h hmem => h _ hmem rfl⟩
  rw [htag, fieldTag?_eq_some_iff, tagValue_tagOptions, List.forall_mem_append,
    and_iff_left hsuffix, List.forall_mem_cons, and_iff_left hoptions, hcomma, ← forall₂_and]
  exact forall₂_congr fun c _ => and_comm

/-- If the struct of `fields` has a Go type, the tags of its fields are read back as their names,
with the right options, exactly for the names of which every character stands for itself and none is
a comma. -/
theorem tags_readBack_iff {strict : Bool} {level : Nat} {path : String}
    {earlier : List (String × String)} {fields : List (Field Shape)}
    {members : List (Member GoType)} (h : membersOf path earlier fields = .ok members) :
    List.Forall₂ (fun f row =>
      fieldTag? strict row.tag.toList = some (f.name, tagOptions f.optional) ↔
        ∀ c ∈ f.name.toList, c ≠ ',' ∧ standsInTag strict c = true)
      fields (rowsOf level members) := by
  induction fields generalizing earlier members with
  | nil =>
    cases h
    exact .nil
  | cons f fields ih =>
    obtain ⟨key, type, optional, docs⟩ := f
    rw [membersOf] at h
    split at h
    · cases h
    · next name hname =>
      obtain ⟨goType, hgoType, h⟩ := bind_eq_ok.mp h
      split at h
      · cases h
      · obtain ⟨rest, hrest, rfl⟩ := bind_return_eq_ok.mp h
        exact .cons fieldTag?_tagText_iff (ih hrest)

end Go

namespace Sample

open Go

/-- The fields of a ruler. The name of the second has a word in quotes. -/
def rulerFields : List (Field Shape) :=
  [{ name := "unit", type := .scalar .string, optional := true },
    { name := "size \"max\"", type := .scalar .int64 }]

/-- Of the fields of a ruler, the first has a tag that is read back. -/
theorem tags_readBack_ruler : ∃ members, membersOf "Ruler.spec" [] rulerFields = .ok members ∧
    List.Forall₂ (fun f row =>
      fieldTag? true row.tag.toList = some (f.name, tagOptions f.optional) ↔ f.name = "unit")
      rulerFields (rowsOf 2 members) := by
  have hnames : ∀ f ∈ rulerFields,
      (∀ c ∈ f.name.toList, c ≠ ',' ∧ standsInTag true c = true) ↔ f.name = "unit" := by
    have hunit : ∀ c ∈ "unit".toList, c ≠ ',' ∧ standsInTag true c = true := by
      simp [standsInTag, refusedInSource]
    refine List.forall_mem_cons.mpr ⟨iff_of_true hunit rfl, List.forall_mem_singleton.mpr ?_⟩
    refine iff_of_false (fun h => ?_) (by decide)
    exact absurd (h '"' (by decide)).2 (by decide)
  obtain ⟨members, hmembers⟩ : ∃ members, membersOf "Ruler.spec" [] rulerFields = .ok members :=
    ⟨_, by with_unfolding_all rfl⟩
  refine ⟨members, hmembers, ?_⟩
  exact ((List.forall₂_and_left ..).mpr ⟨hnames, tags_readBack_iff hmembers⟩).imp
    fun f row ⟨hname, hread⟩ => hread.trans hname

/-- A kind of rulers. -/
def ruler : Kind where
  name := "Ruler"
  metadata := { type := .struct { fields := [] } }
  spec := { fields := [
    { name := "unit", type := .scalar .string, optional := true },
    { name := "size \"max\"", type := .scalar .int64 }] }
  status := { fields := [] }

/-- The kind, resolved. -/
def rulerResolved : ResolvedKind where
  name := "Ruler"
  machineName := "ruler"
  description := []
  metadata := { name := "metadata", type := .struct [] }
  spec := { name := "spec", type := .struct rulerFields }
  status := { name := "status", type := .struct [] }
  declarations := []

private theorem resolve_ruler : ruler.resolve .nominal = .ok rulerResolved := by
  with_unfolding_all rfl

/-- The kind of rulers has a Go file. The second of its fields has a tag with the quotes of its
name, so that the name is read up to there. -/
theorem tag_misread_ruler : ruler.resolve .nominal = .ok rulerResolved ∧
    (∃ file, typesFile {} rulerResolved = .ok file) ∧
    ∃ members, membersOf "Ruler.spec" [] rulerFields = .ok members ∧
      ∃ row ∈ rowsOf 2 members, row.tag = "\x60json:\"size \"max\"\"\x60" ∧
        fieldTag? false row.tag.toList = some ("size ", []) := by
  have hfile : ∃ file, typesFile {} rulerResolved = .ok file :=
    exists_typesFile_iff.mpr ⟨⟨_, by with_unfolding_all rfl⟩, fun d hd =>
      absurd (ResolvedKind.mem_reachable.mp hd).1 List.not_mem_nil⟩
  refine ⟨resolve_ruler, hfile, _, by with_unfolding_all rfl, _,
    List.mem_cons_of_mem _ List.mem_cons_self, rfl, ?_⟩
  -- The literal ends at the first quote of the name, and nothing behind it matters.
  have hbody : (literalSyntax false).body? ("size ".toList ++ '"' :: "max\"\"".toList) =
      some ("size ".toList.flatMap String.utf8EncodeChar, "max\"\"".toList) :=
    LiteralSyntax.body?_of_plain (by simp [literalSyntax, refusedInSource]) _
  have hvalue : nameAndOptions? ("size ".toList.flatMap String.utf8EncodeChar) =
      some ("size ", []) := nameAndOptions?_eq_some_iff.mpr ⟨rfl, by decide⟩
  refine fieldTag?_eq_some.mpr ⟨"json:\"size \"max\"\"".toList, _, ?_, ?_, hvalue⟩
  · have hraw : '\x60' ∉ "json:\"size \"max\"\"".toList := by decide
    exact rawString?_append hraw []
  · exact (entryValue?_json _).trans (congrArg (Option.map (·.1)) hbody)

end Sample

end KindSchema
