import KindSchema.Kind.Decoding
import KindSchema.Kind.Encoding
import KindSchema.Proofs.Json.Records

/-!
# Decoding what was encoded

The JSON form of a kind, and of each of its parts, is decoded to that part if it does not nest more
brackets than the budget. Members that were left out are restored by their defaults.

* `decodeLevels_toJson`: type expressions, by induction on the levels that may be nested.
* `Kind.decode_toJson`: kinds.
-/

namespace KindSchema

open Json

/-! ### Members that may be left out -/

/-- The list `l`, which is left out when it is empty. -/
def given {α : Type} (l : List α) : Option (List α) :=
  if l.isEmpty then none else some l

private theorem getD_given {α : Type} (l : List α) : (given l).getD [] = l := by
  cases l <;> rfl

private theorem getD_map_some {α : Type} (a? : Option α) : (a?.map some).getD none = a? := by
  cases a? <;> rfl

private theorem keys_given {α : Type} (l : List α) (key : String) (value : Json) :
    ((if l.isEmpty then [] else [(key, value)]).map (·.1)).Sublist [key] := by
  split
  · exact List.nil_sublist _
  · exact .refl _

private theorem keys_docsMember (docs : List String) :
    ((docsMember docs).map (·.1)).Sublist ["docs"] :=
  keys_given docs "docs" (.texts docs)

private theorem keys_optionalMember (key : String) (text? : Option String) :
    ((optionalMember key text?).map (·.1)).Sublist [key] := by
  cases text? with
  | none => exact List.nil_sublist _
  | some text => exact .refl _

namespace Json.RecordFormat.Puts

variable {δ α : Type} {format : RecordFormat δ α} {key : String}

/-- A list that is left out when it is empty leads to a draft that has it if it was given. -/
private theorem given {β : Type} (set : Option (List β) → δ) {l : List β} {value : Json}
    (h : l ≠ [] → format.put (set none) key value.reading = .ok (set (some l))) :
    format.Puts (set none) (if l.isEmpty then [] else [(key, value)]) (set (given l)) := by
  cases l with
  | nil => exact .nil
  | cons b l => exact .single (h (List.cons_ne_nil b l))

/-- A text that may be missing leads to a draft that has it if it was given. -/
private theorem optionalMember (set : Option (Option String) → δ) {text? : Option String}
    (h : ∀ text, format.put (set none) key (Json.string text).reading =
      .ok (set (some (some text)))) :
    format.Puts (set none) (optionalMember key text?) (set (text?.map some)) := by
  cases text? with
  | none => exact .nil
  | some text => exact .single (h text)

/-- Documentation leads to a draft that has it, if the budget allows for a list. -/
private theorem docsMember {budget : Nat} (set : Option (List String) → δ) {docs : List String}
    (hput : ∀ r, format.put (set none) "docs" r = do
      return set (some (← decodeStrings budget r)))
    (hdepth : ∀ member ∈ docsMember docs, member.2.depth ≤ budget) :
    format.Puts (set none) (docsMember docs) (set (KindSchema.given docs)) := by
  refine .given set fun hne => ?_
  have hmem : ("docs", Json.texts docs) ∈ KindSchema.docsMember docs := by
    rw [KindSchema.docsMember, if_neg (mt List.isEmpty_iff.mp hne)]
    exact List.mem_singleton_self _
  rw [hput]
  exact return_eq_ok (decodeStrings_texts (hdepth _ hmem))

end Json.RecordFormat.Puts

/-! ### Fields and structs -/

/-- The JSON form of `f`. -/
def Field.toJson (f : Field TypeExpr) : Json :=
  .object ([("name", .string f.name), ("type", f.type.toJson), ("optional", .bool f.optional)] ++
    docsMember f.docs)

private theorem fieldsToJson_eq_map (fields : List (Field TypeExpr)) :
    fieldsToJson fields = fields.map Field.toJson := by
  induction fields with
  | nil => rfl
  | cons f fields ih =>
    rw [List.map_cons, ← ih]
    rfl

/-- The members of `s`, or of a type expression that is a struct besides its form. -/
def structMembers (s : StructType) : List (String × Json) :=
  optionalMember "name" s.name ++ docsMember s.docs ++
    [("fields", .array (s.fields.map Field.toJson))]

theorem StructType.toJson_eq (s : StructType) :
    StructType.toJson s = .object (structMembers s) := by
  rw [StructType.toJson, fieldsToJson_eq_map]
  rfl

theorem TypeExpr.toJson_struct (s : StructType) :
    (TypeExpr.struct s).toJson = .object (("kind", .string "struct") :: structMembers s) := by
  obtain ⟨name, docs, fields⟩ := s
  rw [TypeExpr.toJson, fieldsToJson_eq_map]
  rfl

private theorem keys_structMembers (s : StructType) :
    ((structMembers s).map (·.1)).Sublist ["name", "docs", "fields"] := by
  rw [structMembers, List.map_append, List.map_append]
  exact ((keys_optionalMember "name" s.name).append (keys_docsMember s.docs)).append (.refl _)

/-- That `decodeType` decodes all type expressions that do not nest more brackets than `budget`. -/
def DecodesTypes (decodeType : Nat → Reading → Decoded TypeExpr) (budget : Nat) : Prop :=
  ∀ n ≤ budget, ∀ t : TypeExpr, t.toJson.depth ≤ n → decodeType n t.toJson.reading = .ok t

section Structs

variable {decodeType : Nat → Reading → Decoded TypeExpr} {inside : Bool} {budget : Nat}

private theorem decode_field {f : Field TypeExpr} (hdepth : f.toJson.depth ≤ budget)
    (hdecode : DecodesTypes decodeType budget) :
    RecordFormat.decode inside budget (fieldFormat decodeType) f.toJson.reading = .ok f := by
  obtain ⟨budget, rfl, hmembers⟩ := depth_object_le_iff.mp hdepth
  have htype := hdecode budget (Nat.le_succ budget) f.type
    (hmembers ("type", f.type.toJson) (by simp))
  -- The members that are always written stand before the documentation, which may be left out.
  have hhead : (fieldFormat decodeType budget).Puts {}
      [("name", .string f.name), ("type", f.type.toJson), ("optional", .bool f.optional)]
      { name := some f.name, type := some f.type, optional := some f.optional } :=
    .cons rfl (.cons (return_eq_ok htype) (.single rfl))
  have hdocs : (fieldFormat decodeType budget).Puts
      { name := some f.name, type := some f.type, optional := some f.optional }
      (docsMember f.docs)
      { name := some f.name, type := some f.type, optional := some f.optional
        docs := given f.docs } := by
    refine .docsMember (fun docs => ({ name := some f.name, type := some f.type
                                       optional := some f.optional, docs } : FieldDraft))
      (fun _ => rfl) fun member hmember => ?_
    exact hmembers member (List.mem_append_right _ hmember)
  have hnodup : ["name", "type", "optional", "docs"].Nodup := by decide
  refine (hhead.append hdocs).ofMembers ?_ hnodup ?_
  · rw [List.map_append]
    exact (List.Sublist.refl ["name", "type", "optional"]).append (keys_docsMember f.docs)
  · change Except.ok ({ f with docs := (given f.docs).getD [] } : Field TypeExpr) = .ok f
    rw [getD_given]

/-- A struct is decoded from its members, whether they stand alone or in a type expression. -/
private theorem ofMembers_structMembers {s : StructType}
    (hmembers : ∀ member ∈ structMembers s, member.2.depth ≤ budget)
    (hdecode : DecodesTypes decodeType budget) :
    (structFormat inside decodeType budget).ofMembers (memberReadings (structMembers s)) none =
      .ok s := by
  have hdepth := hmembers ("fields", .array (s.fields.map Field.toJson)) (by simp [structMembers])
  obtain ⟨inner, rfl, hfields⟩ := depth_array_le_iff.mp hdepth
  -- The fields stand one level deeper, in a list, and so do their types.
  have hinner : DecodesTypes decodeType inner :=
    fun n hn => hdecode n (Nat.le_succ_of_le hn)
  have hlist : decodeList (inner + 1) (fun budget item =>
      RecordFormat.decode inside budget (fieldFormat decodeType) item)
      (Json.array (s.fields.map Field.toJson)).reading = .ok s.fields := by
    refine decodeList_array fun f hf => ?_
    exact decode_field (hfields f.toJson (List.mem_map_of_mem hf)) hinner
  have hname : (structFormat inside decodeType (inner + 1)).Puts {} (optionalMember "name" s.name)
      { name := s.name.map some } :=
    .optionalMember (fun name => ({ name } : StructDraft)) fun _ => rfl
  have hdocs : (structFormat inside decodeType (inner + 1)).Puts { name := s.name.map some }
      (docsMember s.docs) { name := s.name.map some, docs := given s.docs } := by
    refine .docsMember (fun docs => ({ name := s.name.map some, docs } : StructDraft))
      (fun _ => rfl) fun member hmember => hmembers member ?_
    exact List.mem_append_left _ (List.mem_append_right _ hmember)
  have hput : (structFormat inside decodeType (inner + 1)).Puts
      { name := s.name.map some, docs := given s.docs }
      [("fields", .array (s.fields.map Field.toJson))]
      { name := s.name.map some, docs := given s.docs, fields := some s.fields } :=
    .single (return_eq_ok hlist)
  have hnodup : ["name", "docs", "fields"].Nodup := by decide
  refine ((hname.append hdocs).append hput).ofMembers (keys_structMembers s) hnodup ?_
  change Except.ok ({ s with name := (s.name.map some).getD none
                             docs := (given s.docs).getD [] } : StructType) = .ok s
  rw [getD_given, getD_map_some]

end Structs

/-! ### Type expressions -/

section Levels

variable {levels budget : Nat} {inside : Bool} {form : Option TypeForm}
  {others : List (String × Json)}

private theorem readTagged_cons (key : String) (value : Reading)
    (members : List (Reading × Reading)) :
    readTagged inside budget form ((.string ⟨.ok key, none⟩, value) :: members) =
      if key = "kind" then
        if form.isSome then unfit (.duplicateField "kind")
        else do
          let form ← TypeForm.decode inside value
          readTagged inside budget (some form) members
      else do
        ofFlaw (value.check budget)
        let (form, others) ← readTagged inside budget form members
        return (form, (.string ⟨.ok key, none⟩, value) :: others) :=
  rfl

/-- Members that are not tags are kept for the payload. -/
private theorem readTagged_others (hkeys : ∀ member ∈ others, member.1 ≠ "kind")
    (hdepth : ∀ member ∈ others, member.2.depth ≤ budget) :
    readTagged inside budget form (memberReadings others) =
      .ok (form, memberReadings others) := by
  induction others with
  | nil => rfl
  | cons member others ih =>
    obtain ⟨key, value⟩ := member
    obtain ⟨hkey, hkeys⟩ := List.forall_mem_cons.mp hkeys
    obtain ⟨hvalue, hdepth⟩ := List.forall_mem_cons.mp hdepth
    rw [memberReadings, readTagged_cons, if_neg hkey, check_reading value budget hvalue,
      ih hkeys hdepth]
    rfl

/-- The words for the forms are decoded everywhere. -/
private theorem TypeForm.decode_string {word : String} {form : TypeForm}
    (h : (word, form) ∈ TypeForm.words) :
    TypeForm.decode inside (Json.string word).reading = .ok form := by
  have hlookup : ∀ entry ∈ TypeForm.words, TypeForm.words.lookup entry.1 = some entry.2 := by
    decide
  have hword : decodeWord TypeForm.words word = .ok form := by
    rw [decodeWord, hlookup (word, form) h]
  cases inside <;> exact hword

/-- An object that begins with its tag is decoded as the payload of a form. -/
private theorem decodeLevels_object {word : String} (form : TypeForm)
    (hword : (word, form) ∈ TypeForm.words)
    (hkeys : ∀ member ∈ others, member.1 ≠ "kind")
    (hdepth : ∀ member ∈ others, member.2.depth ≤ budget) :
    TypeExpr.decodeLevels (levels + 1) inside (budget + 1)
        (Json.object (("kind", .string word) :: others)).reading =
      form.decodePayload (TypeExpr.decodeLevels levels true) budget
        (.members (memberReadings others)) := by
  -- The tag is written first, so it is found at once and the others are kept for the payload.
  have htagged : readTagged inside budget none
      (memberReadings (("kind", .string word) :: others)) =
        .ok (some form, memberReadings others) := by
    rw [memberReadings, readTagged_cons, if_pos rfl, Option.isSome_none, if_neg Bool.false_ne_true,
      TypeForm.decode_string hword]
    exact readTagged_others hkeys hdepth
  change (do
    let (form, others) ← readTagged inside budget none
      (memberReadings (("kind", .string word) :: others))
    proceed none
    let form ← required .missingField "kind" form
    form.decodePayload (TypeExpr.decodeLevels levels true) budget (.members others)) = _
  rw [htagged]
  rfl

/-- A payload with a single key is decoded as the value of the key. -/
private theorem decode_singleFormat {α : Type} {title key : String} {decode : Reading → Decoded α}
    {value : Json} {a : α} (h : decode value.reading = .ok a) :
    (Payload.members (memberReadings [(key, value)])).decode (singleFormat title key decode) =
      .ok a := by
  have hput : (singleFormat title key decode).Puts none [(key, value)] (some a) :=
    .single (return_eq_ok h)
  exact hput.ofMembers (.refl _) (List.nodup_cons.mpr ⟨List.not_mem_nil, List.nodup_nil⟩) rfl

/-- A type expression with a single member besides its tag is decoded from the value of that
member. -/
private theorem decodeLevels_single {α : Type} {word title key : String} {value : Json}
    {decode : Reading → Decoded α} {a : α} (form : TypeForm) (make : α → TypeExpr)
    (hword : (word, form) ∈ TypeForm.words)
    (hpayload : ∀ payload, form.decodePayload (TypeExpr.decodeLevels levels true) budget payload =
      do return make (← payload.decode (singleFormat title key decode)))
    (hkey : key ≠ "kind") (hdepth : value.depth ≤ budget) (hvalue : decode value.reading = .ok a) :
    TypeExpr.decodeLevels (levels + 1) inside (budget + 1)
      (Json.object [("kind", .string word), (key, value)]).reading = .ok (make a) := by
  have hkeys : ∀ member ∈ [(key, value)], member.1 ≠ "kind" :=
    List.forall_mem_singleton.mpr hkey
  rw [decodeLevels_object form hword hkeys (List.forall_mem_singleton.mpr hdepth), hpayload,
    decode_singleFormat hvalue]
  rfl

/-- The form of a type expression, and a value, take one bracket more than the value. -/
theorem depth_tagged_le_iff {word key : String} {value : Json} :
    (Json.object [("kind", .string word), (key, value)]).depth ≤ budget ↔
      ∃ inner, budget = inner + 1 ∧ value.depth ≤ inner := by
  rw [depth_object_le_iff]
  refine exists_congr fun inner => and_congr_right fun _ => ?_
  rw [List.forall_mem_cons, List.forall_mem_singleton]
  exact and_iff_right (Nat.zero_le inner)

/-- The JSON form of `t` is decoded to `t`, if it does not nest more brackets than `budget` and
`budget` is less than `levels`. -/
theorem decodeLevels_toJson {t : TypeExpr} (hdepth : t.toJson.depth ≤ budget)
    (hlevels : budget < levels) :
    TypeExpr.decodeLevels levels inside budget t.toJson.reading = .ok t := by
  -- The types inside take a bracket each, and they have one level less.
  induction levels generalizing budget inside t with
  | zero => exact absurd hlevels (Nat.not_lt_zero budget)
  | succ levels ih =>
    cases t with
    | scalar s =>
      obtain ⟨budget, rfl, hword⟩ := depth_tagged_le_iff.mp hdepth
      have hvalue : decodeChoiceInside Scalar.words (Json.string s.name).reading = .ok s := by
        cases s <;> rfl
      exact decodeLevels_single .scalar TypeExpr.scalar (by decide) (fun _ => rfl) (by decide) hword
        hvalue
    | enum values =>
      obtain ⟨budget, rfl, hvalues⟩ := depth_tagged_le_iff.mp hdepth
      exact decodeLevels_single .enum TypeExpr.enum (by decide) (fun _ => rfl) (by decide) hvalues
        (decodeStrings_texts hvalues)
    | array items =>
      obtain ⟨budget, rfl, hitems⟩ := depth_tagged_le_iff.mp hdepth
      exact decodeLevels_single .array TypeExpr.array (by decide) (fun _ => rfl) (by decide) hitems
        (ih hitems (Nat.lt_of_succ_lt_succ hlevels))
    | map values =>
      obtain ⟨budget, rfl, hvalues⟩ := depth_tagged_le_iff.mp hdepth
      exact decodeLevels_single .map TypeExpr.map (by decide) (fun _ => rfl) (by decide) hvalues
        (ih hvalues (Nat.lt_of_succ_lt_succ hlevels))
    | struct s =>
      rw [TypeExpr.toJson_struct] at hdepth ⊢
      obtain ⟨budget, rfl, hmembers⟩ := depth_object_le_iff.mp hdepth
      have hkeys : ∀ member ∈ structMembers s, member.1 ≠ "kind" := by
        intro member hmember hkind
        have hknown := (keys_structMembers s).subset (List.mem_map_of_mem hmember)
        rw [hkind] at hknown
        exact absurd hknown (by decide)
      have hinner := (List.forall_mem_cons.mp hmembers).2
      have hdecode : DecodesTypes (TypeExpr.decodeLevels levels true) budget :=
        fun n hn t ht => ih ht (Nat.lt_of_le_of_lt hn (Nat.lt_of_succ_lt_succ hlevels))
      rw [decodeLevels_object .struct (by decide) hkeys hinner]
      exact return_eq_ok (ofMembers_structMembers hinner hdecode)
    | reference name =>
      obtain ⟨budget, rfl, hword⟩ := depth_tagged_le_iff.mp hdepth
      have hvalue : decodeString (Json.string name).reading = .ok name := rfl
      exact decodeLevels_single .reference TypeExpr.reference (by decide) (fun _ => rfl) (by decide)
        hword hvalue

end Levels

/-- All type expressions that do not nest more brackets than the budget are decoded. -/
private theorem decodesTypes_decode (budget : Nat) : DecodesTypes TypeExpr.decode budget :=
  fun n _ _ ht => decodeLevels_toJson ht (Nat.lt_succ_self n)

/-! ### Kinds -/

section Kinds

variable {budget : Nat}

private theorem StructType.decode_toJson {s : StructType}
    (hdepth : (StructType.toJson s).depth ≤ budget) :
    StructType.decode budget (StructType.toJson s).reading = .ok s := by
  rw [StructType.toJson_eq] at hdepth ⊢
  obtain ⟨budget, rfl, hmembers⟩ := depth_object_le_iff.mp hdepth
  exact ofMembers_structMembers hmembers (decodesTypes_decode budget)

private theorem Definition.decode_toJson {d : Definition} (hdepth : d.toJson.depth ≤ budget) :
    RecordFormat.decode false budget definitionFormat d.toJson.reading = .ok d := by
  obtain ⟨budget, rfl, hmembers⟩ := depth_object_le_iff.mp hdepth
  obtain ⟨hdocs, htype⟩ := List.forall_mem_append.mp (List.forall_mem_cons.mp hmembers).2
  have hdecode := decodesTypes_decode budget budget (Nat.le_refl budget) d.type
    (htype _ (List.mem_singleton_self _))
  have hput : (definitionFormat budget).Puts { name := some d.name, docs := given d.docs }
      [("type", d.type.toJson)]
      { name := some d.name, docs := given d.docs, type := some d.type } :=
    .single (return_eq_ok hdecode)
  have hdocs : (definitionFormat budget).Puts { name := some d.name } (docsMember d.docs)
      { name := some d.name, docs := given d.docs } :=
    .docsMember (fun docs => ({ name := some d.name, docs } : DefinitionDraft)) (fun _ => rfl) hdocs
  have hnodup : ["name", "docs", "type"].Nodup := by decide
  refine (RecordFormat.Puts.cons rfl (hdocs.append hput)).ofMembers ?_ hnodup ?_
  · rw [List.map_cons, List.map_append]
    exact ((keys_docsMember d.docs).append (.refl _)).cons_cons "name"
  · change Except.ok ({ d with docs := (given d.docs).getD [] } : Definition) = .ok d
    rw [getD_given]

private theorem MetadataSection.decode_toJson {s : MetadataSection}
    (hdepth : s.toJson.depth ≤ budget) :
    RecordFormat.decode false budget sectionFormat s.toJson.reading = .ok s := by
  obtain ⟨budget, rfl, hmembers⟩ := depth_object_le_iff.mp hdepth
  obtain ⟨hdocs, htype⟩ := List.forall_mem_append.mp hmembers
  have hdecode := decodesTypes_decode budget budget (Nat.le_refl budget) s.type
    (htype _ (List.mem_singleton_self _))
  have hput : (sectionFormat budget).Puts { docs := given s.docs } [("type", s.type.toJson)]
      { docs := given s.docs, type := some s.type } :=
    .single (return_eq_ok hdecode)
  have hdocs : (sectionFormat budget).Puts {} (docsMember s.docs) { docs := given s.docs } :=
    .docsMember (fun docs => ({ docs } : SectionDraft)) (fun _ => rfl) hdocs
  have hnodup : ["docs", "type"].Nodup := by decide
  refine (hdocs.append hput).ofMembers ?_ hnodup ?_
  · rw [List.map_append]
    exact (keys_docsMember s.docs).append (.refl _)
  · change Except.ok ({ s with docs := (given s.docs).getD [] } : MetadataSection) = .ok s
    rw [getD_given]

private theorem decodeList_variants (budget : Nat) (variants : List VariantId) :
    decodeList (budget + 1) (fun budget => decodeChoice budget VariantId.words)
      (texts (variants.map VariantId.name)).reading = .ok variants := by
  have htexts : texts (variants.map VariantId.name) =
      .array (variants.map fun v => .string v.name) := by
    rw [texts, List.map_map]
    rfl
  rw [htexts]
  refine decodeList_array fun v _ => ?_
  cases v <;> rfl

namespace Kind

variable {k : Kind}

/-- The draft of `k` after its names and its description. -/
def headDraft (k : Kind) : KindDraft where
  name := some k.name
  machineName := k.givenMachineName.map some
  pluralName := k.givenPluralName.map some
  description := given k.description

/-- The draft of `k` after its sections. -/
def bodyDraft (k : Kind) : KindDraft :=
  { k.headDraft with
    maturity := some k.maturity
    variants := some k.variants
    metadata := some k.metadata
    spec := some k.spec
    status := some k.status }

/-- The members for the names and the description of `k`. -/
def headMembers (k : Kind) : List (String × Json) :=
  [("name", .string k.name)] ++ optionalMember "machineName" k.givenMachineName ++
    optionalMember "pluralName" k.givenPluralName ++
    if k.description.isEmpty then [] else [("description", .texts k.description)]

/-- The members for the maturity, the variants and the sections of `k`. -/
def bodyMembers (k : Kind) : List (String × Json) :=
  [("maturity", .string k.maturity.name),
    ("variants", .texts (k.variants.map VariantId.name)),
    ("metadata", k.metadata.toJson),
    ("spec", k.spec.toJson),
    ("status", k.status.toJson)]

/-- The member for the definitions of `k`. -/
def definitionMembers (k : Kind) : List (String × Json) :=
  if k.definitions.isEmpty then []
  else [("definitions", .array (k.definitions.map Definition.toJson))]

theorem toJson_eq : k.toJson = .object (k.headMembers ++ k.bodyMembers ++ k.definitionMembers) :=
  rfl

private theorem puts_headMembers (hdepth : ∀ member ∈ k.headMembers, member.2.depth ≤ budget) :
    (kindFormat budget).Puts {} k.headMembers k.headDraft := by
  have hname : (kindFormat budget).Puts {} [("name", .string k.name)] { name := some k.name } :=
    .single rfl
  have hmachineName : (kindFormat budget).Puts { name := some k.name }
      -- Each group of members is put into the draft that the groups before it have left.
      (optionalMember "machineName" k.givenMachineName)
      { name := some k.name, machineName := k.givenMachineName.map some } :=
    .optionalMember (fun machineName => ({ name := some k.name, machineName } : KindDraft))
      fun _ => rfl
  have hpluralName : (kindFormat budget).Puts
      { name := some k.name, machineName := k.givenMachineName.map some }
      (optionalMember "pluralName" k.givenPluralName)
      { name := some k.name, machineName := k.givenMachineName.map some
        pluralName := k.givenPluralName.map some } :=
    .optionalMember (fun pluralName => ({
      name := some k.name, machineName := k.givenMachineName.map some, pluralName } : KindDraft))
      fun _ => rfl
  refine ((hname.append hmachineName).append hpluralName).append ?_
  refine .given (fun description => ({ k.headDraft with description } : KindDraft)) fun hne => ?_
  have hdescription : (texts k.description).depth ≤ budget := by
    refine hdepth ("description", .texts k.description) (List.mem_append_right _ ?_)
    rw [if_neg (mt List.isEmpty_iff.mp hne)]
    exact List.mem_singleton_self _
  exact return_eq_ok (decodeStrings_texts hdescription)

private theorem puts_bodyMembers (hdepth : ∀ member ∈ k.bodyMembers, member.2.depth ≤ budget) :
    (kindFormat budget).Puts k.headDraft k.bodyMembers k.bodyDraft := by
  have hmaturity : decodeChoice budget Maturity.words (Json.string k.maturity.name).reading =
      .ok k.maturity := by
    cases k.maturity <;> rfl
  have hvariants : decodeList budget (fun budget => decodeChoice budget VariantId.words)
      (texts (k.variants.map VariantId.name)).reading = .ok k.variants := by
    have hlist : (texts (k.variants.map VariantId.name)).depth ≤ budget :=
      hdepth ("variants", .texts (k.variants.map VariantId.name)) (by simp [bodyMembers])
    rw [depth_texts] at hlist
    obtain ⟨inner, rfl⟩ := Nat.exists_eq_add_of_le' hlist
    exact decodeList_variants inner k.variants
  have hmetadata := MetadataSection.decode_toJson
    (hdepth ("metadata", k.metadata.toJson) (by simp [bodyMembers]))
  have hspec := StructType.decode_toJson
    (hdepth ("spec", k.spec.toJson) (by simp [bodyMembers]))
  have hstatus := StructType.decode_toJson
    (hdepth ("status", k.status.toJson) (by simp [bodyMembers]))
  exact .cons (return_eq_ok hmaturity) (.cons (return_eq_ok hvariants)
    (.cons (return_eq_ok hmetadata) (.cons (return_eq_ok hspec) (.single (return_eq_ok hstatus)))))

private theorem puts_definitionMembers
    (hdepth : ∀ member ∈ k.definitionMembers, member.2.depth ≤ budget) :
    (kindFormat budget).Puts k.bodyDraft k.definitionMembers
      { k.bodyDraft with definitions := given k.definitions } := by
  refine .given (fun definitions => ({ k.bodyDraft with definitions } : KindDraft)) fun hne => ?_
  have hlist : (Json.array (k.definitions.map Definition.toJson)).depth ≤ budget := by
    refine hdepth ("definitions", .array (k.definitions.map Definition.toJson)) ?_
    rw [definitionMembers, if_neg (mt List.isEmpty_iff.mp hne)]
    exact List.mem_singleton_self _
  obtain ⟨inner, rfl, hdefinitions⟩ := depth_array_le_iff.mp hlist
  refine return_eq_ok (decodeList_array fun d hd => ?_)
  exact Definition.decode_toJson (hdefinitions d.toJson (List.mem_map_of_mem hd))

/-- The members of a kind stand in the order of the keys. -/
private theorem keys_members :
    ((k.headMembers ++ k.bodyMembers ++ k.definitionMembers).map (·.1)).Sublist
    ["name", "machineName", "pluralName", "description", "maturity", "variants", "metadata",
      "spec", "status", "definitions"] := by
  have hhead : (k.headMembers.map (·.1)).Sublist
      ["name", "machineName", "pluralName", "description"] := by
    rw [headMembers, List.map_append, List.map_append, List.map_append]
    exact (((List.Sublist.refl ["name"]).append (keys_optionalMember _ _)).append
      (keys_optionalMember _ _)).append (keys_given _ _ _)
  rw [List.map_append, List.map_append]
  exact (hhead.append (.refl _)).append (keys_given k.definitions "definitions" _)

/-- The JSON form of `k` is decoded to `k`, if it does not nest more brackets than `budget`. -/
theorem decode_toJson (hdepth : k.toJson.depth ≤ budget) :
    RecordFormat.decode false budget kindFormat k.toJson.reading = .ok k := by
  rw [toJson_eq] at hdepth ⊢
  obtain ⟨budget, rfl, hmembers⟩ := depth_object_le_iff.mp hdepth
  obtain ⟨hmembers, hdefinitions⟩ := List.forall_mem_append.mp hmembers
  obtain ⟨hhead, hbody⟩ := List.forall_mem_append.mp hmembers
  have hnodup : (kindFormat budget).keys.Nodup := by
    change ["name", "machineName", "pluralName", "description", "maturity", "variants",
      "metadata", "spec", "status", "definitions"].Nodup
    decide
  refine (((puts_headMembers hhead).append (puts_bodyMembers hbody)).append
    (puts_definitionMembers hdefinitions)).ofMembers keys_members hnodup ?_
  change Except.ok ({ k with
    givenMachineName := (k.givenMachineName.map some).getD none
    givenPluralName := (k.givenPluralName.map some).getD none
    description := (given k.description).getD []
    definitions := (given k.definitions).getD [] } : Kind) = .ok k
  rw [getD_map_some, getD_map_some, getD_given, getD_given]

end Kind

end Kinds

end KindSchema
