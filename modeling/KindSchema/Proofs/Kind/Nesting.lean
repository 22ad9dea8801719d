import KindSchema.Proofs.Kind.Decoding

/-!
# The nesting of what is decoded

The JSON form of whatever is decoded does not nest more brackets than the budget of the decoder, in
whatever form it was given: defaults and other ways to write a value never make it deeper.

* `depth_of_decodeLevels`: type expressions, by induction on the levels that may be nested.
* `Kind.depth_of_decode`: kinds.
-/

namespace KindSchema

open Json

private theorem forall_mem_some {α : Type} {P : α → Prop} {a : α} (h : P a) :
    ∀ b ∈ some a, P b := by
  rintro _ ⟨⟩
  exact h

section Members

variable {budget : Nat}

/-- A list that was given within the budget is written within it, if it is written at all. -/
private theorem depth_given {α : Type} {l? : Option (List α)} {write : List α → Json} (key : String)
    (h : ∀ l ∈ l?, (write l).depth ≤ budget) :
    ∀ member ∈ if (l?.getD []).isEmpty then [] else [(key, write (l?.getD []))],
      member.2.depth ≤ budget := by
  intro member hmember
  split at hmember
  · exact absurd hmember List.not_mem_nil
  · next hne =>
    cases l? with
    | none => exact absurd rfl hne
    | some l =>
      rw [List.mem_singleton.mp hmember]
      exact h l rfl

/-- Documentation that was given within the budget is written within it. -/
private theorem depth_docsMember {docs? : Option (List String)}
    (h : ∀ docs ∈ docs?, (texts docs).depth ≤ budget) :
    ∀ member ∈ docsMember (docs?.getD []), member.2.depth ≤ budget :=
  depth_given "docs" h

private theorem depth_optionalMember (budget : Nat) (key : String) (text? : Option String) :
    ∀ member ∈ optionalMember key text?, member.2.depth ≤ budget := by
  intro member hmember
  cases text? with
  | none => exact absurd hmember List.not_mem_nil
  | some text =>
    rw [List.mem_singleton.mp hmember]
    exact Nat.zero_le budget

end Members

/-- A payload has the property that its format ensures. -/
private theorem Json.RecordFormat.Ensures.payload {δ α : Type} {format : RecordFormat δ α}
    {P : δ → Prop} {Q : α → Prop} {a : α} {payload : Payload} (h : format.Ensures P Q)
    (hdecode : payload.decode format = .ok a) : Q a := by
  cases payload with
  | items items => exact h.ofItems hdecode
  | members members => exact h.ofMembers hdecode

/-! ### Fields and structs -/

/-- That `decodeType` never decodes a type expression that nests more brackets than its budget. -/
def BoundsTypes (decodeType : Nat → Reading → Decoded TypeExpr) : Prop :=
  ∀ {n : Nat} {r : Reading} {t : TypeExpr}, decodeType n r = .ok t → t.toJson.depth ≤ n

/-- That what `draft` holds nests no more brackets than `budget`. -/
structure FieldDraft.Fits (budget : Nat) (draft : FieldDraft) : Prop where
  type : ∀ t ∈ draft.type, t.toJson.depth ≤ budget
  docs : ∀ docs ∈ draft.docs, (texts docs).depth ≤ budget

/-- That what `draft` holds nests no more brackets than `budget`. -/
structure StructDraft.Fits (budget : Nat) (draft : StructDraft) : Prop where
  docs : ∀ docs ∈ draft.docs, (texts docs).depth ≤ budget
  fields : ∀ fields ∈ draft.fields, (Json.array (fields.map Field.toJson)).depth ≤ budget

section Structs

variable {decodeType : Nat → Reading → Decoded TypeExpr} {inside : Bool} {budget : Nat}

private theorem fieldFormat_ensures (hbound : BoundsTypes decodeType) :
    (fieldFormat decodeType budget).Ensures (FieldDraft.Fits budget)
      fun f => f.toJson.depth ≤ budget + 1 where
  empty := ⟨nofun, nofun⟩
  put := by
    intro draft key value draft' hdraft hput
    -- Only the type and the documentation are nested.
    dsimp only [fieldFormat] at hput
    split at hput
    · obtain ⟨name, -, rfl⟩ := bind_return_eq_ok.mp hput
      exact ⟨hdraft.type, hdraft.docs⟩
    · obtain ⟨type, htype, rfl⟩ := bind_return_eq_ok.mp hput
      exact ⟨forall_mem_some (hbound htype), hdraft.docs⟩
    · obtain ⟨optional, -, rfl⟩ := bind_return_eq_ok.mp hput
      exact ⟨hdraft.type, hdraft.docs⟩
    · obtain ⟨docs, hdocs, rfl⟩ := bind_return_eq_ok.mp hput
      exact ⟨hdraft.type, forall_mem_some (depth_texts_of_decodeStrings hdocs)⟩
    · cases hput
      exact hdraft
  finish := by
    intro draft missing f hdraft hfinish
    obtain ⟨name, -, hfinish⟩ := bind_eq_ok.mp hfinish
    obtain ⟨type, htype, rfl⟩ := bind_return_eq_ok.mp hfinish
    refine depth_object_le_iff.mpr ⟨budget, rfl, ?_⟩
    refine List.forall_mem_append.mpr ⟨?_, depth_docsMember hdraft.docs⟩
    simp only [List.forall_mem_cons]
    exact ⟨Nat.zero_le _, hdraft.type type (required_eq_ok.mp htype), Nat.zero_le _,
      fun member hmember => absurd hmember List.not_mem_nil⟩

private theorem Field.depth_of_decode (hbound : BoundsTypes decodeType) {r : Reading}
    {f : Field TypeExpr}
    (h : RecordFormat.decode inside budget (fieldFormat decodeType) r = .ok f) :
    f.toJson.depth ≤ budget := by
  obtain ⟨inner, rfl, hdepth⟩ := RecordFormat.Ensures.decode (fun _ => fieldFormat_ensures hbound) h
  exact hdepth

private theorem structFormat_ensures (hbound : BoundsTypes decodeType) :
    (structFormat inside decodeType budget).Ensures (StructDraft.Fits budget)
      fun s => ∀ member ∈ structMembers s, member.2.depth ≤ budget where
  empty := ⟨nofun, nofun⟩
  put := by
    intro draft key value draft' hdraft hput
    dsimp only [structFormat] at hput
    split at hput
    · obtain ⟨name, -, rfl⟩ := bind_return_eq_ok.mp hput
      exact ⟨hdraft.docs, hdraft.fields⟩
    · obtain ⟨docs, hdocs, rfl⟩ := bind_return_eq_ok.mp hput
      exact ⟨forall_mem_some (depth_texts_of_decodeStrings hdocs), hdraft.fields⟩
    · obtain ⟨fields, hfields, rfl⟩ := bind_return_eq_ok.mp hput
      have hdepth := depth_array_of_decodeList hfields (Field.depth_of_decode hbound)
      exact ⟨hdraft.docs, forall_mem_some hdepth⟩
    · cases hput
      exact hdraft
  finish := by
    intro draft missing s hdraft hfinish
    obtain ⟨fields, hfields, rfl⟩ := bind_return_eq_ok.mp hfinish
    have hname := depth_optionalMember budget "name" (draft.name.getD none)
    refine List.forall_mem_append.mpr
      ⟨List.forall_mem_append.mpr ⟨hname, depth_docsMember hdraft.docs⟩, ?_⟩
    exact List.forall_mem_singleton.mpr (hdraft.fields fields (required_eq_ok.mp hfields))

end Structs

/-! ### Type expressions -/

private theorem singleFormat_ensures {α : Type} {title key : String} {decode : Reading → Decoded α}
    {Q : α → Prop} (h : ∀ {r a}, decode r = .ok a → Q a) :
    (singleFormat title key decode).Ensures (fun draft => ∀ a ∈ draft, Q a) Q where
  empty := nofun
  put := by
    intro draft key value draft' _ hput
    obtain ⟨a, ha, rfl⟩ := bind_return_eq_ok.mp hput
    exact forall_mem_some (h ha)
  finish := by
    intro draft missing a hdraft hfinish
    exact hdraft a (required_eq_ok.mp hfinish)

/-- The payload of a type expression leads to one that takes a bracket more than its parts. -/
private theorem depth_of_decodePayload {decodeType : Nat → Reading → Decoded TypeExpr}
    (hbound : BoundsTypes decodeType) {budget : Nat} {payload : Payload} {form : TypeForm}
    {t : TypeExpr} (h : form.decodePayload decodeType budget payload = .ok t) :
    t.toJson.depth ≤ budget + 1 := by
  cases form with
  | scalar =>
    obtain ⟨s, -, rfl⟩ := bind_return_eq_ok.mp h
    exact depth_tagged_le_iff.mpr ⟨budget, rfl, Nat.zero_le budget⟩
  | enum =>
    obtain ⟨values, hvalues, rfl⟩ := bind_return_eq_ok.mp h
    have hdepth := (singleFormat_ensures depth_texts_of_decodeStrings).payload hvalues
    exact depth_tagged_le_iff.mpr ⟨budget, rfl, hdepth⟩
  | array =>
    obtain ⟨items, hitems, rfl⟩ := bind_return_eq_ok.mp h
    have hdepth := (singleFormat_ensures hbound).payload hitems
    exact depth_tagged_le_iff.mpr ⟨budget, rfl, hdepth⟩
  | map =>
    obtain ⟨values, hvalues, rfl⟩ := bind_return_eq_ok.mp h
    have hdepth := (singleFormat_ensures hbound).payload hvalues
    exact depth_tagged_le_iff.mpr ⟨budget, rfl, hdepth⟩
  | struct =>
    obtain ⟨s, hs, rfl⟩ := bind_return_eq_ok.mp h
    rw [TypeExpr.toJson_struct]
    refine depth_object_le_iff.mpr ⟨budget, rfl, ?_⟩
    exact List.forall_mem_cons.mpr ⟨Nat.zero_le _, (structFormat_ensures hbound).payload hs⟩
  | reference =>
    obtain ⟨name, -, rfl⟩ := bind_return_eq_ok.mp h
    exact depth_tagged_le_iff.mpr ⟨budget, rfl, Nat.zero_le budget⟩

/-- The type expression `t` that is decoded within `budget` nests no more brackets than that. -/
theorem depth_of_decodeLevels {levels budget : Nat} {inside : Bool} {r : Reading} {t : TypeExpr}
    (h : TypeExpr.decodeLevels levels inside budget r = .ok t) : t.toJson.depth ≤ budget := by
  induction levels generalizing budget inside r t with
  | zero => cases h
  | succ levels ih =>
    unfold TypeExpr.decodeLevels at h
    split at h
    · cases h
    · cases h
    -- An empty list has no tag; the two cases behind it are the two notations of a type.
    · obtain ⟨_, -, h⟩ := bind_eq_ok.mp h
      cases h
    · obtain ⟨form, -, h⟩ := bind_eq_ok.mp h
      obtain ⟨_, -, h⟩ := bind_eq_ok.mp h
      obtain ⟨_, -, h⟩ := bind_eq_ok.mp h
      exact depth_of_decodePayload ih h
    · obtain ⟨tagged, -, h⟩ := bind_eq_ok.mp h
      obtain ⟨_, -, h⟩ := bind_eq_ok.mp h
      obtain ⟨form, -, h⟩ := bind_eq_ok.mp h
      exact depth_of_decodePayload ih h
    · exact absurd h unexpected_ne_ok

private theorem boundsTypes_decode : BoundsTypes TypeExpr.decode :=
  depth_of_decodeLevels

/-! ### Kinds -/

/-- That what `draft` holds nests no more brackets than `budget`. -/
structure DefinitionDraft.Fits (budget : Nat) (draft : DefinitionDraft) : Prop where
  docs : ∀ docs ∈ draft.docs, (texts docs).depth ≤ budget
  type : ∀ t ∈ draft.type, t.toJson.depth ≤ budget

/-- That what `draft` holds nests no more brackets than `budget`. -/
structure SectionDraft.Fits (budget : Nat) (draft : SectionDraft) : Prop where
  docs : ∀ docs ∈ draft.docs, (texts docs).depth ≤ budget
  type : ∀ t ∈ draft.type, t.toJson.depth ≤ budget

/-- That what `draft` holds nests no more brackets than `budget`. -/
structure KindDraft.Fits (budget : Nat) (draft : KindDraft) : Prop where
  description : ∀ lines ∈ draft.description, (texts lines).depth ≤ budget
  metadata : ∀ s ∈ draft.metadata, s.toJson.depth ≤ budget
  spec : ∀ s ∈ draft.spec, (StructType.toJson s).depth ≤ budget
  status : ∀ s ∈ draft.status, (StructType.toJson s).depth ≤ budget
  definitions : ∀ definitions ∈ draft.definitions,
    (Json.array (definitions.map Definition.toJson)).depth ≤ budget

section Kinds

variable {budget : Nat}

private theorem StructType.depth_of_decode {r : Reading} {s : StructType}
    (h : StructType.decode budget r = .ok s) : (StructType.toJson s).depth ≤ budget := by
  obtain ⟨inner, rfl, hmembers⟩ := RecordFormat.Ensures.decode
    (fun _ => structFormat_ensures boundsTypes_decode) h
  rw [StructType.toJson_eq]
  exact depth_object_le_iff.mpr ⟨inner, rfl, hmembers⟩

private theorem definitionFormat_ensures :
    (definitionFormat budget).Ensures (DefinitionDraft.Fits budget)
      fun d => d.toJson.depth ≤ budget + 1 where
  empty := ⟨nofun, nofun⟩
  put := by
    intro draft key value draft' hdraft hput
    dsimp only [definitionFormat] at hput
    split at hput
    · obtain ⟨name, -, rfl⟩ := bind_return_eq_ok.mp hput
      exact ⟨hdraft.docs, hdraft.type⟩
    · obtain ⟨docs, hdocs, rfl⟩ := bind_return_eq_ok.mp hput
      exact ⟨forall_mem_some (depth_texts_of_decodeStrings hdocs), hdraft.type⟩
    · obtain ⟨type, htype, rfl⟩ := bind_return_eq_ok.mp hput
      exact ⟨hdraft.docs, forall_mem_some (boundsTypes_decode htype)⟩
    · cases hput
      exact hdraft
  finish := by
    intro draft missing d hdraft hfinish
    obtain ⟨name, -, hfinish⟩ := bind_eq_ok.mp hfinish
    obtain ⟨type, htype, rfl⟩ := bind_return_eq_ok.mp hfinish
    have htype := hdraft.type type (required_eq_ok.mp htype)
    refine depth_object_le_iff.mpr ⟨budget, rfl, List.forall_mem_cons.mpr ⟨Nat.zero_le _, ?_⟩⟩
    exact List.forall_mem_append.mpr
      ⟨depth_docsMember hdraft.docs, List.forall_mem_singleton.mpr htype⟩

private theorem Definition.depth_of_decode {r : Reading} {d : Definition}
    (h : RecordFormat.decode false budget definitionFormat r = .ok d) :
    d.toJson.depth ≤ budget := by
  obtain ⟨inner, rfl, hdepth⟩ := RecordFormat.Ensures.decode (fun _ => definitionFormat_ensures) h
  exact hdepth

private theorem sectionFormat_ensures :
    (sectionFormat budget).Ensures (SectionDraft.Fits budget)
      fun s => s.toJson.depth ≤ budget + 1 where
  empty := ⟨nofun, nofun⟩
  put := by
    intro draft key value draft' hdraft hput
    dsimp only [sectionFormat] at hput
    split at hput
    · obtain ⟨docs, hdocs, rfl⟩ := bind_return_eq_ok.mp hput
      exact ⟨forall_mem_some (depth_texts_of_decodeStrings hdocs), hdraft.type⟩
    · obtain ⟨type, htype, rfl⟩ := bind_return_eq_ok.mp hput
      exact ⟨hdraft.docs, forall_mem_some (boundsTypes_decode htype)⟩
    · cases hput
      exact hdraft
  finish := by
    intro draft missing s hdraft hfinish
    obtain ⟨type, htype, rfl⟩ := bind_return_eq_ok.mp hfinish
    have htype := hdraft.type type (required_eq_ok.mp htype)
    refine depth_object_le_iff.mpr ⟨budget, rfl, ?_⟩
    exact List.forall_mem_append.mpr
      ⟨depth_docsMember hdraft.docs, List.forall_mem_singleton.mpr htype⟩

private theorem MetadataSection.depth_of_decode {r : Reading} {s : MetadataSection}
    (h : RecordFormat.decode false budget sectionFormat r = .ok s) : s.toJson.depth ≤ budget := by
  obtain ⟨inner, rfl, hdepth⟩ := RecordFormat.Ensures.decode (fun _ => sectionFormat_ensures) h
  exact hdepth

namespace Kind

/-- A step of reading a kind keeps what the draft holds within the budget. -/
private theorem fits_put {draft draft' : KindDraft} {key : String} {value : Reading}
    (hdraft : draft.Fits budget) (hput : (kindFormat budget).put draft key value = .ok draft') :
    draft'.Fits budget := by
  dsimp only [kindFormat] at hput
  split at hput
  · obtain ⟨name, -, rfl⟩ := bind_return_eq_ok.mp hput
    exact { hdraft with }
  · obtain ⟨machineName, -, rfl⟩ := bind_return_eq_ok.mp hput
    exact { hdraft with }
  · obtain ⟨pluralName, -, rfl⟩ := bind_return_eq_ok.mp hput
    exact { hdraft with }
  · obtain ⟨description, hdescription, rfl⟩ := bind_return_eq_ok.mp hput
    have hdepth := depth_texts_of_decodeStrings hdescription
    exact { hdraft with description := forall_mem_some hdepth }
  · obtain ⟨maturity, -, rfl⟩ := bind_return_eq_ok.mp hput
    exact { hdraft with }
  · obtain ⟨variants, -, rfl⟩ := bind_return_eq_ok.mp hput
    exact { hdraft with }
  · obtain ⟨metadata, hmetadata, rfl⟩ := bind_return_eq_ok.mp hput
    exact { hdraft with metadata := forall_mem_some (MetadataSection.depth_of_decode hmetadata) }
  · obtain ⟨spec, hspec, rfl⟩ := bind_return_eq_ok.mp hput
    exact { hdraft with spec := forall_mem_some (StructType.depth_of_decode hspec) }
  · obtain ⟨status, hstatus, rfl⟩ := bind_return_eq_ok.mp hput
    exact { hdraft with status := forall_mem_some (StructType.depth_of_decode hstatus) }
  · obtain ⟨definitions, hdefinitions, rfl⟩ := bind_return_eq_ok.mp hput
    have hdepth := depth_array_of_decodeList hdefinitions Definition.depth_of_decode
    exact { hdraft with definitions := forall_mem_some hdepth }
  · cases hput
    exact hdraft

/-- The sections of a kind that gives none nest nine brackets at most. -/
private theorem depth_standardStatus : (StructType.toJson standardStatus).depth = 9 := by
  decide

private theorem depth_standardMetadata : ({} : MetadataSection).toJson.depth = 2 := by
  decide

/-- If the budget allows for the default sections, all that is read is within it. -/
private theorem depth_finish {draft : KindDraft} {missing : String → Misfit} {k : Kind}
    (hbudget : 9 ≤ budget) (hdraft : draft.Fits budget)
    (hfinish : (kindFormat budget).finish draft missing = .ok k) :
    k.toJson.depth ≤ budget + 1 := by
  obtain ⟨name, -, hfinish⟩ := bind_eq_ok.mp hfinish
  obtain ⟨spec, hspec, rfl⟩ := bind_return_eq_ok.mp hfinish
  have hspec := hdraft.spec spec (required_eq_ok.mp hspec)
  -- What is left out has a default, and the bound has to leave room for it.
  have hvariants : (texts ((draft.variants.getD VariantId.all).map VariantId.name)).depth ≤
      budget := by
    rw [depth_texts]
    omega
  have hmetadata : (draft.metadata.getD {}).toJson.depth ≤ budget := by
    cases h : draft.metadata with
    | none => exact Nat.le_trans (Nat.le_of_eq depth_standardMetadata) (by omega)
    | some s => exact hdraft.metadata s h
  have hstatus : (StructType.toJson (draft.status.getD standardStatus)).depth ≤ budget := by
    cases h : draft.status with
    | none => exact Nat.le_trans (Nat.le_of_eq depth_standardStatus) hbudget
    | some s => exact hdraft.status s h
  rw [toJson_eq]
  refine depth_object_le_iff.mpr ⟨budget, rfl, ?_⟩
  refine List.forall_mem_append.mpr ⟨List.forall_mem_append.mpr ⟨?_, ?_⟩, ?_⟩
  · rw [headMembers]
    simp only [List.forall_mem_append, List.forall_mem_singleton]
    exact ⟨⟨⟨Nat.zero_le _, depth_optionalMember _ _ _⟩, depth_optionalMember _ _ _⟩,
      depth_given "description" hdraft.description⟩
  · rw [bodyMembers]
    simp only [List.forall_mem_cons]
    exact ⟨Nat.zero_le _, hvariants, hmetadata, hspec, hstatus,
      fun member hmember => absurd hmember List.not_mem_nil⟩
  · exact depth_given "definitions" hdraft.definitions

private theorem kindFormat_ensures : (kindFormat budget).Ensures (KindDraft.Fits budget)
    fun k => 9 ≤ budget → k.toJson.depth ≤ budget + 1 where
  empty := ⟨nofun, nofun, nofun, nofun, nofun⟩
  put := fits_put
  finish := fun hdraft hfinish hbudget => depth_finish hbudget hdraft hfinish

/-- The kind `k` that is decoded within `budget` nests no more brackets than that, if `budget`
allows for the default sections. -/
theorem depth_of_decode {r : Reading} {k : Kind} (hbudget : 9 < budget)
    (h : RecordFormat.decode false budget kindFormat r = .ok k) : k.toJson.depth ≤ budget := by
  obtain ⟨inner, rfl, hdepth⟩ := RecordFormat.Ensures.decode (fun _ => kindFormat_ensures) h
  exact hdepth (Nat.le_of_lt_succ hbudget)

end Kind

end Kinds

end KindSchema
