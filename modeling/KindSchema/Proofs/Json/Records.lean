import KindSchema.Proofs.Json.Reading
import KindSchema.Proofs.Kind.Validation

/-!
# Lists and structs in JSON

General facts on the decoders of lists and structs, in two directions.

* What was written is decoded: `decodeList_array` and `RecordFormat.Puts.ofMembers`, where
  `RecordFormat.Puts` says which draft the members of an object lead to.
* What is decoded has a property: `exists_of_decodeList`, and `RecordFormat.Ensures.decode` for a
  property that every step of a format keeps.
-/

namespace KindSchema.Json

theorem unexpected_ne_ok {α : Type} {expected : String} {r : Reading} {a : α} :
    unexpected expected r ≠ .ok a := by
  intro h
  obtain ⟨found, -, h⟩ := bind_eq_ok.mp h
  cases h

theorem ofFlaw_eq_ok_iff {α : Type} {x : Except Flaw α} {a : α} :
    ofFlaw x = .ok a ↔ x = .ok a := by
  cases x with
  | ok b => exact ⟨fun h => congrArg _ (Except.ok.inj h), fun h => congrArg _ (Except.ok.inj h)⟩
  | error flaw => exact ⟨nofun, nofun⟩

theorem proceed_eq_ok_iff {flaw? : Option Flaw} {u : Unit} :
    proceed flaw? = .ok u ↔ flaw? = none := by
  cases flaw? with
  | none => exact ⟨fun _ => rfl, fun _ => rfl⟩
  | some flaw => exact ⟨nofun, nofun⟩

/-- The value of `key`, if it is required, is the one that was given. -/
theorem required_eq_ok {α : Type} {missing : String → Misfit} {key : String} {value? : Option α}
    {a : α} : required missing key value? = .ok a ↔ value? = some a := by
  cases value? with
  | none => exact ⟨nofun, nofun⟩
  | some value =>
    exact ⟨fun h => congrArg _ (Except.ok.inj h), fun h => congrArg _ (Option.some.inj h)⟩

/-- The step `x` whose result is only wrapped up by `wrap` succeeds if `x` does. -/
theorem return_eq_ok {α β : Type} {x : Decoded α} {a : α} {wrap : α → β} (h : x = .ok a) :
    (do return wrap (← x)) = .ok (wrap a) :=
  bind_return_eq_ok.mpr ⟨a, h, rfl⟩

/-! ### Lists -/

section Lists

variable {α : Type} {budget : Nat}

/-- Items that were written one by one are decoded one by one. -/
private theorem decodeItems_readings {decode : Reading → Decoded α} {encode : α → Json} {l : List α}
    (h : ∀ a ∈ l, decode (encode a).reading = .ok a) :
    decodeItems decode (itemReadings (l.map encode)) = .ok l := by
  induction l with
  | nil => rfl
  | cons a l ih =>
    obtain ⟨ha, hl⟩ := List.forall_mem_cons.mp h
    rw [List.map_cons, itemReadings, decodeItems, ha, ih hl]
    rfl

/-- The list `l` that was written item by item with `encode` is decoded. -/
theorem decodeList_array {decode : Nat → Reading → Decoded α} {encode : α → Json} {l : List α}
    (h : ∀ a ∈ l, decode budget (encode a).reading = .ok a) :
    decodeList (budget + 1) decode (Json.array (l.map encode)).reading = .ok l := by
  rw [reading, decodeList, decodeItems_readings h]
  rfl

/-- The list of `lines` takes one bracket. -/
theorem decodeStrings_texts {lines : List String} (h : (texts lines).depth ≤ budget) :
    decodeStrings budget (texts lines).reading = .ok lines := by
  rw [depth_texts] at h
  obtain ⟨budget, rfl⟩ := Nat.exists_eq_add_of_le' h
  exact decodeList_array fun _ _ => rfl

/-- Each item of a decoded list was decoded. -/
private theorem exists_of_decodeItems {decode : Reading → Decoded α} {items : List Reading}
    {l : List α} (h : decodeItems decode items = .ok l) : ∀ a ∈ l, ∃ item, decode item = .ok a := by
  induction items generalizing l with
  | nil =>
    cases h
    exact fun a ha => absurd ha List.not_mem_nil
  | cons item items ih =>
    obtain ⟨a, ha, h⟩ := bind_eq_ok.mp h
    obtain ⟨rest, hrest, rfl⟩ := bind_return_eq_ok.mp h
    exact List.forall_mem_cons.mpr ⟨⟨item, ha⟩, ih hrest⟩

/-- The decoded list `l` takes a bracket of `budget`, and each of its items was decoded inside
it. -/
theorem exists_of_decodeList {decode : Nat → Reading → Decoded α} {r : Reading} {l : List α}
    (h : decodeList budget decode r = .ok l) :
    ∃ inner, budget = inner + 1 ∧ ∀ a ∈ l, ∃ item, decode inner item = .ok a := by
  unfold decodeList at h
  split at h
  · split at h
    · cases h
    · next items finish inner =>
      obtain ⟨values, hvalues, h⟩ := bind_eq_ok.mp h
      obtain ⟨_, -, rfl⟩ := bind_return_eq_ok.mp h
      exact ⟨inner, rfl, exists_of_decodeItems hvalues⟩
  · exact absurd h unexpected_ne_ok

/-- If no item nests more brackets than the budget it was decoded with, the decoded list `l` does
not either. -/
theorem depth_array_of_decodeList {decode : Nat → Reading → Decoded α} {encode : α → Json}
    {r : Reading} {l : List α} (h : decodeList budget decode r = .ok l)
    (hitem : ∀ {n : Nat} {r : Reading} {a : α}, decode n r = .ok a → (encode a).depth ≤ n) :
    (Json.array (l.map encode)).depth ≤ budget := by
  obtain ⟨inner, rfl, hl⟩ := exists_of_decodeList h
  refine depth_array_le_iff.mpr ⟨inner, rfl, List.forall_mem_map.mpr fun a ha => ?_⟩
  obtain ⟨r, hr⟩ := hl a ha
  exact hitem hr

theorem depth_texts_of_decodeStrings {r : Reading} {lines : List String}
    (h : decodeStrings budget r = .ok lines) : (texts lines).depth ≤ budget :=
  depth_array_of_decodeList h fun _ => Nat.zero_le _

end Lists

namespace RecordFormat

section Steps

variable {δ α : Type} {format : RecordFormat δ α}

/-- How the first member of an object is put into a draft, or skipped. -/
theorem putMembers_cons_eq_ok_iff {draft last : δ} {seen : List String} {key value : Reading}
    {members : List (Reading × Reading)} :
    format.putMembers draft seen ((key, value) :: members) = .ok last ↔
      ∃ name, key.key = .ok name ∧
        ((name ∈ format.keys ∧ name ∉ seen ∧ ∃ next, format.put draft name value = .ok next ∧
            format.putMembers next (name :: seen) members = .ok last) ∨
          (name ∉ format.keys ∧ value.flaw? = none ∧
            format.putMembers draft seen members = .ok last)) := by
  rw [putMembers, bind_eq_ok]
  refine exists_congr fun name => and_congr ofFlaw_eq_ok_iff ?_
  by_cases hknown : name ∈ format.keys
  · by_cases hseen : name ∈ seen
    · rw [if_pos hknown, if_pos hseen]
      exact ⟨nofun, fun h => h.elim (fun h => absurd hseen h.2.1) fun h => absurd hknown h.1⟩
    · rw [if_pos hknown, if_neg hseen, bind_eq_ok]
      exact ⟨fun h => .inl ⟨hknown, hseen, h⟩,
        fun h => h.elim (fun h => h.2.2) fun h => absurd hknown h.1⟩
  · rw [if_neg hknown, bind_eq_ok]
    simp only [proceed_eq_ok_iff]
    exact ⟨fun ⟨_, hflaw, h⟩ => .inr ⟨hknown, hflaw, h⟩,
      fun h => h.elim (fun h => absurd h.1 hknown) fun h => ⟨(), h.2⟩⟩

variable {items : List Reading} {a : α}

/-- The values of an array, `items`, stand for a struct if they are put into the draft with none
left over. -/
theorem ofItems_eq_ok_iff : format.ofItems items = .ok a ↔
    ∃ draft, format.putItems format.empty format.keys items = .ok (draft, []) ∧
      format.finishItems draft = .ok a := by
  rw [ofItems, bind_eq_ok]
  constructor
  · rintro ⟨⟨draft, more⟩, hput, h⟩
    obtain ⟨value, hvalue, h⟩ := bind_eq_ok.mp h
    cases more with
    | nil =>
      cases h
      exact ⟨draft, hput, hvalue⟩
    | cons => cases h
  · rintro ⟨draft, hput, hvalue⟩
    exact ⟨(draft, []), hput, bind_eq_ok.mpr ⟨a, hvalue, rfl⟩⟩

/-- The array must end as it should, unless it has been read in full before. -/
theorem decode_array_outside_iff {format : Nat → RecordFormat δ α} {budget : Nat}
    {finish : Option Flaw} :
    decode false (budget + 1) format (.array items finish) = .ok a ↔
      finish = none ∧ (format budget).ofItems items = .ok a := by
  rw [ofItems_eq_ok_iff]
  constructor
  · intro h
    obtain ⟨⟨draft, more⟩, hput, h⟩ := bind_eq_ok.mp h
    -- The early check for too few items only decides which error comes first.
    have hgo : (do
        let value ← (format budget).finishItems draft
        if more.isEmpty then proceed finish else flawed .malformed
        return value) = .ok a := by
      dsimp only at h
      split at h
      · exact (bind_eq_ok.mp h).choose_spec.2
      · exact h
    obtain ⟨value, hvalue, h⟩ := bind_eq_ok.mp hgo
    cases more with
    | nil =>
      obtain ⟨_, hfinish, rfl⟩ := bind_return_eq_ok.mp h
      exact ⟨proceed_eq_ok_iff.mp hfinish, draft, hput, hvalue⟩
    | cons => cases h
  · rintro ⟨rfl, draft, hput, hvalue⟩
    refine bind_eq_ok.mpr ⟨(draft, []), hput, ?_⟩
    have hgo : (do
        let value ← (format budget).finishItems draft
        proceed none
        return value) = .ok a := bind_eq_ok.mpr ⟨a, hvalue, rfl⟩
    dsimp only
    split <;> exact hgo

theorem decode_array_eq_ok_iff {format : Nat → RecordFormat δ α} {inside : Bool} {budget : Nat} :
    decode inside (budget + 1) format (.array items none) = .ok a ↔
      (format budget).ofItems items = .ok a := by
  cases inside with
  | true => exact Iff.rfl
  | false => exact decode_array_outside_iff.trans (and_iff_right rfl)

end Steps

section Puts

variable {δ α : Type} (format : RecordFormat δ α)

/-- That `members`, put into `draft` one after the other, lead to `draft'`. -/
def Puts (draft : δ) (members : List (String × Json)) (draft' : δ) : Prop :=
  members.foldlM (fun draft member => format.put draft member.1 member.2.reading) draft = .ok draft'

variable {format} {draft draft' draft'' : δ} {members others : List (String × Json)}

theorem Puts.nil : format.Puts draft [] draft :=
  rfl

theorem Puts.cons {key : String} {value : Json}
    (h : format.put draft key value.reading = .ok draft')
    (h' : format.Puts draft' members draft'') :
    format.Puts draft ((key, value) :: members) draft'' := by
  rw [Puts, List.foldlM_cons, bind_eq_ok]
  exact ⟨draft', h, h'⟩

theorem Puts.single {key : String} {value : Json}
    (h : format.put draft key value.reading = .ok draft') :
    format.Puts draft [(key, value)] draft' :=
  .cons h .nil

theorem Puts.append (h : format.Puts draft members draft')
    (h' : format.Puts draft' others draft'') : format.Puts draft (members ++ others) draft'' := by
  rw [Puts, List.foldlM_append, bind_eq_ok]
  exact ⟨draft', h, h'⟩

/-- Members with known and different keys are all put into the draft. -/
private theorem Puts.putMembers {seen : List String} (h : format.Puts draft members draft')
    (hkeys : ∀ member ∈ members, member.1 ∈ format.keys) (hnodup : (members.map (·.1)).Nodup)
    (hseen : ∀ member ∈ members, member.1 ∉ seen) :
    format.putMembers draft seen (memberReadings members) = .ok draft' := by
  induction members generalizing draft seen with
  | nil => exact h
  | cons member members ih =>
    obtain ⟨key, value⟩ := member
    obtain ⟨hkey, hkeys⟩ := List.forall_mem_cons.mp hkeys
    obtain ⟨hnew, hseen⟩ := List.forall_mem_cons.mp hseen
    obtain ⟨hother, hnodup⟩ := List.nodup_cons.mp hnodup
    obtain ⟨next, hnext, hrest⟩ := bind_eq_ok.mp h
    have hput : format.put draft key value.reading = .ok next := hnext
    -- Keys differ, so the ones that follow are still new after this one is put.
    have hunseen : ∀ member ∈ members, member.1 ∉ key :: seen := by
      intro member hmember
      rw [List.mem_cons, not_or]
      have hmem : member.1 ∈ members.map (·.1) := List.mem_map_of_mem hmember
      exact ⟨fun heq => hother (heq ▸ hmem), hseen member hmember⟩
    have hmembers := ih hrest hkeys hnodup hunseen
    rw [memberReadings]
    exact putMembers_cons_eq_ok_iff.mpr ⟨key, rfl, .inl ⟨hkey, hnew, next, hput, hmembers⟩⟩

/-- An object of `members`, whose keys are some of the keys of `format`, in their order, is decoded
by completing the draft that its members lead to. -/
theorem Puts.ofMembers {a : α} (h : format.Puts format.empty members draft)
    (hkeys : (members.map (·.1)).Sublist format.keys) (hnodup : format.keys.Nodup)
    (hfinish : format.finish draft .missingField = .ok a) :
    format.ofMembers (memberReadings members) none = .ok a := by
  have hmem : ∀ member ∈ members, member.1 ∈ format.keys :=
    fun member hmember => hkeys.subset (List.mem_map_of_mem hmember)
  rw [RecordFormat.ofMembers, h.putMembers hmem (hnodup.sublist hkeys) fun _ _ => List.not_mem_nil]
  exact hfinish

end Puts

/-! ### What a format ensures -/

/-- That every draft of `format` has the property `P`, and every completed value `Q`. -/
structure Ensures {δ α : Type} (format : RecordFormat δ α) (P : δ → Prop) (Q : α → Prop) :
    Prop where
  empty : P format.empty
  put : ∀ {draft key value draft'}, P draft → format.put draft key value = .ok draft' → P draft'
  finish : ∀ {draft missing a}, P draft → format.finish draft missing = .ok a → Q a

namespace Ensures

variable {δ α : Type} {format : RecordFormat δ α} {P : δ → Prop} {Q : α → Prop} {a : α}

private theorem putMembers (h : format.Ensures P Q) {draft draft' : δ} {seen : List String}
    {members : List (Reading × Reading)} (hdraft : P draft)
    (hput : format.putMembers draft seen members = .ok draft') : P draft' := by
  induction members generalizing draft seen with
  | nil =>
    cases hput
    exact hdraft
  | cons member members ih =>
    obtain ⟨_, -, hput⟩ := putMembers_cons_eq_ok_iff.mp hput
    rcases hput with ⟨-, -, next, hnext, hput⟩ | ⟨-, -, hput⟩
    · exact ih (h.put hdraft hnext) hput
    · exact ih hdraft hput

private theorem putItems (h : format.Ensures P Q) {draft : δ} {keys : List String}
    {items : List Reading} {result : δ × List Reading} (hdraft : P draft)
    (hput : format.putItems draft keys items = .ok result) : P result.1 := by
  induction keys generalizing draft items with
  | nil =>
    cases hput
    exact hdraft
  | cons key keys ih =>
    cases items with
    | nil =>
      cases hput
      exact hdraft
    | cons item items =>
      obtain ⟨next, hnext, hput⟩ := bind_eq_ok.mp hput
      exact ih (h.put hdraft hnext) hput

theorem ofMembers (h : format.Ensures P Q) {members : List (Reading × Reading)}
    {finish : Option Flaw} (hdecode : format.ofMembers members finish = .ok a) : Q a := by
  obtain ⟨draft, hdraft, hdecode⟩ := bind_eq_ok.mp hdecode
  obtain ⟨_, -, hdecode⟩ := bind_eq_ok.mp hdecode
  exact h.finish (h.putMembers h.empty hdraft) hdecode

theorem ofItems (h : format.Ensures P Q) {items : List Reading}
    (hdecode : format.ofItems items = .ok a) : Q a := by
  obtain ⟨result, hdraft, hdecode⟩ := bind_eq_ok.mp hdecode
  obtain ⟨value, hvalue, hdecode⟩ := bind_eq_ok.mp hdecode
  split at hdecode
  · cases hdecode
    exact h.finish (h.putItems h.empty hdraft) hvalue
  · cases hdecode

/-- A decoded struct takes a bracket of `budget`, and has the property that `format` ensures inside
it. -/
theorem decode {format : Nat → RecordFormat δ α} {P : Nat → δ → Prop} {Q : Nat → α → Prop}
    (h : ∀ inner, (format inner).Ensures (P inner) (Q inner)) {inside : Bool} {budget : Nat}
    {r : Reading} (hdecode : RecordFormat.decode inside budget format r = .ok a) :
    ∃ inner, budget = inner + 1 ∧ Q inner a := by
  cases r with
  | array items finish =>
    cases budget with
    | zero => cases hdecode
    | succ inner =>
      cases inside with
      | true => exact ⟨inner, rfl, (h inner).ofItems hdecode⟩
      | false => exact ⟨inner, rfl, (h inner).ofItems (decode_array_outside_iff.mp hdecode).2⟩
  | object members finish =>
    cases budget with
    | zero => cases hdecode
    | succ inner => exact ⟨inner, rfl, (h inner).ofMembers hdecode⟩
  | _ => exact absurd hdecode unexpected_ne_ok

end Ensures

end RecordFormat

end KindSchema.Json
