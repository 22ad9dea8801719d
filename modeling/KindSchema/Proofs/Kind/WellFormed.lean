import KindSchema.Proofs.Kind.Validation

/-!
# What a well-formed kind is

The rules for kinds, stated of the kind and not of the checks for them. `TypeExpr.parts` are the
types inside a type; a type is well-formed if the names and the literals of each of its parts are in
order, at any depth and on whichever way a part is reached.

`Kind.validate_iff_wellFormed`: a kind passes its checks exactly if it is well-formed.
-/

namespace KindSchema

/-! ### Names -/

/-- That `c` is an ASCII capital. -/
def IsCapital (c : Char) : Prop := 'A' ≤ c ∧ c ≤ 'Z'

/-- That `c` is a small ASCII letter. -/
def IsSmall (c : Char) : Prop := 'a' ≤ c ∧ c ≤ 'z'

/-- That `c` is a decimal digit. -/
def IsDecimal (c : Char) : Prop := '0' ≤ c ∧ c ≤ '9'

/-- That `text` is a character of the class `first` followed by any number of characters of the
class `other`. -/
def ConsistsOf (first other : Char → Prop) (text : String) : Prop :=
  ∃ c cs, text.toList = c :: cs ∧ first c ∧ ∀ d ∈ cs, other d

/-- The names of kinds: `[A-Z][A-Za-z0-9]*`. -/
def IsKindName : String → Prop :=
  ConsistsOf IsCapital fun c => IsCapital c ∨ IsSmall c ∨ IsDecimal c

/-- The names of kinds in paths and packages: `[a-z][a-z0-9_]*`. -/
def IsMachineName : String → Prop :=
  ConsistsOf IsSmall fun c => IsSmall c ∨ IsDecimal c ∨ c = '_'

namespace ConsistsOf

variable {first other : Char → Prop} {a b : String}

/-- The character `c`, if it is of neither class, is not in a text of the classes. -/
theorem not_mem (h : ConsistsOf first other a) {c : Char} (hfirst : ¬first c) (hother : ¬other c) :
    c ∉ a.toList := by
  obtain ⟨d, ds, hchars, hd, hds⟩ := h
  rw [hchars, List.mem_cons]
  rintro (rfl | hmem)
  · exact hfirst hd
  · exact hother (hds c hmem)

/-- The text `a` goes on with `b`, which is appended to it. -/
theorem append_iff (ha : a ≠ "") : ConsistsOf first other (a ++ b) ↔
    ConsistsOf first other a ∧ ∀ c ∈ b.toList, other c := by
  obtain ⟨c, cs, hchars⟩ := List.exists_cons_of_ne_nil
    (fun hnil => ha (String.toList_eq_nil_iff.mp hnil) : a.toList ≠ [])
  have happended : (a ++ b).toList = c :: (cs ++ b.toList) := by
    rw [String.toList_append, hchars, List.cons_append]
  constructor
  · rintro ⟨d, ds, htext, hd, hds⟩
    obtain ⟨rfl, rfl⟩ := List.cons.inj (happended.symm.trans htext)
    exact ⟨⟨c, cs, hchars, hd, fun e he => hds e (List.mem_append_left _ he)⟩,
      fun e he => hds e (List.mem_append_right _ he)⟩
  · rintro ⟨⟨d, ds, htext, hd, hds⟩, hb⟩
    obtain ⟨rfl, rfl⟩ := List.cons.inj (hchars.symm.trans htext)
    exact ⟨c, cs ++ b.toList, happended, hd, List.forall_mem_append.mpr ⟨hds, hb⟩⟩

/-- The classes may be made wider. -/
theorem mono {first' other' : Char → Prop} (h : ConsistsOf first other a)
    (hfirst : ∀ c, first c → first' c) (hother : ∀ c, other c → other' c) :
    ConsistsOf first' other' a := by
  obtain ⟨c, cs, hchars, hc, hcs⟩ := h
  exact ⟨c, cs, hchars, hfirst c hc, fun d hd => hother d (hcs d hd)⟩

instance [DecidablePred first] [DecidablePred other] : Decidable (ConsistsOf first other a) :=
  match hchars : a.toList with
  | [] => .isFalse fun ⟨_, _, htext, _⟩ => nomatch hchars.symm.trans htext
  | c :: cs =>
    have : Decidable (∀ d ∈ cs, other d) := List.decidableBAll _ _
    decidable_of_iff (first c ∧ ∀ d ∈ cs, other d)
      ⟨fun ⟨hc, hcs⟩ => ⟨c, cs, hchars, hc, hcs⟩, fun ⟨_, _, htext, hc, hcs⟩ => by
        obtain ⟨rfl, rfl⟩ := List.cons.inj (hchars.symm.trans htext)
        exact ⟨hc, hcs⟩⟩

end ConsistsOf

theorem isUpper_iff {c : Char} : c.isUpper = true ↔ IsCapital c :=
  decide_eq_true_iff

private theorem isLower_iff {c : Char} : c.isLower = true ↔ IsSmall c := by
  change (decide _ && decide _) = true ↔ _
  rw [Bool.and_eq_true, decide_eq_true_iff, decide_eq_true_iff]
  rfl

private theorem isDigit_iff {c : Char} : c.isDigit = true ↔ IsDecimal c := by
  change (decide _ && decide _) = true ↔ _
  rw [Bool.and_eq_true, decide_eq_true_iff, decide_eq_true_iff]
  rfl

theorem isAlphanum_iff {c : Char} :
    c.isAlphanum = true ↔ IsCapital c ∨ IsSmall c ∨ IsDecimal c := by
  change (c.isUpper || c.isLower || c.isDigit) = true ↔ _
  rw [Bool.or_eq_true, Bool.or_eq_true, isUpper_iff, isLower_iff, isDigit_iff, or_assoc]

theorem isPascalIdentifier_iff {name : String} :
    Naming.isPascalIdentifier name = true ↔ IsKindName name := by
  unfold Naming.isPascalIdentifier IsKindName ConsistsOf
  cases name.toList with
  | nil => simp
  | cons c cs => simp [isUpper_iff, isAlphanum_iff]

theorem isMachineName_iff {name : String} :
    Naming.isMachineName name = true ↔ IsMachineName name := by
  unfold Naming.isMachineName IsMachineName ConsistsOf
  cases name.toList with
  | nil => simp
  | cons c cs => simp [isLower_iff, isDigit_iff, or_assoc]

/-- The name of a kind starts with a character that is not blank. -/
theorem IsKindName.not_blank {name : String} (h : IsKindName name) : isBlankText name = false := by
  obtain ⟨c, cs, hname, ⟨hleast, hmost⟩, -⟩ := h
  have hblank : isBlank c = false := by
    have hleast : 65 ≤ c.toNat := hleast
    have hmost : c.toNat ≤ 90 := hmost
    simp only [isBlank, withinBounds, blankBounds]
    simp
    omega
  rw [isBlankText, hname, List.all_cons, hblank, Bool.false_and]

/-! ### Lists that are read with the names seen so far -/

/-- Nothing in a list repeats, or was seen before it, if this holds of its rest with the first
element seen as well. -/
private theorem nodup_cons_and_not_seen_iff {seen names : List String} {name : String} :
    (name :: names).Nodup ∧ (∀ n ∈ name :: names, n ∉ seen) ↔
      name ∉ seen ∧ names.Nodup ∧ ∀ n ∈ names, n ∉ name :: seen := by
  rw [List.nodup_cons, List.forall_mem_cons]
  constructor
  · rintro ⟨⟨hnew, hnodup⟩, hname, hnames⟩
    refine ⟨hname, hnodup, fun n hn hmem => ?_⟩
    rcases List.mem_cons.mp hmem with rfl | hmem
    · exact hnew hn
    · exact hnames n hn hmem
  · rintro ⟨hname, hnodup, hnames⟩
    exact ⟨⟨fun hmem => hnames name hmem List.mem_cons_self, hnodup⟩, hname,
      fun n hn hmem => hnames n hn (List.mem_cons_of_mem _ hmem)⟩

/-- No element of a list is found to be repeated if the list has none twice and none that was
seen. -/
private theorem firstRepeated?_eq_none_iff {seen names : List String} :
    firstRepeated? seen names = none ↔ names.Nodup ∧ ∀ n ∈ names, n ∉ seen := by
  induction names generalizing seen with
  | nil => simp [firstRepeated?]
  | cons name names ih =>
    rw [nodup_cons_and_not_seen_iff, ← ih, firstRepeated?]
    by_cases hseen : name ∈ seen
    · simp [hseen]
    · simp [hseen]

namespace TypeExpr

/-! ### Types -/

mutual

/-- A type and the types inside it, at any depth, one for each place. -/
def parts : TypeExpr → List TypeExpr
  | .scalar kind => [.scalar kind]
  | .enum values => [.enum values]
  | .array items => .array items :: parts items
  | .map values => .map values :: parts values
  | .struct ⟨label, docs, fields⟩ => .struct ⟨label, docs, fields⟩ :: fieldParts fields
  | .reference name => [.reference name]

/-- The types of some fields and the types inside them, at any depth. -/
def fieldParts : List (Field TypeExpr) → List TypeExpr
  | [] => []
  | ⟨_, type, _, _⟩ :: fields => parts type ++ fieldParts fields

end

/-- That the names or literals a type itself is written with are in order, whatever the types inside
it are. -/
def NamesInOrder : TypeExpr → Prop
  | .scalar _ => True
  | .enum values => values ≠ [] ∧ values.Nodup
  | .array _ => True
  | .map _ => True
  | .struct s => (∀ f ∈ s.fields, f.name ≠ "") ∧ (s.fields.map (·.name)).Nodup
  | .reference name => name ≠ ""

/-- That names and literals are in order in `type` and everywhere inside it. -/
def WellFormed (type : TypeExpr) : Prop :=
  ∀ part ∈ type.parts, part.NamesInOrder

/-- The check of an enumeration accepts literals of which there is one and none twice. -/
private theorem validate_enum_eq_ok_iff {path : String} {values : List String} :
    validate path (.enum values) = .ok () ↔ values ≠ [] ∧ values.Nodup := by
  rw [validate, check_eq_ok]
  refine and_congr_right fun _ => ?_
  have hnone : firstRepeated? [] values = none ↔ values.Nodup := by
    simp [firstRepeated?_eq_none_iff]
  rw [← hnone]
  cases firstRepeated? [] values with
  | none => simp
  | some value => simp

mutual

/-- The check of a type accepts it, at whatever path, if it is well-formed. -/
private theorem validateType_eq_ok_iff (path : String) :
    ∀ {type : TypeExpr}, type.validate path = .ok () ↔ type.WellFormed
  | .scalar _ => by simp [validate, WellFormed, parts, NamesInOrder]
  | .enum values => by
    rw [validate_enum_eq_ok_iff, WellFormed, parts, List.forall_mem_singleton, NamesInOrder]
  | .array items => by
    rw [validate, validateType_eq_ok_iff, WellFormed, WellFormed, parts, List.forall_mem_cons]
    exact (iff_of_eq (true_and _)).symm
  | .map values => by
    rw [validate, validateType_eq_ok_iff, WellFormed, WellFormed, parts, List.forall_mem_cons]
    exact (iff_of_eq (true_and _)).symm
  | .struct ⟨label, docs, fields⟩ => by
    rw [validate, validateFields_eq_ok_iff, WellFormed, parts, List.forall_mem_cons, NamesInOrder]
    simp only [List.not_mem_nil, not_false_eq_true, implies_true, and_true, and_assoc]
  | .reference name => by
    rw [validate, check_eq_ok, WellFormed, parts, List.forall_mem_singleton, NamesInOrder]
    exact and_iff_left rfl

/-- The check of fields accepts those whose names are neither empty nor repeated and whose types are
well-formed. -/
private theorem validateFields_eq_ok_iff {path : String} {seen : List String} :
    ∀ {fields : List (Field TypeExpr)}, validateFields path seen fields = .ok () ↔
      (∀ f ∈ fields, f.name ≠ "") ∧
        ((fields.map (·.name)).Nodup ∧ ∀ n ∈ fields.map (·.name), n ∉ seen) ∧
        ∀ part ∈ fieldParts fields, part.NamesInOrder
  | [] => by simp [validateFields, fieldParts]
  | ⟨name, type, _, _⟩ :: fields => by
    rw [validateFields, check_eq_ok, check_eq_ok, bind_eq_ok, List.map_cons,
      nodup_cons_and_not_seen_iff, List.forall_mem_cons, fieldParts, List.forall_mem_append]
    -- What is new among the seen names becomes distinctness of all names of the struct.
    simp only [validateType_eq_ok_iff, validateFields_eq_ok_iff, WellFormed]
    constructor
    · rintro ⟨hempty, hseen, ⟨⟩, htype, hempties, hnames, hparts⟩
      exact ⟨⟨hempty, hempties⟩, ⟨hseen, hnames⟩, htype, hparts⟩
    · rintro ⟨⟨hempty, hempties⟩, ⟨hseen, hnames⟩, htype, hparts⟩
      exact ⟨hempty, hseen, (), htype, hempties, hnames, hparts⟩

end

/-- The check of the fields of a struct accepts them if the struct is a well-formed type. -/
private theorem validateFields_nil_eq_ok_iff {path : String} {s : StructType} :
    validateFields path [] s.fields = .ok () ↔ WellFormed (.struct s) := by
  rw [← validateType_eq_ok_iff path, validate]

end TypeExpr

/-! ### Kinds -/

/-- The rules for `k`: those for its names, for those of its definitions, and for the types of its
sections and of all of its definitions, whether a reference means them or not. -/
structure Kind.WellFormed (k : Kind) : Prop where
  name : IsKindName k.name
  name_not_builtin : ∀ d ∈ builtinDefinitions, k.name ≠ d.name
  machineName : IsMachineName k.machineName
  definitionNames : ∀ d ∈ k.definitions, d.name ≠ "" ∧ d.name ≠ k.name
  definitionNames_nodup : (k.definitions.map (·.name)).Nodup
  definitions : ∀ d ∈ k.definitions, d.type.WellFormed
  metadata : k.metadata.type.WellFormed
  spec : TypeExpr.WellFormed (.struct k.spec)
  status : TypeExpr.WellFormed (.struct k.status)

namespace Kind

/-- No built-in definition is found by a name that none of them has. -/
private theorem builtinDefinition?_eq_none_iff {name : String} :
    builtinDefinition? name = none ↔ ∀ d ∈ builtinDefinitions, name ≠ d.name := by
  simp only [builtinDefinition?, List.find?_eq_none, beq_iff_eq]
  exact forall₂_congr fun d _ => ne_comm

/-- The checks of the names of a kind accept those that follow the rules for names. -/
private theorem validateNames_eq_ok_iff_wellFormed {k : Kind} :
    k.validateNames = .ok () ↔ IsKindName k.name ∧ (∀ d ∈ builtinDefinitions, k.name ≠ d.name) ∧
      IsMachineName k.machineName := by
  rw [validateNames_eq_ok_iff, ← isPascalIdentifier_iff, ← isMachineName_iff,
    ← builtinDefinition?_eq_none_iff]
  exact ⟨fun h => ⟨h.pascal, h.not_builtin, h.machine⟩, fun ⟨hname, hbuiltin, hmachine⟩ =>
    ⟨(isPascalIdentifier_iff.mp hname).not_blank, hname, hmachine, hbuiltin⟩⟩

private theorem definitionValid_nil_iff {kindName : String} {d : Definition} :
    DefinitionValid kindName [] d ↔ (d.name ≠ "" ∧ d.name ≠ kindName) ∧ d.type.WellFormed := by
  rw [← TypeExpr.validateType_eq_ok_iff d.name]
  exact ⟨fun h => ⟨⟨h.name_ne_empty, h.name_ne_kind⟩, h.type_valid⟩,
    fun ⟨⟨hempty, hkind⟩, htype⟩ => ⟨hempty, hkind, List.not_mem_nil, htype⟩⟩

/-- The kind `k` passes its checks exactly if it is well-formed. -/
theorem validate_iff_wellFormed {k : Kind} : k.validate = .ok () ↔ k.WellFormed := by
  rw [validate, check_then_eq_ok, check_then_eq_ok, check_then_eq_ok, check_then_eq_ok,
    validateNames_eq_ok_iff_wellFormed, validateDefinitions_eq_ok_iff,
    TypeExpr.validateType_eq_ok_iff, TypeExpr.validateFields_nil_eq_ok_iff,
    TypeExpr.validateFields_nil_eq_ok_iff]
  simp only [definitionValid_nil_iff]
  constructor
  · rintro ⟨⟨hname, hbuiltin, hmachine⟩, ⟨hdefinitions, hnodup⟩, hmetadata, hspec, hstatus⟩
    exact {
      name := hname
      name_not_builtin := hbuiltin
      machineName := hmachine
      definitionNames := fun d hd => (hdefinitions d hd).1
      definitionNames_nodup := hnodup
      definitions := fun d hd => (hdefinitions d hd).2
      metadata := hmetadata
      spec := hspec
      status := hstatus }
  · intro h
    exact ⟨⟨h.name, h.name_not_builtin, h.machineName⟩,
      ⟨fun d hd => ⟨h.definitionNames d hd, h.definitions d hd⟩, h.definitionNames_nodup⟩,
      h.metadata, h.spec, h.status⟩

end Kind

end KindSchema
