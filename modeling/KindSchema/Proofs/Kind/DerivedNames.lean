import KindSchema.Proofs.Kind.WellFormed

/-!
# Machine names that are derived

A kind that gives no machine name has its name in snake case as one. The conversion keeps one bit,
whether the character before was a small letter or a digit, and the bit decides about underscores
alone. So whatever it is, the letters and digits that come out are those of the name in lower case.

* `Naming.snakeChars_of_isCapital`, `Naming.snakeChars_of_isMachineChar`: one step.
* `Naming.isMachineChar_of_mem_snakeChars`, `Naming.filter_snakeChars`: a whole run.
* `Kind.validate_eq_error_iff`: when a kind is refused for its machine name.
* `isMachineName_snake`: that is never so of a derived one.
-/

namespace KindSchema

/-- That `c` may stand in a machine name behind the first character: small letters, digits and
underscores. -/
def IsMachineChar (c : Char) : Prop := IsSmall c ∨ IsDecimal c ∨ c = '_'

/-! ### Cases of letters -/

/-- A character that is not above `z` is ASCII. -/
private theorem toNat_lt_of_le {c : Char} (h : c ≤ 'z') : c.toNat < 0x80 :=
  Nat.lt_of_le_of_lt (m := 'z'.toNat) h (by decide)

namespace IsCapital

variable {c : Char} (h : IsCapital c)
include h

private theorem toNat_lt : c.toNat < 0x80 :=
  toNat_lt_of_le (Nat.le_trans h.2 (by decide))

private theorem isUppercase : isUppercase c = true := by
  rw [isUppercase_of_ascii h.toNat_lt, isUpper_iff.mpr h]

private theorem lowerCase : lowerCase c = [c.toLower] :=
  lowerCase_of_ascii h.toNat_lt

/-- The small letter of a capital. -/
private theorem toLower : IsSmall c.toLower := by
  obtain ⟨hleast, hmost⟩ := h
  have hleast' : 0x41 ≤ c.val.toNat := hleast
  have hmost' : c.val.toNat ≤ 0x5a := hmost
  -- Capitals and small letters are 32 apart, and the shifted code point does not overflow.
  have hshift : (c.val + ('a'.val - 'A'.val)).toNat = c.val.toNat + 0x20 := by
    have hdifference : ('a'.val - 'A'.val).toNat = 0x20 := rfl
    rw [UInt32.toNat_add, hdifference]
    omega
  unfold Char.toLower
  rw [dif_pos ⟨hleast, hmost⟩]
  refine ⟨?_, ?_⟩
  · change 'a'.val ≤ c.val + ('a'.val - 'A'.val)
    rw [UInt32.le_iff_toNat_le, hshift]
    exact Nat.add_le_add_right hleast' 0x20
  · change c.val + ('a'.val - 'A'.val) ≤ 'z'.val
    rw [UInt32.le_iff_toNat_le, hshift]
    exact Nat.add_le_add_right hmost' 0x20

end IsCapital

namespace IsMachineChar

variable {c : Char} (h : IsMachineChar c)
include h

private theorem toNat_lt : c.toNat < 0x80 := by
  obtain h | h | rfl := h
  · exact toNat_lt_of_le h.2
  · exact toNat_lt_of_le (Nat.le_trans h.2 (by decide))
  · decide

private theorem not_isCapital : ¬ IsCapital c := by
  intro hcapital
  obtain h | h | rfl := h
  · exact absurd (Nat.le_trans h.1 hcapital.2) (by decide)
  · exact absurd (Nat.le_trans hcapital.1 h.2) (by decide)
  · exact absurd hcapital.2 (by decide)

private theorem not_isUppercase : isUppercase c = false := by
  rw [isUppercase_of_ascii h.toNat_lt, Bool.eq_false_iff, Ne, isUpper_iff]
  exact h.not_isCapital

private theorem lowerCase : lowerCase c = [c] := by
  have hsame : c.toLower = c := dif_neg h.not_isCapital
  rw [lowerCase_of_ascii h.toNat_lt, hsame]

end IsMachineChar

namespace Naming

/-! ### Snake case -/

section Step

variable (afterSmall : Bool) {c : Char} (cs : List Char)

/-- If `c` is a capital, it is written small. -/
theorem snakeChars_of_isCapital (h : IsCapital c) : snakeChars afterSmall (c :: cs) =
    (if afterSmall then ['_'] else []) ++ c.toLower :: snakeChars false cs := by
  have hhyphen : ¬ (c == '-' || c == ' ') = true := by
    intro hc
    rcases (Bool.or_eq_true _ _).mp hc with hc | hc <;>
      exact absurd (eq_of_beq hc ▸ h.1) (by decide)
  rw [snakeChars, if_neg hhyphen, if_pos h.isUppercase, h.lowerCase, List.append_assoc]
  rfl

/-- If `c` is a character of machine names, it stays as it is. -/
theorem snakeChars_of_isMachineChar (h : IsMachineChar c) : ∃ afterSmall',
    snakeChars afterSmall (c :: cs) = c :: snakeChars afterSmall' cs := by
  have hhyphen : ¬ (c == '-' || c == ' ') = true := by
    intro hc
    rcases (Bool.or_eq_true _ _).mp hc with hc | hc <;> obtain rfl := eq_of_beq hc <;>
      exact absurd h (by unfold IsMachineChar IsSmall IsDecimal; decide)
  rw [snakeChars, if_neg hhyphen, if_neg (by simp [h.not_isUppercase])]
  exact ⟨_, rfl⟩

end Step

/-- What is made of characters of machine names is what they are. -/
private theorem snakeChars_eq_self {cs : List Char} (h : ∀ c ∈ cs, IsMachineChar c)
    (afterSmall : Bool) :
    snakeChars afterSmall cs = cs := by
  induction cs generalizing afterSmall with
  | nil => rfl
  | cons c cs ih =>
    obtain ⟨hc, hcs⟩ := List.forall_mem_cons.mp h
    obtain ⟨afterSmall', hstep⟩ := snakeChars_of_isMachineChar afterSmall cs hc
    rw [hstep, ih hcs]

section Letters

variable {cs : List Char} (h : ∀ c ∈ cs, IsCapital c ∨ IsSmall c ∨ IsDecimal c)
include h

/-- Of letters and digits, characters of machine names are made. -/
theorem isMachineChar_of_mem_snakeChars (afterSmall : Bool) :
    ∀ c ∈ snakeChars afterSmall cs, IsMachineChar c := by
  induction cs generalizing afterSmall with
  | nil => exact fun c hc => absurd hc List.not_mem_nil
  | cons c cs ih =>
    obtain ⟨hc, hcs⟩ := List.forall_mem_cons.mp h
    rcases hc with hcapital | hother
    · rw [snakeChars_of_isCapital afterSmall cs hcapital, List.forall_mem_append,
        List.forall_mem_cons]
      refine ⟨fun d hd => ?_, .inl hcapital.toLower, ih hcs false⟩
      cases afterSmall
      · exact absurd hd List.not_mem_nil
      · exact .inr (.inr (List.mem_singleton.mp hd))
    · have hmachine : IsMachineChar c := hother.imp_right .inl
      obtain ⟨afterSmall', hstep⟩ := snakeChars_of_isMachineChar afterSmall cs hmachine
      rw [hstep]
      exact List.forall_mem_cons.mpr ⟨hmachine, ih hcs afterSmall'⟩

/-- Without underscores, what is made of letters and digits is their lower case. -/
theorem filter_snakeChars (afterSmall : Bool) :
    (snakeChars afterSmall cs).filter (· != '_') = cs.flatMap lowerCase := by
  have hkeep {c : Char} (hc : IsSmall c ∨ IsDecimal c) (rest : List Char) :
      (c :: rest).filter (· != '_') = c :: rest.filter (· != '_') := by
    refine List.filter_cons_of_pos (bne_iff_ne.mpr ?_)
    rintro rfl
    exact absurd hc (by unfold IsSmall IsDecimal; decide)
  induction cs generalizing afterSmall with
  | nil => rfl
  | cons c cs ih =>
    obtain ⟨hc, hcs⟩ := List.forall_mem_cons.mp h
    rw [List.flatMap_cons]
    -- A capital adds at most an underscore, which the filter takes out again.
    rcases hc with hcapital | hother
    · have hunderscore : (if afterSmall then ['_'] else []).filter (· != '_') = [] := by
        cases afterSmall <;> rfl
      rw [snakeChars_of_isCapital afterSmall cs hcapital, List.filter_append, hunderscore,
        List.nil_append, hkeep (.inl hcapital.toLower), ih hcs, hcapital.lowerCase,
        List.singleton_append]
    · have hmachine : IsMachineChar c := hother.imp_right .inl
      obtain ⟨afterSmall', hstep⟩ := snakeChars_of_isMachineChar afterSmall cs hmachine
      rw [hstep, hkeep hother, ih hcs, hmachine.lowerCase, List.singleton_append]

end Letters

section KindName

variable {name : String} (h : IsKindName name)
include h

/-- The name of a kind in snake case is a machine name. -/
private theorem isMachineName_of_isKindName : IsMachineName (snake name) := by
  obtain ⟨c, cs, hname, hc, hcs⟩ := h
  refine ⟨c.toLower, snakeChars false cs, ?_, hc.toLower, isMachineChar_of_mem_snakeChars hcs false⟩
  rw [snake, String.toList_ofList, hname, snakeChars_of_isCapital false cs hc]
  rfl

/-- The name of a kind is made of letters and digits. -/
private theorem letters_of_isKindName :
    ∀ c ∈ name.toList, IsCapital c ∨ IsSmall c ∨ IsDecimal c := by
  obtain ⟨c, cs, hname, hc, hcs⟩ := h
  rw [hname]
  exact List.forall_mem_cons.mpr ⟨.inl hc, hcs⟩

private theorem isMachineChar_of_mem_snake : ∀ c ∈ (snake name).toList, IsMachineChar c := by
  rw [snake, String.toList_ofList]
  exact isMachineChar_of_mem_snakeChars (letters_of_isKindName h) false

private theorem filter_snake :
    (snake name).toList.filter (· != '_') = name.toList.flatMap lowerCase := by
  rw [snake, String.toList_ofList, filter_snakeChars (letters_of_isKindName h)]

/-- What is in snake case stays as it is. -/
private theorem snake_snake : snake (snake name) = snake name := by
  have hself := snakeChars_eq_self (isMachineChar_of_mem_snake h) false
  rw [snake, hself, String.ofList_toList]

end KindName

end Naming

/-! ### Kinds that are refused for their machine names -/

namespace TypeExpr

mutual

/-- The check of a type says nothing about machine names. -/
private theorem validateType_ne_error (name path : String) :
    ∀ type : TypeExpr, type.validate path ≠ .error (.invalidMachineName name)
  | .scalar _ => by
    rw [validate]
    exact nofun
  | .enum values => by
    rw [validate, Ne, check_eq_error]
    rintro (⟨-, ⟨⟩⟩ | ⟨-, h⟩)
    split at h <;> cases h
  | .array items => by
    rw [validate]
    exact validateType_ne_error name path items
  | .map values => by
    rw [validate]
    exact validateType_ne_error name path values
  | .struct ⟨_, _, fields⟩ => by
    rw [validate]
    exact validateFields_ne_error name path [] fields
  | .reference _ => by
    rw [validate, Ne, check_eq_error]
    rintro (⟨-, ⟨⟩⟩ | ⟨-, ⟨⟩⟩)

/-- The check of fields says nothing about machine names. -/
private theorem validateFields_ne_error (name path : String) (seen : List String) :
    ∀ fields : List (Field TypeExpr),
      validateFields path seen fields ≠ .error (.invalidMachineName name)
  | [] => by
    rw [validateFields]
    exact nofun
  | ⟨fieldName, type, _, _⟩ :: fields => by
    have htype := validateType_ne_error name (path ++ "." ++ fieldName) type
    have hfields := validateFields_ne_error name path (fieldName :: seen) fields
    rw [validateFields, Ne, check_eq_error, check_eq_error, bind_eq_error]
    rintro (⟨-, ⟨⟩⟩ | ⟨-, ⟨-, ⟨⟩⟩ | ⟨-, h | ⟨-, -, h⟩⟩⟩)
    · exact htype h
    · exact hfields h

end

end TypeExpr

namespace Kind

private theorem validateDefinitions_ne_error (name kindName : String) (seen : List String)
    (definitions : List Definition) :
    validateDefinitions kindName seen definitions ≠ .error (.invalidMachineName name) := by
  induction definitions generalizing seen with
  | nil => exact nofun
  | cons d definitions ih =>
    rw [validateDefinitions, Ne, check_eq_error, check_eq_error, check_eq_error, bind_eq_error]
    rintro (⟨-, ⟨⟩⟩ | ⟨-, ⟨-, ⟨⟩⟩ | ⟨-, ⟨-, ⟨⟩⟩ | ⟨-, h | ⟨-, -, h⟩⟩⟩⟩)
    · exact d.type.validateType_ne_error name d.name h
    · exact ih _ h

/-- The checks of the names of a kind refuse its machine name if its name is fine and its machine
name is not. -/
private theorem validateNames_eq_error_iff {k : Kind} {name : String} :
    k.validateNames = .error (.invalidMachineName name) ↔
      IsKindName k.name ∧ k.machineName = name ∧ ¬ IsMachineName name := by
  rw [validateNames, check_eq_error, check_eq_error, check_eq_error, check_eq_error]
  simp only [reduceCtorEq, and_false, false_or, or_false, SchemaError.invalidMachineName.injEq,
    Bool.not_eq_true', Bool.not_eq_false, isPascalIdentifier_iff]
  constructor
  · rintro ⟨-, hname, hmachine, rfl⟩
    exact ⟨hname, rfl, by rw [← isMachineName_iff, hmachine]; exact Bool.false_ne_true⟩
  · rintro ⟨hname, rfl, hmachine⟩
    rw [← isMachineName_iff, Bool.not_eq_true] at hmachine
    exact ⟨by simp [hname.not_blank], hname, hmachine, rfl⟩

/-- The kind `k` is refused for its machine name if its name is fine and its machine name is not. -/
theorem validate_eq_error_iff {k : Kind} {name : String} :
    k.validate = .error (.invalidMachineName name) ↔
      IsKindName k.name ∧ k.machineName = name ∧ ¬ IsMachineName name := by
  rw [← validateNames_eq_error_iff, validate, bind_eq_error]
  refine or_iff_left ?_
  rintro ⟨-, -, h⟩
  rcases bind_eq_error.mp h with h | ⟨-, -, h⟩
  · exact validateDefinitions_ne_error name k.name [] k.definitions h
  rcases bind_eq_error.mp h with h | ⟨-, -, h⟩
  · exact k.metadata.type.validateType_ne_error name "metadata" h
  rcases bind_eq_error.mp h with h | ⟨-, -, h⟩
  · exact TypeExpr.validateFields_ne_error name "spec" [] k.spec.fields h
  · exact TypeExpr.validateFields_ne_error name "status" [] k.status.fields h

/-- A machine name that is refused is given by the kind. -/
private theorem machineName_eq_iff {k : Kind} {name : String} (hname : IsKindName k.name)
    (hmachine : ¬ IsMachineName name) :
    k.machineName = name ↔ k.givenMachineName = some name := by
  rw [machineName]
  cases k.givenMachineName with
  | some given => rw [Option.getD_some, Option.some_inj]
  | none =>
    refine iff_of_false (fun hderived => hmachine ?_) nofun
    rw [← hderived, Option.getD_none]
    exact Naming.isMachineName_of_isKindName hname

end Kind

open Naming

/-- The name of a kind in snake case can be used as a machine name. It has no capital, it is the
name in lower case when its underscores are left out, and in snake case it stays as it is. So a kind
`k` is refused for its machine name only if it gives one: exactly if its name is fine and the
machine name that it gives is not. -/
theorem isMachineName_snake :
    (∀ name, isPascalIdentifier name = true →
      isMachineName (snake name) = true ∧
      (∀ c ∈ (snake name).toList, isUppercase c = false) ∧
      (snake name).toList.filter (· != '_') = name.toList.flatMap lowerCase ∧
      snake (snake name) = snake name) ∧
    ∀ (k : Kind) (name : String), k.validate = .error (.invalidMachineName name) ↔
      isPascalIdentifier k.name = true ∧ k.givenMachineName = some name ∧
        isMachineName name = false := by
  constructor
  · intro name hname
    have hkind := isPascalIdentifier_iff.mp hname
    exact ⟨isMachineName_iff.mpr (isMachineName_of_isKindName hkind),
      fun c hc => (isMachineChar_of_mem_snake hkind c hc).not_isUppercase, filter_snake hkind,
      snake_snake hkind⟩
  · intro k name
    rw [Kind.validate_eq_error_iff, isPascalIdentifier_iff, ← Bool.not_eq_true, isMachineName_iff]
    exact and_congr_right fun hname => and_congr_left fun hmachine =>
      Kind.machineName_eq_iff hname hmachine

namespace Sample

/-- A name with runs of capitals and with digits. -/
theorem isMachineName_snake_server :
    isPascalIdentifier "HTTPServer2Go" = true ∧ snake "HTTPServer2Go" = "httpserver2_go" ∧
      isMachineName (snake "HTTPServer2Go") = true ∧
      snake (snake "HTTPServer2Go") = snake "HTTPServer2Go" := by
  have hname : isPascalIdentifier "HTTPServer2Go" = true := by decide
  obtain ⟨hmachine, -, -, hself⟩ := isMachineName_snake.1 _ hname
  exact ⟨hname, by decide, hmachine, hself⟩

end Sample

end KindSchema
