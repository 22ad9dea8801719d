import Mathlib.Data.List.Basic
import KindSchema.Naming
import KindSchema.Proofs.Kind.WellFormed

/-!
# Names of types at field paths

The name of a type at a field path is put together from words, each in upper case at its start.

* `upperCase_not_isSmall`: no character has an upper case that starts with a small ASCII letter.
* `Naming.not_isSmall_of_typeName`: hence no name of a type at a field path does.
-/

namespace KindSchema

/-! ### Upper case -/

/-- A code point that makes a small ASCII letter is one of `U+0061` to `U+007A`. -/
private theorem isSmall_ofNat {n : Nat} (h : IsSmall (Char.ofNat n)) : 0x61 ≤ n ∧ n ≤ 0x7a := by
  by_cases hvalid : n.isValidChar
  · have hchar : Char.ofNat n = Char.ofNatAux n hvalid := dif_pos hvalid
    rw [hchar] at h
    exact h
  · have hchar : Char.ofNat n = '\x00' := dif_neg hvalid
    rw [hchar] at h
    exact absurd h.1 (by decide)

/-- In ASCII, the upper case of a small letter is a capital, and other characters stay as they
are. -/
theorem toUpper_eq_or (c : Char) : ¬IsSmall c ∧ c.toUpper = c ∨ IsCapital c.toUpper := by
  unfold Char.toUpper
  split
  · next hsmall =>
    obtain ⟨ha, hz⟩ := hsmall
    have hleast : 0x61 ≤ c.val.toNat := ha
    have hmost : c.val.toNat ≤ 0x7a := hz
    have hshift : (c.val + ('A'.val - 'a'.val)).toNat = c.val.toNat - 0x20 := by
      have hdifference : ('A'.val - 'a'.val).toNat = 2 ^ 32 - 0x20 := rfl
      rw [UInt32.toNat_add, hdifference]
      omega
    refine .inr ⟨?_, ?_⟩
    · change 'A'.val ≤ c.val + ('A'.val - 'a'.val)
      rw [UInt32.le_iff_toNat_le, hshift]
      exact Nat.le_sub_of_add_le hleast
    · change c.val + ('A'.val - 'a'.val) ≤ 'Z'.val
      rw [UInt32.le_iff_toNat_le, hshift]
      exact Nat.sub_le_of_le_add hmost
  · next hsmall => exact .inl ⟨hsmall, rfl⟩

/-- In ASCII no upper case is a small letter. -/
private theorem not_isSmall_toUpper (c : Char) : ¬IsSmall c.toUpper := by
  obtain ⟨hsmall, hsame⟩ | ⟨-, hmost⟩ := toUpper_eq_or c
  · rwa [hsame]
  · exact fun hsmall => absurd (Nat.le_trans hsmall.1 hmost) (by decide)

/-- No listed upper case starts with a small letter. -/
private theorem upperExpansions_not_isSmall {e : Nat × List Nat} (he : e ∈ upperExpansions) :
    ∃ first rest, e.2 = first :: rest ∧ ¬IsSmall (Char.ofNat first) := by
  have hall : ∀ e ∈ upperExpansions, e.2 ≠ [] ∧ ∀ n ∈ e.2.head?, n < 0x61 ∨ 0x7a < n := by
    decide +kernel
  obtain ⟨hne, hhead⟩ := hall e he
  obtain ⟨first, rest, hcons⟩ := List.exists_cons_of_ne_nil hne
  refine ⟨first, rest, hcons, fun hsmall => ?_⟩
  have hrange := isSmall_ofNat hsmall
  have hapart := hhead first (by rw [hcons]; rfl)
  omega

/-- No image under a run of letters is a small letter. -/
private theorem upperRuns_not_isSmall {run : CaseRun} (hrun : run ∈ upperRuns) {n image : Nat}
    (h : run.image? n = some image) : ¬IsSmall (Char.ofNat image) := by
  have hall : ∀ run ∈ upperRuns,
      0x7a < run.image ∨ run.image + (run.last - run.first) < 0x61 := by decide +kernel
  intro hsmall
  have hrange := isSmall_ofNat hsmall
  have hapart := hall run hrun
  rw [CaseRun.image?] at h
  split at h
  · next hcovered =>
    obtain rfl := Option.some.inj h
    omega
  · cases h

/-- The upper case of a character has a first character, which is no small letter. -/
theorem upperCase_not_isSmall (c : Char) :
    ∃ first rest, upperCase c = first :: rest ∧ ¬IsSmall first := by
  rw [upperCase]
  split
  · exact ⟨_, [], rfl, not_isSmall_toUpper c⟩
  · next hascii =>
    rw [mapCase]
    split
    · next image himage =>
      obtain ⟨before, after, hsplit, -⟩ := List.lookup_eq_some_iff.mp himage
      have hmem : (c.toNat, image) ∈ upperExpansions := by simp [hsplit]
      obtain ⟨first, rest, hcons, hfirst⟩ := upperExpansions_not_isSmall hmem
      have hcons : image = first :: rest := hcons
      exact ⟨Char.ofNat first, rest.map Char.ofNat, by rw [hcons, List.map_cons], hfirst⟩
    · refine ⟨_, [], rfl, ?_⟩
      cases himage : upperRuns.findSome? (·.image? c.toNat) with
      | none =>
        rw [Option.getD_none]
        intro hsmall
        have hrange := isSmall_ofNat hsmall
        omega
      | some image =>
        obtain ⟨run, hrun, himage⟩ := List.exists_of_findSome?_eq_some himage
        exact upperRuns_not_isSmall hrun himage

namespace Naming

/-! ### Names of types -/

/-- The characters of the name of a type: the words of its segments, each with a capital. -/
private theorem toList_typeName (path : List String) : (typeName path).toList =
    (path.flatMap fun s => pieces isWordBreak s.toList).flatMap capitalizeChars := by
  induction path with
  | nil => rfl
  | cons s path ih =>
    rw [typeName, List.map_cons, String.join_cons, String.toList_append, List.flatMap_cons,
      List.flatMap_append, ← ih, pascal, String.toList_ofList, typeName]

/-- Words with capitals start with the upper case of a character. -/
private theorem head_flatMap_capitalizeChars {words : List (List Char)} {first : Char}
    {rest : List Char} (h : words.flatMap capitalizeChars = first :: rest) :
    ∃ c rest', upperCase c = first :: rest' := by
  induction words with
  | nil => cases h
  | cons word words ih =>
    cases word with
    | nil => exact ih h
    | cons c cs =>
      obtain ⟨capital, more, hcapital, -⟩ := upperCase_not_isSmall c
      rw [List.flatMap_cons, capitalizeChars, hcapital] at h
      obtain ⟨rfl, -⟩ := List.cons.inj h
      exact ⟨c, more, hcapital⟩

/-- The name of the type at the field path `path` does not start with a small ASCII letter. -/
theorem not_isSmall_of_typeName {path : List String} {first : Char} {rest : List Char}
    (h : (typeName path).toList = first :: rest) : ¬IsSmall first := by
  rw [toList_typeName] at h
  obtain ⟨c, rest', hcapital⟩ := head_flatMap_capitalizeChars h
  obtain ⟨first', rest'', hcapital', hfirst⟩ := upperCase_not_isSmall c
  obtain ⟨rfl, -⟩ := List.cons.inj (hcapital.symm.trans hcapital')
  exact hfirst

end Naming

end KindSchema
