import Mathlib.Data.Finset.Card
import Mathlib.Data.Nat.Find
import Mathlib.Order.Bounds.Basic
import KindSchema.Resolved.FreshName

/-!
# Fresh names are free

Nothing in the search for a fresh name says that it ends with one. It does because the names it
tries are pairwise different, since a number can be read back from its digits. So one of the first
`n + 1` is free if `n` names are in use.

* `exists_isLeast_free`: the position of the first free name is at most the number of names in use.
* `takeFree?_eq_some`: a search ends there, if its limit lets it come there.
* `freshName_eq_candidate`, `freshName_not_mem`: so a fresh name is the first that is not in use.
-/

namespace KindSchema

/-- Different numbers give different names. -/
private theorem numbered_injective (base : String) : Function.Injective (numbered base) := by
  intro i j h
  have hchars : base.toList ++ (toString i).toList = base.toList ++ (toString j).toList := by
    simpa only [numbered, String.toList_append] using congrArg String.toList h
  have hdigits : (toString i).toList = (toString j).toList := List.append_cancel_left hchars
  have hread := congrArg (fun digits => Nat.ofDigitChars 10 digits 0) hdigits
  simpa [Nat.toString_eq_repr, Nat.toList_repr] using hread

private theorem length_toString_pos (n : Nat) : 0 < (toString n).length := by
  rw [Nat.toString_eq_repr]
  exact Nat.length_repr_pos

/-- A number makes another name of its base. -/
private theorem numbered_ne (base : String) (n : Nat) : numbered base n ≠ base := by
  intro h
  have hlength := congrArg String.length h
  have hdigits := length_toString_pos n
  simp only [numbered, String.length_append] at hlength
  omega

/-! ### The search -/

section Search

variable {base : String} {used : List String} {n : Nat}

/-- The names for a base are pairwise different. -/
private theorem candidate_injective (base : String) : Function.Injective (candidate base) := by
  intro i j h
  cases i with
  | zero =>
    cases j with
    | zero => rfl
    | succ j => exact absurd h.symm (numbered_ne _ _)
  | succ i =>
    cases j with
    | zero => exact absurd h (numbered_ne _ _)
    | succ j => exact numbered_injective _ h

/-- One of the first names for `base` is free, if there is one of them more than there are names
`used`. -/
theorem exists_isLeast_free (base : String) (used : List String) :
    ∃ n ≤ used.toFinset.card, IsLeast {i | candidate base i ∉ used} n := by
  -- There are more names to try than names in use, so these cannot be all of them.
  let tried := (Finset.range (used.toFinset.card + 1)).image (candidate base)
  have hcard : used.toFinset.card < tried.card := by
    rw [Finset.card_image_of_injective _ (candidate_injective base), Finset.card_range]
    exact Nat.lt_succ_self _
  obtain ⟨name, htried, hfree⟩ := Finset.exists_mem_notMem_of_card_lt_card hcard
  obtain ⟨i, hi, rfl⟩ := Finset.mem_image.mp htried
  rw [List.mem_toFinset] at hfree
  have hexists : ∃ i, candidate base i ∉ used := ⟨i, hfree⟩
  refine ⟨Nat.find hexists, ?_, Nat.find_spec hexists, fun j hj => Nat.find_min' hexists hj⟩
  exact (Nat.find_min' hexists hfree).trans (Nat.le_of_lt_succ (Finset.mem_range.mp hi))

/-- What is tried before `n`, where the first free name is, is in use. -/
theorem candidate_mem_of_lt (h : IsLeast {i | candidate base i ∉ used} n) {i : Nat} (hi : i < n) :
    candidate base i ∈ used :=
  by_contra fun hfree => absurd (h.2 hfree) (Nat.not_le_of_lt hi)

/-- A search from `position`, which is not behind the first free name, ends at that name, if its
limit lets it come there. -/
theorem takeFree?_eq_some (h : IsLeast {i | candidate base i ∉ used} n) {limit position : Nat}
    (hposition : position ≤ n) (hlimit : n < position + limit) :
    takeFree? base used limit position =
      some ⟨candidate base n, candidate base n :: used, n + 1⟩ := by
  induction limit generalizing position with
  | zero => omega
  | succ limit ih =>
    rw [takeFree?]
    rcases hposition.eq_or_lt with rfl | hlt
    · rw [if_neg h.1]
    · rw [if_pos (candidate_mem_of_lt h hlt)]
      exact ih hlt (by omega)

/-- The fresh name for `base` is the first one for it that is not in use. -/
theorem freshName_eq_candidate (h : IsLeast {i | candidate base i ∉ used} n)
    (hn : n ≤ used.toFinset.card) : freshName used base = candidate base n := by
  -- The search goes by the length of the list, in which names may be repeated.
  have hlimit : n < 0 + (used.length + 1) := by
    have := used.toFinset_card_le
    omega
  rw [freshName, takeFree?_eq_some h (Nat.zero_le n) hlimit]
  rfl

end Search

/-- A fresh name is not in use. -/
theorem freshName_not_mem (used : List String) (base : String) : freshName used base ∉ used := by
  obtain ⟨n, hn, hleast⟩ := exists_isLeast_free base used
  rw [freshName_eq_candidate hleast hn]
  exact hleast.1

/-! ### Bases -/

theorem nonemptyBase_ne_empty (base : String) : nonemptyBase base ≠ "" := by
  rw [nonemptyBase]
  split
  · decide
  · assumption

/-- The fresh name for `base` is `base`, or `base` with a number. -/
theorem freshName_eq_or (used : List String) (base : String) :
    freshName used base = nonemptyBase base ∨
      ∃ n, freshName used base = numbered (nonemptyBase base) n := by
  obtain ⟨n, hn, hleast⟩ := exists_isLeast_free base used
  rw [freshName_eq_candidate hleast hn]
  cases n with
  | zero => exact .inl rfl
  | succ n => exact .inr ⟨n + 1, rfl⟩

/-- The digits of `n` are decimal digits, and there is at least one. -/
theorem exists_digits_numbered (base : String) (n : Nat) : ∃ digit digits,
    (numbered base n).toList = base.toList ++ digit :: digits ∧
      ∀ c ∈ digit :: digits, c.isDigit = true := by
  have hdigits : ∀ c ∈ (toString n).toList, c.isDigit = true := fun c hc =>
    Nat.isDigit_of_mem_toDigits (b := 10) (n := n) (by decide) (by decide)
      (by simpa [Nat.toString_eq_repr, Nat.toList_repr] using hc)
  obtain ⟨digit, digits, hcons⟩ : ∃ digit digits, (toString n).toList = digit :: digits := by
    refine List.exists_cons_of_ne_nil (List.ne_nil_of_length_pos ?_)
    rw [String.length_toList]
    exact length_toString_pos n
  exact ⟨digit, digits, by rw [numbered, String.toList_append, hcons], hcons ▸ hdigits⟩

/-- If a fresh name has no digits, it is `base`. -/
theorem nonemptyBase_of_freshName {used : List String} {base name : String}
    (hname : ∀ c ∈ name.toList, c.isDigit = false) (h : freshName used base = name) :
    nonemptyBase base = name := by
  obtain hbase | ⟨n, hnumbered⟩ := freshName_eq_or used base
  · rw [← hbase, h]
  · obtain ⟨digit, digits, htext, hdigits⟩ := exists_digits_numbered (nonemptyBase base) n
    rw [← hnumbered, h] at htext
    have hmem : digit ∈ name.toList := htext ▸ List.mem_append_right _ List.mem_cons_self
    exact absurd (hdigits digit List.mem_cons_self) (by simp [hname digit hmem])

end KindSchema
