import KindSchema.Proofs.Resolution.FreshName
import KindSchema.Resolved.Resolution

/-!
# The search for a free name

A fresh name is found by trying the base, then the base with 1, the base with 2, and so on, until a
name is met that is not in use.

* `freshName_cases`: which name that is.
* `freshName_search`: a search that may try one name more than there are in use, or as many more as
  it likes, ends with the fresh name, and adds it to the names in use.
-/

namespace KindSchema

/-- A fresh name is `base` if that is free, and otherwise `base` with the least number, from 1 on,
with which it is. -/
theorem freshName_cases (used : List String) (base : String) :
    nonemptyBase base ∉ used ∧ freshName used base = nonemptyBase base ∨
      nonemptyBase base ∈ used ∧
        ∃ i, IsLeast {i | 1 ≤ i ∧ numbered (nonemptyBase base) i ∉ used} i ∧
          freshName used base = numbered (nonemptyBase base) i := by
  obtain ⟨n, hn, hleast⟩ := exists_isLeast_free base used
  have hname := freshName_eq_candidate hleast hn
  cases n with
  | zero => exact .inl ⟨hleast.1, hname⟩
  | succ n =>
    have hbase := candidate_mem_of_lt hleast (Nat.succ_pos n)
    refine .inr ⟨hbase, n + 1, ⟨⟨Nat.le_add_left 1 n, hleast.1⟩, fun i hi => ?_⟩, hname⟩
    obtain ⟨hpos, hnumber⟩ := hi
    obtain ⟨i, rfl⟩ := Nat.exists_eq_succ_of_ne_zero (Nat.ne_of_gt hpos)
    exact hleast.2 hnumber

/-- A search that may try one name more than there are in use, or more, ends with the fresh name for
`base`: `base` if that is free, and otherwise `base` with the least number with which it is. The
name was not in use before, and is the only one by which the names in use grow, whether it is given
to an enumeration or to a struct. -/
theorem freshName_search (names : Resolution.Names) (base : String) :
    (∃ tries ≤ names.used.toFinset.card + 1, ∀ more,
      takeFree? base names.used (names.used.toFinset.card + 1 + more) 0 =
        some ⟨freshName names.used base, freshName names.used base :: names.used, tries⟩) ∧
      (nonemptyBase base ∉ names.used ∧ freshName names.used base = nonemptyBase base ∨
        nonemptyBase base ∈ names.used ∧
          ∃ i, IsLeast {i | 1 ≤ i ∧ numbered (nonemptyBase base) i ∉ names.used} i ∧
            freshName names.used base = numbered (nonemptyBase base) i) ∧
      freshName names.used base ∉ names.used ∧
      (names.reserve (freshName names.used base)).used.toFinset =
        insert (freshName names.used base) names.used.toFinset ∧
      ∀ s, (names.lift s (freshName names.used base)).used.toFinset =
        insert (freshName names.used base) names.used.toFinset := by
  obtain ⟨n, hn, hleast⟩ := exists_isLeast_free base names.used
  refine ⟨⟨n + 1, Nat.succ_le_succ hn, fun more => ?_⟩, freshName_cases names.used base,
    freshName_not_mem names.used base, List.toFinset_cons, fun s => List.toFinset_cons⟩
  rw [freshName_eq_candidate hleast hn]
  exact takeFree?_eq_some hleast (Nat.zero_le n) (by omega)

/-- The numbers that names already end in do not matter. -/
example : freshName ["Spec", "Spec1", "Spec2", "Spec11"] "Spec" = "Spec3" ∧
    freshName ["Spec", "Spec1", "Spec2", "Spec11"] "Spec1" = "Spec12" := by
  decide

end KindSchema
