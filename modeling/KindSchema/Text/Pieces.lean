/-!
# Pieces of a text

Cutting a list of characters at separators, replacing a substring, and joining with a separator.
`pieces` keeps empty pieces, so joining with the separator gives the text back.
-/

namespace KindSchema

/-- The pieces between the characters where `isBreak` holds; there is one more than breaks. -/
def pieces (isBreak : Char → Bool) : List Char → List (List Char)
  | [] => [[]]
  | c :: cs =>
    if isBreak c then [] :: pieces isBreak cs
    else match pieces isBreak cs with
      | [] => [[c]]
      | p :: ps => (c :: p) :: ps

theorem pieces_ne_nil (isBreak : Char → Bool) (cs : List Char) : pieces isBreak cs ≠ [] := by
  cases cs with
  | nil => simp [pieces]
  | cons c cs =>
    unfold pieces
    split
    · simp
    · split <;> simp

/-- Cutting `cs` loses only the breaks. -/
theorem flatten_pieces (isBreak : Char → Bool) (cs : List Char) :
    (pieces isBreak cs).flatten = cs.filter (fun c => !isBreak c) := by
  induction cs with
  | nil => rfl
  | cons c cs ih =>
    unfold pieces
    split
    · next h => simp [h, ih]
    · next h =>
      split
      · next hp => exact absurd hp (pieces_ne_nil _ _)
      · next p ps hp => simp [h, ← ih, hp]

/-- Joining the pieces of `cs` between separators gives the text back. -/
theorem intercalate_pieces (separator : Char) (cs : List Char) :
    [separator].intercalate (pieces (· == separator) cs) = cs := by
  induction cs with
  | nil => rfl
  | cons c cs ih =>
    unfold pieces
    split
    · next h =>
      cases hp : pieces (· == separator) cs with
      | nil => exact absurd hp (pieces_ne_nil _ _)
      | cons p ps =>
        rw [hp] at ih
        simp_all [List.intercalate]
    · next h =>
      split
      · next hp => exact absurd hp (pieces_ne_nil _ _)
      · next p ps hp =>
        rw [hp] at ih
        cases ps <;> simp_all [List.intercalate]

/-- The characters of `piece` are characters of the text, and none of them is a break. -/
theorem mem_of_mem_pieces {isBreak : Char → Bool} {cs piece : List Char}
    (h : piece ∈ pieces isBreak cs) {c : Char} (hc : c ∈ piece) : c ∈ cs ∧ isBreak c = false := by
  have hflat : c ∈ (pieces isBreak cs).flatten := List.mem_flatten.mpr ⟨piece, h, hc⟩
  rw [flatten_pieces, List.mem_filter] at hflat
  exact ⟨hflat.1, by simpa using hflat.2⟩

/-- Cutting a text at `c`, a break, cuts what is before it and what is after it. -/
theorem pieces_append_break {isBreak : Char → Bool} {c : Char} (hc : isBreak c = true)
    (before after : List Char) :
    pieces isBreak (before ++ c :: after) = pieces isBreak before ++ pieces isBreak after := by
  induction before with
  | nil => simp [pieces, hc]
  | cons b before ih =>
    by_cases hb : isBreak b = true
    · simp [pieces, hb, ih]
    · obtain ⟨p, ps, hpieces⟩ := List.exists_cons_of_ne_nil (pieces_ne_nil isBreak before)
      rw [List.cons_append, pieces, if_neg hb, ih, hpieces, pieces, if_neg hb, hpieces]
      rfl

/-- If `separator` is not in `cs`, this is one piece. -/
theorem pieces_of_not_mem {separator : Char} {cs : List Char} (h : separator ∉ cs) :
    pieces (· == separator) cs = [cs] := by
  induction cs with
  | nil => rfl
  | cons c cs ih =>
    obtain ⟨hc, hcs⟩ := List.ne_and_not_mem_of_not_mem_cons h
    rw [pieces, if_neg (by simpa using hc.symm), ih hcs]

/-- The pieces `ps` that are joined with the separator are found again. -/
theorem pieces_intercalate {separator : Char} {ps : List (List Char)} (hne : ps ≠ [])
    (h : ∀ p ∈ ps, separator ∉ p) :
    pieces (· == separator) ([separator].intercalate ps) = ps := by
  have happend (before after : List Char) :
      pieces (· == separator) (before ++ separator :: after) =
        pieces (· == separator) before ++ pieces (· == separator) after := by
    refine pieces_append_break ?_ before after
    exact beq_self_eq_true separator
  induction ps with
  | nil => exact absurd rfl hne
  | cons p ps ih =>
    obtain ⟨hp, hps⟩ := List.forall_mem_cons.mp h
    cases ps with
    | nil => rw [List.intercalate_singleton, pieces_of_not_mem hp]
    | cons q ps =>
      rw [List.intercalate_cons_cons, List.append_assoc, List.singleton_append,
        happend, pieces_of_not_mem hp, ih (List.cons_ne_nil q ps) hps, List.singleton_append]

/-- The text `cs` with every `old` replaced by `new`, found from left to right without overlap.
Nothing is replaced if `old` is empty. -/
def replaceAll (old new : List Char) : List Char → List Char
  | [] => []
  | c :: cs =>
    if old ≠ [] ∧ old.isPrefixOf (c :: cs) then
      new ++ replaceAll old new (cs.drop (old.length - 1))
    else c :: replaceAll old new cs
termination_by cs => cs.length
decreasing_by all_goals (simp only [List.length_cons, List.length_drop]; omega)

/-- The lines of `s`: its pieces between line feeds. -/
def linesOf (s : String) : List String :=
  (pieces (· == '\n') s.toList).map String.ofList

/-- `n` copies of a text, one after the other. -/
def repeated (n : Nat) (s : String) : String :=
  String.join (List.replicate n s)

end KindSchema
