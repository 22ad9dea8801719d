import Mathlib.Data.List.Chain
import KindSchema.TypeScript.Types

/-!
# Comments, literals and names in a TypeScript text

The parts of a type that hold text of the user, as lists of characters. None of them can be mistaken
for what follows it, whatever the text is.

* `docComment_append_inj`: documentation never ends its comment, so what follows a comment does not
  depend on it.
* `stringLiteral_append_inj`, `union_append_inj`, `propertyName_append_inj`: a literal, a union of
  literals and the name of a property can be read back from a text that starts with them.
-/

namespace KindSchema.TypeScript

/-! ### Lists of characters -/

theorem toList_indent (level : Nat) : (indent level).toList = List.replicate (2 * level) ' ' := by
  rw [indent, repeated, String.toList_join]
  induction level with
  | zero => rfl
  | succ level ih =>
    rw [List.replicate_succ, List.flatMap_cons, ih, Nat.mul_succ, Nat.add_comm,
      List.replicate_add]
    rfl

/-- Two texts in which a run of characters of the sort `p` ends are the same if the runs and what
follows them are. -/
theorem append_inj_of_run {p : Char → Bool} {xs ys r s : List Char}
    (hxs : ∀ c ∈ xs, p c = true) (hys : ∀ c ∈ ys, p c = true) (hr : ∀ c ∈ r.head?, p c = false)
    (hs : ∀ c ∈ s.head?, p c = false) (h : xs ++ r = ys ++ s) : xs = ys ∧ r = s := by
  have hstop {cs : List Char} (hcs : ∀ c ∈ cs.head?, p c = false) : cs.takeWhile p = [] := by
    cases cs with
    | nil => rfl
    | cons c cs => rw [List.takeWhile_cons, hcs c rfl, if_neg Bool.false_ne_true]
  have hruns := congrArg (List.takeWhile p) h
  rw [List.takeWhile_append_of_pos hxs, List.takeWhile_append_of_pos hys, hstop hr, hstop hs,
    List.append_nil, List.append_nil] at hruns
  exact ⟨hruns, List.append_cancel_left (hruns ▸ h)⟩

/-! ### Comments -/

/-- That `a` and `b`, one after the other, do not end a comment. -/
def Unclosing (a b : Char) : Prop :=
  ¬ (a = '*' ∧ b = '/')

theorem unclosing_append {xs ys : List Char} (hxs : '*' ∉ xs) (hys : ys.IsChain Unclosing) :
    (xs ++ ys).IsChain Unclosing := by
  induction xs with
  | nil => exact hys
  | cons c xs ih =>
    obtain ⟨hc, hxs⟩ := not_or.mp (mt List.mem_cons.mpr hxs)
    exact (ih hxs).cons fun _ _ hclose => hc hclose.1.symm

/-- A line break inside a text ends no comment. -/
private theorem unclosing_append_newline {xs ys : List Char} (hxs : xs.IsChain Unclosing)
    (hys : ys.IsChain Unclosing) : (xs ++ '\n' :: ys).IsChain Unclosing := by
  refine hxs.append (hys.cons fun _ _ hclose => ?_) fun _ _ c hc hclose => ?_
  · exact absurd hclose.1 (by decide)
  · cases hc
    exact absurd hclose.2 (by decide)

/-- A text in which every end of a comment has been escaped contains none. -/
private theorem unclosing_replaceAll (cs : List Char) :
    (replaceAll ['*', '/'] ['*', '\\', '/'] cs).IsChain Unclosing ∧
      (replaceAll ['*', '/'] ['*', '\\', '/'] cs).head? = cs.head? := by
  fun_induction replaceAll ['*', '/'] ['*', '\\', '/'] cs with
  | case1 => exact ⟨.nil, rfl⟩
  -- A backslash is put between the two characters of a closing sign.
  | case2 c cs hclose ih =>
    obtain ⟨rest, hrest⟩ := List.isPrefixOf_iff_prefix.mp hclose.2
    obtain ⟨rfl, -⟩ := List.cons.inj hrest
    refine ⟨?_, rfl⟩
    have hslash : ('/' :: replaceAll ['*', '/'] ['*', '\\', '/'] (cs.drop 1)).IsChain Unclosing :=
      ih.1.cons fun _ _ h => absurd h.1 (by decide)
    have hbackslash := hslash.cons (x := '\\') fun _ _ h => absurd h.1 (by decide)
    exact hbackslash.cons fun c hc h => by
      cases hc
      exact absurd h.2 (by decide)
  | case3 c cs hopen ih =>
    -- A character can only close with the one behind it, which the replacement leaves as it is.
    refine ⟨ih.1.cons fun b hb hclose => hopen ⟨by simp, ?_⟩, rfl⟩
    obtain ⟨rfl, rfl⟩ := hclose
    rw [ih.2] at hb
    cases cs with
    | nil => cases hb
    | cons b cs =>
      cases hb
      rfl

/-- A text in which the end of a comment comes before another end contains it. -/
private theorem eq_nil_of_close_append {xs r s : List Char} (hxs : xs.IsChain Unclosing)
    (h : '*' :: '/' :: r = xs ++ '*' :: '/' :: s) : xs = [] := by
  match xs with
  | [] => rfl
  | [c] =>
    obtain ⟨-, hrest⟩ := List.cons.inj h
    exact absurd (List.cons.inj hrest).1 (by decide)
  | c :: b :: xs =>
    obtain ⟨hc, hrest⟩ := List.cons.inj h
    exact absurd ⟨hc.symm, (List.cons.inj hrest).1.symm⟩ (List.isChain_cons_cons.mp hxs).1

/-- What stands before the first end of a comment is the same in texts that are. -/
private theorem append_close_inj {xs ys r s : List Char} (hxs : xs.IsChain Unclosing)
    (hys : ys.IsChain Unclosing) (h : xs ++ '*' :: '/' :: r = ys ++ '*' :: '/' :: s) :
    xs = ys ∧ r = s := by
  induction xs generalizing ys with
  | nil =>
    obtain rfl := eq_nil_of_close_append hys h
    exact ⟨rfl, (List.cons.inj (List.cons.inj h).2).2⟩
  | cons c xs ih =>
    cases ys with
    | nil => exact absurd (eq_nil_of_close_append hxs h.symm) (List.cons_ne_nil c xs)
    | cons b ys =>
      obtain ⟨rfl, hrest⟩ := List.cons.inj h
      obtain ⟨rfl, heq⟩ := ih hxs.tail hys.tail hrest
      exact ⟨rfl, heq⟩

/-- The characters of `line`, a line of documentation at `level`, without the line break at its
end. -/
def docLineChars (level : Nat) (line : String) : List Char :=
  List.replicate (2 * level) ' ' ++ ' ' :: '*' ::
    if line = "" then [] else ' ' :: replaceAll ['*', '/'] ['*', '\\', '/'] line.toList

private theorem toList_docLine (level : Nat) (line : String) :
    (docLine level line).toList = docLineChars level line ++ ['\n'] := by
  unfold docLine docLineChars
  split
  · rw [String.toList_append, toList_indent, List.append_assoc]
    rfl
  · simp only [String.toList_append, toList_indent, String.toList_ofList, List.append_assoc]
    rfl

private theorem unclosing_docLineChars (level : Nat) (line : String) :
    (docLineChars level line).IsChain Unclosing := by
  have hblanks : '*' ∉ List.replicate (2 * level) ' ' ++ [' '] := by simp
  have hline : ('*' :: if line = "" then [] else
      ' ' :: replaceAll ['*', '/'] ['*', '\\', '/'] line.toList).IsChain Unclosing := by
    split
    · exact .singleton '*'
    · refine ((unclosing_replaceAll line.toList).1.cons fun _ _ h => ?_).cons fun c hc h => ?_
      · exact absurd h.1 (by decide)
      · cases hc
        exact absurd h.2 (by decide)
  have := unclosing_append hblanks hline
  rwa [List.append_assoc] at this

/-- The comment of `docs` starts as comments do, and ends where it first can. It could not end
before, not even with the second character of its opening. -/
theorem exists_docComment_eq (level : Nat) {docs : List String} (h : docs ≠ []) :
    ∃ body : List Char, ('*' :: body).IsChain Unclosing ∧ (docComment level docs).toList =
      List.replicate (2 * level) ' ' ++ '/' :: '*' :: (body ++ '*' :: '/' :: ['\n']) := by
  have hlines : ∀ lines : List String, ∀ rest : List Char, rest.IsChain Unclosing →
      ((String.join (lines.map (docLine level))).toList ++ rest).IsChain Unclosing := by
    intro lines rest hrest
    induction lines with
    | nil => exact hrest
    | cons line lines ih =>
      rw [List.map_cons, String.join_cons, String.toList_append, toList_docLine,
        List.append_assoc, List.append_assoc]
      exact unclosing_append_newline (unclosing_docLineChars level line) ih
  have hblanks : (List.replicate (2 * level) ' ' ++ [' ']).IsChain Unclosing :=
    List.append_nil (List.replicate (2 * level) ' ' ++ [' ']) ▸
      unclosing_append (by simp) .nil
  have hopening : ['*', '*'].IsChain Unclosing :=
    List.isChain_pair.mpr fun hclose => absurd hclose.2 (by decide)
  refine ⟨['*'] ++ '\n' :: ((String.join (docs.map (docLine level))).toList ++
    (List.replicate (2 * level) ' ' ++ [' '])),
    unclosing_append_newline hopening (hlines docs _ hblanks), ?_⟩
  rw [docComment, if_neg (by simpa using h)]
  simp only [String.toList_append, toList_indent, List.append_assoc, List.cons_append,
    List.nil_append]
  rfl

/-- What follows `docs`, after an indentation, does not depend on the documentation. -/
theorem docComment_append_inj {level : Nat} {docs docs' : List String} {r s : List Char}
    (hr : '/' ∉ r.head?) (hs : '/' ∉ s.head?)
    (h : (docComment level docs).toList ++ (List.replicate (2 * level) ' ' ++ r) =
      (docComment level docs').toList ++ (List.replicate (2 * level) ' ' ++ s)) : r = s := by
  have hnone : (docComment level []).toList = [] := rfl
  -- A comment opens with a slash and what follows it does not, so both have one or neither.
  by_cases hdocs : docs = []
  · by_cases hdocs' : docs' = []
    · rw [hdocs, hdocs', hnone] at h
      exact List.append_cancel_left h
    · obtain ⟨body, -, heq⟩ := exists_docComment_eq level hdocs'
      rw [hdocs, heq, hnone, List.nil_append, List.append_assoc] at h
      rw [List.append_cancel_left h] at hr
      exact absurd rfl hr
  · obtain ⟨body, hbody, heq⟩ := exists_docComment_eq level hdocs
    by_cases hdocs' : docs' = []
    · rw [hdocs', heq, hnone, List.nil_append, List.append_assoc] at h
      rw [← List.append_cancel_left h] at hs
      exact absurd rfl hs
    · obtain ⟨body', hbody', heq'⟩ := exists_docComment_eq level hdocs'
      simp only [heq, heq', List.append_assoc, List.cons_append, List.nil_append] at h
      have hcomment := (List.cons.inj (List.cons.inj (List.append_cancel_left h)).2).2
      have hrest := (append_close_inj hbody.tail hbody'.tail hcomment).2
      exact List.append_cancel_left (List.cons.inj hrest).2

/-! ### Literals -/

/-- A literal is read back up to its closing quote. -/
private theorem escaped_append_inj {xs ys r s : List Char}
    (h : xs.flatMap escapeChar ++ '\'' :: r = ys.flatMap escapeChar ++ '\'' :: s) :
    xs = ys ∧ r = s := by
  -- No character is written in a way that starts with a quote.
  have hquote (c : Char) (cs t u : List Char) :
      '\'' :: t ≠ (c :: cs).flatMap escapeChar ++ u := by
    intro h
    rw [List.flatMap_cons, escapeChar] at h
    split at h
    · exact absurd (List.cons.inj h).1 (by decide)
    · next hplain => exact hplain (.inr (List.cons.inj h).1.symm)
  induction xs generalizing ys with
  | nil =>
    cases ys with
    | nil => exact ⟨rfl, (List.cons.inj h).2⟩
    | cons b ys => exact absurd h (hquote b ys _ _)
  | cons c xs ih =>
    cases ys with
    | nil => exact absurd h.symm (hquote c xs _ _)
    | cons b ys =>
      rw [List.flatMap_cons, List.flatMap_cons, List.append_assoc, List.append_assoc] at h
      obtain ⟨rfl, hrest⟩ : c = b ∧ xs.flatMap escapeChar ++ '\'' :: r =
          ys.flatMap escapeChar ++ '\'' :: s := by
        unfold escapeChar at h
        split at h <;> split at h
        · have hcs := (List.cons.inj h).2
          exact List.cons.inj hcs
        · next hplain => exact absurd (.inl (List.cons.inj h).1.symm) hplain
        · next hplain _ => exact absurd (.inl (List.cons.inj h).1) hplain
        · exact List.cons.inj h
      obtain ⟨rfl, heq⟩ := ih hrest
      exact ⟨rfl, heq⟩

theorem toList_stringLiteral (s : String) :
    (stringLiteral s).toList = '\'' :: (s.toList.flatMap escapeChar ++ ['\'']) :=
  String.toList_ofList

theorem stringLiteral_append_inj {a b : String} {r s : List Char}
    (h : (stringLiteral a).toList ++ r = (stringLiteral b).toList ++ s) : a = b ∧ r = s := by
  rw [toList_stringLiteral, toList_stringLiteral, List.cons_append, List.cons_append,
    List.append_assoc, List.append_assoc] at h
  obtain ⟨htext, hrest⟩ := escaped_append_inj (List.cons.inj h).2
  exact ⟨String.toList_inj.mp htext, hrest⟩

/-- What stands behind a literal of a union: the other literals, which are `values`, each after a
bar, a bracket, and `rest`. -/
def moreLiterals (values : List String) (rest : List Char) : List Char :=
  values.flatMap (fun v => ' ' :: '|' :: ' ' :: (stringLiteral v).toList) ++ ')' :: rest

private theorem moreLiterals_cons (v : String) (values : List String) (rest : List Char) :
    moreLiterals (v :: values) rest =
      ' ' :: '|' :: ' ' :: ((stringLiteral v).toList ++ moreLiterals values rest) := by
  rw [moreLiterals, List.flatMap_cons, List.append_assoc]
  rfl

private theorem moreLiterals_inj {values values' : List String} {r s : List Char}
    (h : moreLiterals values r = moreLiterals values' s) : values = values' ∧ r = s := by
  induction values generalizing values' with
  | nil =>
    cases values' with
    | nil => exact ⟨rfl, (List.cons.inj h).2⟩
    | cons v values' =>
      rw [moreLiterals_cons] at h
      exact absurd (List.cons.inj h).1 (by decide)
  | cons v values ih =>
    rw [moreLiterals_cons] at h
    cases values' with
    | nil => exact absurd (List.cons.inj h).1 (by decide)
    | cons v' values' =>
      rw [moreLiterals_cons] at h
      have hliteral := (List.cons.inj (List.cons.inj (List.cons.inj h).2).2).2
      obtain ⟨rfl, hrest⟩ := stringLiteral_append_inj hliteral
      obtain ⟨rfl, heq⟩ := ih hrest
      exact ⟨rfl, heq⟩

private theorem toList_union_nil (rest : List Char) :
    (union []).toList ++ rest = '(' :: ')' :: rest :=
  rfl

private theorem toList_union_cons (v : String) (values : List String) (rest : List Char) :
    (union (v :: values)).toList ++ rest =
      '(' :: ((stringLiteral v).toList ++ moreLiterals values rest) := by
  have hjoin : ∀ values : List String, ∀ v : String,
      (" | ".intercalate ((v :: values).map stringLiteral)).toList ++ ')' :: rest =
        (stringLiteral v).toList ++ moreLiterals values rest := by
    intro values
    induction values with
    | nil =>
      intro v
      rw [List.map_singleton, String.intercalate_singleton]
      rfl
    | cons w values ih =>
      intro v
      have hrest := ih w
      rw [List.map_cons, List.map_cons, String.intercalate_cons_cons, String.toList_append,
        String.toList_append, List.append_assoc, List.append_assoc, ← List.map_cons, hrest,
        moreLiterals_cons]
      rfl
  rw [union, String.toList_append, String.toList_append, List.append_assoc, List.append_assoc]
  exact congrArg ('(' :: ·) (hjoin values v)

theorem union_append_inj {values values' : List String} {r s : List Char}
    (h : (union values).toList ++ r = (union values').toList ++ s) :
    values = values' ∧ r = s := by
  -- A literal starts with a quote, so it is no closing bracket.
  have hquote (v : String) (t u : List Char) : ')' :: t ≠ (stringLiteral v).toList ++ u := by
    rw [toList_stringLiteral]
    exact fun h => absurd (List.cons.inj h).1 (by decide)
  cases values with
  | nil =>
    cases values' with
    | nil => exact ⟨rfl, List.append_cancel_left h⟩
    | cons v' values' =>
      rw [toList_union_nil, toList_union_cons] at h
      exact absurd (List.cons.inj h).2 (hquote v' _ _)
  | cons v values =>
    rw [toList_union_cons] at h
    cases values' with
    | nil =>
      rw [toList_union_nil] at h
      exact absurd (List.cons.inj h).2.symm (hquote v _ _)
    | cons v' values' =>
      rw [toList_union_cons] at h
      obtain ⟨rfl, hrest⟩ := stringLiteral_append_inj (List.cons.inj h).2
      obtain ⟨rfl, heq⟩ := moreLiterals_inj hrest
      exact ⟨rfl, heq⟩

/-! ### Names of properties -/

/-- Whether `c` can occur in a property name without quotes. -/
def isNameChar (c : Char) : Bool :=
  isNameStart c || c.isDigit

theorem exists_toList_of_isName {s : String} (h : isName s = true) :
    ∃ c cs, s.toList = c :: cs ∧ ∀ b ∈ s.toList, isNameChar b = true := by
  unfold isName at h
  split at h
  · exact absurd h Bool.false_ne_true
  · next c cs hs =>
    obtain ⟨hc, hcs⟩ := (Bool.and_eq_true _ _).mp h
    refine ⟨c, cs, hs, fun b hb => ?_⟩
    rw [hs] at hb
    obtain rfl | hb := List.mem_cons.mp hb
    · rw [isNameChar, hc, Bool.true_or]
    · exact List.all_eq_true.mp hcs b hb

/-- A name without quotes is no literal. -/
private theorem toList_append_ne_stringLiteral {a : String} (ha : isName a = true) (b : String)
    (r s : List Char) : a.toList ++ r ≠ (stringLiteral b).toList ++ s := by
  obtain ⟨c, cs, hcs, hname⟩ := exists_toList_of_isName ha
  rw [hcs] at hname ⊢
  rw [toList_stringLiteral]
  intro h
  have hc := hname c List.mem_cons_self
  rw [(List.cons.inj h).1] at hc
  exact absurd hc (by decide)

/-- The name `a` of a property is read back up to the mark behind it. -/
theorem propertyName_append_inj {a b : String} {r s : List Char}
    (hr : ∀ c ∈ r.head?, c = '?' ∨ c = ':') (hs : ∀ c ∈ s.head?, c = '?' ∨ c = ':')
    (h : (propertyName a).toList ++ r = (propertyName b).toList ++ s) : a = b ∧ r = s := by
  have hmark {t : List Char} (ht : ∀ c ∈ t.head?, c = '?' ∨ c = ':') :
      ∀ c ∈ t.head?, isNameChar c = false := by
    intro c hc
    obtain rfl | rfl := ht c hc <;> decide
  unfold propertyName at h
  -- A key is written as it is or in quotes, and the quotes tell which.
  by_cases ha : isName a = true <;> by_cases hb : isName b = true
  · rw [if_pos ha, if_pos hb] at h
    obtain ⟨-, -, -, hchars⟩ := exists_toList_of_isName ha
    obtain ⟨-, -, -, hchars'⟩ := exists_toList_of_isName hb
    obtain ⟨heq, hrest⟩ := append_inj_of_run hchars hchars' (hmark hr) (hmark hs) h
    exact ⟨String.toList_inj.mp heq, hrest⟩
  · rw [if_pos ha, if_neg hb] at h
    exact absurd h (toList_append_ne_stringLiteral ha b r s)
  · rw [if_neg ha, if_pos hb] at h
    exact absurd h.symm (toList_append_ne_stringLiteral hb a s r)
  · rw [if_neg ha, if_neg hb] at h
    exact stringLiteral_append_inj h

/-- The name `s` of a property starts no comment. -/
theorem slash_not_mem_head?_propertyName (s : String) (r : List Char) :
    '/' ∉ ((propertyName s).toList ++ r).head? := by
  unfold propertyName
  split
  · next h =>
    obtain ⟨c, cs, hcs, hname⟩ := exists_toList_of_isName h
    rw [hcs] at hname ⊢
    rintro hslash
    cases hslash
    exact absurd (hname '/' List.mem_cons_self) (by decide)
  · rw [toList_stringLiteral]
    rintro hslash
    cases hslash

end KindSchema.TypeScript
