/-!
# Comments and names in files

A file as a list of parts: code, the names in it that matter, and the lines of comments, each with
the text that it holds behind a leader. The text of a comment is someone's own, so it is worth
asking on which lines of the file it ends up: the text may have line breaks of its own.

* `IsLaid`: that all comments begin on new lines.
* `textLines_markedOf`: the lines that have text of comments are then those of each comment alone.
* `Comment.keepsComments_iff`: a comment alone has all its text on lines that are comments exactly
  if its text goes on as a comment after each line break.
-/

namespace KindSchema

/-- A line of a comment: what it begins with, and the text behind that. -/
structure Comment where
  leader : String
  text : String
deriving DecidableEq, Repr

/-- What a name stands for in a file. -/
inductive NameRole
  /-- A type where it is declared. -/
  | declared
  /-- A declared type where it is mentioned. -/
  | mentioned
  /-- A constant where it is declared. -/
  | constant
  /-- A type that needs no declaration. -/
  | builtin
deriving DecidableEq

/-- A part of a file. -/
inductive FilePart
  | code (text : String)
  | name (role : NameRole) (text : String)
  | comment (c : Comment)

/-- The text that a part puts into the file. A comment ends its line. -/
def FilePart.output : FilePart → String
  | .code text => text
  | .name _ text => text
  | .comment c => c.leader ++ c.text ++ "\n"

/-- The text that `parts` make up. -/
def outputOf (parts : List FilePart) : String :=
  String.join (parts.map FilePart.output)

/-- The comments among some parts. -/
def commentsOf : List FilePart → List Comment
  | [] => []
  | .code _ :: parts => commentsOf parts
  | .name _ _ :: parts => commentsOf parts
  | .comment c :: parts => c :: commentsOf parts

/-- The name that a part is, if it has the role `role`. -/
def FilePart.names (role : NameRole) : FilePart → List String
  | .code _ => []
  | .name own text => if own = role then [text] else []
  | .comment _ => []

/-- The names with the role `role` among `parts`. -/
def namesOf (role : NameRole) (parts : List FilePart) : List String :=
  parts.flatMap (FilePart.names role)

section Parts

variable (part : FilePart) (parts parts' : List FilePart)

@[simp]
theorem outputOf_nil : outputOf [] = "" :=
  rfl

@[simp]
theorem outputOf_cons : outputOf (part :: parts) = part.output ++ outputOf parts :=
  String.join_cons

@[simp]
theorem outputOf_append : outputOf (parts ++ parts') = outputOf parts ++ outputOf parts' := by
  rw [outputOf, List.map_append, String.join_append]
  rfl

@[simp]
theorem commentsOf_append :
    commentsOf (parts ++ parts') = commentsOf parts ++ commentsOf parts' := by
  induction parts with
  | nil => rfl
  | cons part parts ih =>
    cases part with
    | code text => exact ih
    | name role text => exact ih
    | comment c => exact congrArg (c :: ·) ih

@[simp]
theorem namesOf_cons (role : NameRole) :
    namesOf role (part :: parts) = part.names role ++ namesOf role parts :=
  List.flatMap_cons

@[simp]
theorem namesOf_append (role : NameRole) :
    namesOf role (parts ++ parts') = namesOf role parts ++ namesOf role parts' :=
  List.flatMap_append

theorem namesOf_flatMap {α : Type} (role : NameRole) (f : α → List FilePart) (xs : List α) :
    namesOf role (xs.flatMap f) = xs.flatMap fun x => namesOf role (f x) :=
  List.flatMap_assoc

theorem commentsOf_flatMap {α : Type} (f : α → List FilePart) (xs : List α) :
    commentsOf (xs.flatMap f) = xs.flatMap fun x => commentsOf (f x) := by
  induction xs with
  | nil => rfl
  | cons x xs ih => rw [List.flatMap_cons, commentsOf_append, ih, List.flatMap_cons]

theorem outputOf_flatMap {α : Type} (f : α → List FilePart) (xs : List α) :
    outputOf (xs.flatMap f) = String.join (xs.map fun x => outputOf (f x)) := by
  induction xs with
  | nil => rfl
  | cons x xs ih => rw [List.flatMap_cons, outputOf_append, ih, List.map_cons, String.join_cons]

end Parts

/-! ### Lines -/

/-- A character of a file, with whether it is one of the text of a comment. -/
abbrev MarkedChar := Char × Bool

/-- The characters of `s`, all with the mark `isText`. -/
def markAll (isText : Bool) (s : String) : List MarkedChar :=
  s.toList.map (·, isText)

/-- The characters of `c` up to the end of its line. -/
def Comment.marked (c : Comment) : List MarkedChar :=
  markAll false c.leader ++ markAll true c.text

/-- The characters of a part. -/
def FilePart.marked : FilePart → List MarkedChar
  | .code text => markAll false text
  | .name _ text => markAll false text
  | .comment c => c.marked ++ [('\n', false)]

/-- The characters of `parts`. -/
def markedOf (parts : List FilePart) : List MarkedChar :=
  parts.flatMap FilePart.marked

/-- The lines of `cs` that have text of comments. -/
def textLines (cs : List MarkedChar) : List (List MarkedChar) :=
  (cs.splitOnP (·.1 == '\n')).filter (·.any (·.2))

/-- Whether `line` is a comment: whether it has two slashes behind its tabs. -/
def isCommentLine (line : List Char) : Bool :=
  ['/', '/'].isPrefixOf (line.dropWhile (· == '\t'))

/-- That every line of `cs` that has text of comments is a comment. -/
def KeepsComments (cs : List MarkedChar) : Prop :=
  ∀ line ∈ textLines cs, isCommentLine (line.map (·.1)) = true

/-- That the lines of `text` after the first are comments themselves, unless they are empty. -/
def ContinuesComment (text : String) : Prop :=
  ∀ line ∈ (text.toList.splitOn '\n').tail, line ≠ [] → isCommentLine line = true

private theorem map_markAll (isText : Bool) (s : String) :
    (markAll isText s).map (·.1) = s.toList := by
  rw [markAll, List.map_map]
  exact List.map_id _

/-- The marks aside, the characters of `parts` are those of the text that they make up. -/
theorem map_markedOf (parts : List FilePart) :
    (markedOf parts).map (·.1) = (outputOf parts).toList := by
  induction parts with
  | nil => rfl
  | cons part parts ih =>
    rw [markedOf, List.flatMap_cons, ← markedOf, List.map_append, ih, outputOf_cons,
      String.toList_append]
    cases part with
    | code text => rw [FilePart.marked, map_markAll, FilePart.output]
    | name role text => rw [FilePart.marked, map_markAll, FilePart.output]
    | comment c =>
      rw [FilePart.marked, Comment.marked, List.map_append, List.map_append, map_markAll,
        map_markAll, FilePart.output, String.toList_append, String.toList_append]
      rfl

private theorem textLines_append_break {isText : Bool} (before after : List MarkedChar) :
    textLines (before ++ ('\n', isText) :: after) = textLines before ++ textLines after := by
  rw [textLines, List.splitOnP_append_cons, List.filter_append]
  · rfl
  · rfl

/-- That none of `cs` is a character of the text of a comment. -/
def IsCode (cs : List MarkedChar) : Prop :=
  ∀ c ∈ cs, c.2 = false

private theorem isCode_nil : IsCode [] :=
  fun _ hc => absurd hc List.not_mem_nil

private theorem isCode_markAll (s : String) : IsCode (markAll false s) :=
  List.forall_mem_map.mpr fun _ _ => rfl

private theorem IsCode.append {cs ds : List MarkedChar} (hcs : IsCode cs) (hds : IsCode ds) :
    IsCode (cs ++ ds) :=
  List.forall_mem_append.mpr ⟨hcs, hds⟩

/-- The characters of a line are characters of the text. -/
private theorem mem_of_mem_splitOnP {α : Type} {isBreak : α → Bool} {xs line : List α}
    (h : line ∈ xs.splitOnP isBreak) {x : α} (hx : x ∈ line) : x ∈ xs := by
  induction xs generalizing line with
  | nil =>
    rw [List.splitOnP_nil, List.mem_singleton] at h
    rwa [h] at hx
  | cons y xs ih =>
    obtain ⟨first, rest, hlines⟩ := List.exists_cons_of_ne_nil (List.splitOnP_ne_nil isBreak xs)
    rw [hlines] at ih
    rw [List.splitOnP_cons_eq_if_modifyHead, hlines, List.modifyHead_cons] at h
    split at h
    · rcases List.mem_cons.mp h with rfl | h
      · exact absurd hx List.not_mem_nil
      · exact List.mem_cons_of_mem y (ih h hx)
    · rcases List.mem_cons.mp h with rfl | h
      · rcases List.mem_cons.mp hx with rfl | hx
        · exact List.mem_cons_self
        · exact List.mem_cons_of_mem y (ih List.mem_cons_self hx)
      · exact List.mem_cons_of_mem y (ih (List.mem_cons_of_mem first h) hx)

/-- Code has no text of comments on any line. -/
private theorem IsCode.textLines_eq_nil {cs : List MarkedChar} (h : IsCode cs) :
    textLines cs = [] := by
  refine List.filter_eq_nil_iff.mpr fun line hline hany => ?_
  obtain ⟨c, hc, htext⟩ := List.any_eq_true.mp hany
  exact Bool.false_ne_true ((h c (mem_of_mem_splitOnP hline hc)).symm.trans htext)

/-! ### Layout -/

/-- Whether a text ends at the beginning of a line; `start` tells it of the place where the text
begins. -/
def endsLine (start : Bool) (text : String) : Bool :=
  (text.toList.getLast?.map (· == '\n')).getD start

/-- That comments begin at the beginning of lines; `start` tells whether the first part does. -/
def IsLaid (start : Bool) : List FilePart → Prop
  | [] => True
  | .code text :: parts => IsLaid (endsLine start text) parts
  | .name _ text :: parts => IsLaid (endsLine start text) parts
  | .comment _ :: parts => start = true ∧ IsLaid true parts

/-- Whether some parts end at the beginning of a line; `start` tells whether they begin there. -/
def endsLineOf (start : Bool) : List FilePart → Bool
  | [] => start
  | .code text :: parts => endsLineOf (endsLine start text) parts
  | .name _ text :: parts => endsLineOf (endsLine start text) parts
  | .comment _ :: parts => endsLineOf true parts

/-- That the characters of `before` end at the beginning of a line. -/
def AtLineStart (before : List MarkedChar) : Prop :=
  before = [] ∨ ∃ isText cs, before = cs ++ [('\n', isText)]

/-- Code that ends at the beginning of a line does not matter to the lines behind it. -/
private theorem AtLineStart.textLines_append {before : List MarkedChar} (h : AtLineStart before)
    (hcode : IsCode before) (after : List MarkedChar) :
    textLines (before ++ after) = textLines after := by
  rcases h with rfl | ⟨isText, cs, rfl⟩
  · rw [List.nil_append]
  · rw [List.append_assoc, List.singleton_append, textLines_append_break,
      IsCode.textLines_eq_nil (List.forall_mem_append.mp hcode).1, List.nil_append]

/-- What `endsLine` tells is where a text ends. -/
private theorem AtLineStart.append {start : Bool} {before : List MarkedChar} {text : String}
    (hstart : start = true → AtLineStart before) (hend : endsLine start text = true) :
    AtLineStart (before ++ markAll false text) := by
  unfold endsLine at hend
  unfold markAll
  rcases text.toList.eq_nil_or_concat with hnil | ⟨cs, c, hcs⟩
  · rw [hnil] at hend ⊢
    rw [List.map_nil, List.append_nil]
    exact hstart hend
  · rw [List.concat_eq_append] at hcs
    rw [hcs, List.getLast?_concat, Option.map_some, Option.getD_some, beq_iff_eq] at hend
    rw [hcs, hend, List.map_append, ← List.append_assoc]
    exact .inr ⟨false, _, rfl⟩

/-- What stands before some parts does not matter to the lines that have text of their comments, if
every comment begins on a new line. -/
private theorem textLines_append_markedOf {start : Bool} {parts : List FilePart}
    {before : List MarkedChar} (h : IsLaid start parts) (hcode : IsCode before)
    (hstart : start = true → AtLineStart before) :
    textLines (before ++ markedOf parts) =
      (commentsOf parts).flatMap fun c => textLines c.marked := by
  induction parts generalizing start before with
  | nil =>
    rw [markedOf, List.flatMap_nil, List.append_nil]
    exact hcode.textLines_eq_nil
  | cons part parts ih =>
    rw [markedOf, List.flatMap_cons, ← markedOf]
    cases part with
    | code text =>
      rw [← List.append_assoc]
      exact ih h (hcode.append (isCode_markAll text)) (AtLineStart.append hstart)
    | name role text =>
      rw [← List.append_assoc]
      exact ih h (hcode.append (isCode_markAll text)) (AtLineStart.append hstart)
    | comment c =>
      obtain ⟨rfl, h⟩ := h
      -- Behind a comment a new line starts, so the induction hypothesis is used with nothing before
      -- it.
      have hrest : textLines (markedOf parts) = _ := ih h isCode_nil fun _ => .inl rfl
      rw [(hstart rfl).textLines_append hcode, FilePart.marked, List.append_assoc,
        List.singleton_append, textLines_append_break, hrest, commentsOf, List.flatMap_cons]

/-- Where every comment of `parts` begins on a new line, the lines that have text of comments are
those that each comment has for itself. -/
theorem textLines_markedOf {parts : List FilePart} (h : IsLaid true parts) :
    textLines (markedOf parts) = (commentsOf parts).flatMap fun c => textLines c.marked := by
  have hlines : textLines ([] ++ markedOf parts) = _ :=
    textLines_append_markedOf h isCode_nil fun _ => .inl rfl
  exact hlines

/-- All text of comments of `parts` is on lines that are comments exactly if it is so for each
comment alone. -/
theorem keepsComments_markedOf_iff {parts : List FilePart} (h : IsLaid true parts) :
    KeepsComments (markedOf parts) ↔ ∀ c ∈ commentsOf parts, KeepsComments c.marked := by
  rw [KeepsComments, textLines_markedOf h, List.forall_mem_flatMap]
  exact Iff.rfl

/-! ### One comment -/

section SplitOnP

variable {α β : Type} {isBreak : α → Bool}

/-- What has no break stands before the first piece of what follows it. -/
private theorem splitOnP_append_of_forall_mem {xs : List α} (h : ∀ x ∈ xs, isBreak x = false)
    (ys : List α) :
    (xs ++ ys).splitOnP isBreak = (ys.splitOnP isBreak).modifyHead (xs ++ ·) := by
  induction xs with
  | nil => exact (congrFun List.modifyHead_id _).symm
  | cons x xs ih =>
    obtain ⟨hx, hxs⟩ := List.forall_mem_cons.mp h
    rw [List.cons_append, List.splitOnP_cons_eq_if_modifyHead, if_neg (by simp [hx]), ih hxs,
      List.modifyHead_modifyHead]
    rfl

/-- Breaks are found again in what a list is mapped to. -/
private theorem splitOnP_map (isBreak : β → Bool) (f : α → β) (xs : List α) :
    (xs.map f).splitOnP isBreak = (xs.splitOnP fun x => isBreak (f x)).map (List.map f) := by
  induction xs with
  | nil => rfl
  | cons x xs ih =>
    rw [List.map_cons, List.splitOnP_cons_eq_if_modifyHead, List.splitOnP_cons_eq_if_modifyHead, ih]
    split
    · rfl
    · cases xs.splitOnP fun x => isBreak (f x) <;> rfl

end SplitOnP

/-- What begins like a comment, as `cs` does, is one. -/
theorem isCommentLine_append {cs : List Char} (h : isCommentLine cs = true) (ds : List Char) :
    isCommentLine (cs ++ ds) = true := by
  unfold isCommentLine at h ⊢
  have hne : cs.dropWhile (· == '\t') ≠ [] := by
    intro hnil
    rw [hnil] at h
    cases h
  rw [List.dropWhile_append, if_neg (by simpa using hne)]
  rw [List.isPrefixOf_iff_prefix] at h ⊢
  exact h.trans (List.prefix_append _ _)

/-- Behind the leader of `c`, which makes a comment on its line, text stays on lines that are
comments exactly if it goes on as a comment. -/
theorem Comment.keepsComments_iff {c : Comment} (hleader : isCommentLine c.leader.toList = true)
    (hbreak : '\n' ∉ c.leader.toList) : KeepsComments c.marked ↔ ContinuesComment c.text := by
  have hnone : ∀ x ∈ markAll false c.leader, (x.1 == '\n') = false :=
    List.forall_mem_map.mpr fun x hx => beq_eq_false_iff_ne.mpr fun heq => hbreak (heq ▸ hx)
  have hmarks (line : List Char) : (line.map (·, true)).map (·.1) = line := by
    rw [List.map_map]
    exact List.map_id line
  have htext (line : List Char) : (line.map (·, true)).any (·.2) = true ↔ line ≠ [] := by
    cases line <;> simp
  obtain ⟨first, rest, hlines⟩ :=
    List.exists_cons_of_ne_nil (List.splitOn_ne_nil '\n' c.text.toList)
  have hsplit : (markAll true c.text).splitOnP (·.1 == '\n') =
      (first :: rest).map (List.map (·, true)) := by
    rw [markAll, splitOnP_map, ← hlines]
    rfl
  rw [KeepsComments, textLines, Comment.marked, splitOnP_append_of_forall_mem hnone, hsplit,
    List.map_cons, List.modifyHead_cons, List.forall_mem_filter, List.forall_mem_cons,
    List.forall_mem_map, ContinuesComment, hlines, List.tail_cons]
  -- The first line begins with the leader.
  rw [and_iff_right]
  · simp only [htext, hmarks]
  · intro _
    rw [List.map_append, map_markAll]
    exact isCommentLine_append hleader _

/-- If `text` has no line breaks, it is on one line. -/
theorem continuesComment_of_not_mem {text : String} (h : '\n' ∉ text.toList) :
    ContinuesComment text := by
  rw [ContinuesComment, List.splitOn_eq_singleton h]
  exact fun line hline => absurd hline List.not_mem_nil

/-! ### Whole lines -/

theorem isLaid_append {start : Bool} {parts parts' : List FilePart} :
    IsLaid start (parts ++ parts') ↔
      IsLaid start parts ∧ IsLaid (endsLineOf start parts) parts' := by
  induction parts generalizing start with
  | nil => exact (and_iff_right trivial).symm
  | cons part parts ih =>
    cases part with
    | code text => exact ih
    | name role text => exact ih
    | comment c => exact (and_congr_right' ih).trans and_assoc.symm

private theorem endsLineOf_append {start : Bool} {parts parts' : List FilePart} :
    endsLineOf start (parts ++ parts') = endsLineOf (endsLineOf start parts) parts' := by
  induction parts generalizing start with
  | nil => rfl
  | cons part parts ih => cases part <;> exact ih

/-- That `parts` are whole lines. -/
structure IsWhole (parts : List FilePart) : Prop where
  laid : IsLaid true parts
  ends : endsLineOf true parts = true

/-- That `parts` can stand anywhere on a line. -/
def IsInline (parts : List FilePart) : Prop :=
  ∀ start, IsLaid start parts

private theorem endsLine_append_break (start : Bool) (text : String) :
    endsLine start (text ++ "\n") = true := by
  have hlist : (text ++ "\n").toList = text.toList ++ ['\n'] := String.toList_append
  rw [endsLine, hlist, List.getLast?_concat]
  rfl

namespace IsWhole

variable {parts parts' : List FilePart}

theorem nil : IsWhole [] :=
  ⟨trivial, rfl⟩

theorem append (h : IsWhole parts) (h' : IsWhole parts') : IsWhole (parts ++ parts') := by
  refine ⟨isLaid_append.mpr ⟨h.laid, ?_⟩, ?_⟩
  · rw [h.ends]
    exact h'.laid
  · rw [endsLineOf_append, h.ends]
    exact h'.ends

theorem flatMap {α : Type} {f : α → List FilePart} {xs : List α} (h : ∀ x ∈ xs, IsWhole (f x)) :
    IsWhole (xs.flatMap f) := by
  induction xs with
  | nil => exact nil
  | cons x xs ih =>
    obtain ⟨hx, hxs⟩ := List.forall_mem_cons.mp h
    rw [List.flatMap_cons]
    exact hx.append (ih hxs)

theorem code (text : String) : IsWhole [.code (text ++ "\n")] :=
  ⟨trivial, endsLine_append_break true text⟩

theorem comments (cs : List Comment) : IsWhole (cs.map FilePart.comment) := by
  induction cs with
  | nil => exact nil
  | cons c cs ih => exact ⟨⟨rfl, ih.laid⟩, ih.ends⟩

/-- The parts `parts`, which can stand anywhere, are whole lines with the end of a line behind
them. -/
theorem ended (h : IsInline parts) (behind : String) :
    IsWhole (parts ++ [.code (behind ++ "\n")]) := by
  refine ⟨isLaid_append.mpr ⟨h _, trivial⟩, ?_⟩
  rw [endsLineOf_append]
  exact endsLine_append_break _ behind

/-- So they are with the code `before` before them and `behind` behind them. -/
theorem enclosed (h : IsInline parts) (before behind : String) :
    IsWhole (.code before :: (parts ++ [.code (behind ++ "\n")])) := by
  have hbefore : IsInline (.code before :: parts) := fun _ => h _
  exact ended hbefore behind

/-- Whole lines can stand between code that ends a line and other code. -/
theorem isInline (h : IsWhole parts) (before behind : String) :
    IsInline (.code (before ++ "\n") :: (parts ++ [.code behind])) := by
  intro start
  rw [IsLaid, endsLine_append_break]
  exact isLaid_append.mpr ⟨h.laid, trivial⟩

end IsWhole

end KindSchema
