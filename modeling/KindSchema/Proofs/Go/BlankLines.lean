import Mathlib.Data.List.Forall2
import KindSchema.Proofs.Go.Columns
import KindSchema.Proofs.Go.Comments
import KindSchema.Proofs.Go.ShapeTypes

/-!
# Blank lines between the members of a Go struct

The members of a struct are written in runs, and where a run begins with documentation a blank line
stands before it. That is so although the blank lines are put between runs and not between members:
a member with documentation always begins a run.

* `isRowOf_rowsOf`: the rows of some members are those of their fields, one for each and in order.
* `isAlignmentRun_of_mem_splitBy`: only the first row of a run has documentation, and a row of
  several lines stands alone.
* `exists_rowsText_eq`: the text of some rows is that of each row behind its lead, which is a blank
  line exactly before the rows with documentation, but not before the first row.
* `membersOf_isLaidOut`: so the fields of a struct are all written once and in order. As the text of
  a row begins and ends with lines that are not blank, no other line between two of them is blank.
-/

namespace KindSchema.Go

/-! ### Rows of fields -/

/-- That `r` is written for the field `f` at `level`. -/
structure IsRowOf (level : Nat) (f : Field Shape) (r : Row) : Prop where
  docs : r.docs = f.docs
  name : Naming.identifier? f.name = some r.name
  type : ∃ type, IsTypeOf f.type type ∧
    r.type = typeText level (if f.optional && needsPointer f.type then .pointer type else type)
  tag : r.tag = tagText f.name f.optional

/-- The rows of `members` are those of `fields`, which they are written for. -/
theorem isRowOf_rowsOf {level : Nat} {fields : List (Field Shape)} {members : List (Member GoType)}
    (h : AreMembersOf fields members) :
    List.Forall₂ (IsRowOf level) fields (rowsOf level members) := by
  induction fields generalizing members with
  | nil =>
    cases h
    exact .nil
  | cons f fields ih =>
    cases h with
    | cons hname htype hmembers => exact .cons ⟨rfl, hname, ⟨_, htype, rfl⟩, rfl⟩ (ih hmembers)

/-- That `text` is that of the row `r` at `level`: its documentation, and then on a new line the
name, the type and the tag with blanks between them. -/
def Row.IsWrittenAs (level : Nat) (r : Row) (text : String) : Prop :=
  ∃ m n, text = String.join (r.docs.map (commentLine level)) ++
    (tabs level ++ r.name ++ repeated (m + 1) " " ++ r.type ++ repeated (n + 1) " " ++ r.tag ++
      "\n")

/-- In columns of any widths a row is written as it should be. -/
private theorem Row.isWrittenAs_text (level nameWidth typeWidth : Nat) (r : Row) :
    r.IsWrittenAs level (r.text level nameWidth typeWidth) := by
  unfold Row.text
  split
  · exact ⟨0, 0, by simp only [String.append_assoc]; rfl⟩
  · refine ⟨nameWidth - r.name.length, typeWidth - r.type.length, ?_⟩
    calc _ = String.join (r.docs.map (commentLine level)) ++ tabs level ++
        ((padTo nameWidth r.name ++ " ") ++ (padTo typeWidth r.type ++ " ") ++ r.tag ++ "\n") := by
          simp only [String.append_assoc]
      _ = _ := by
          rw [padTo_append_blank, padTo_append_blank]
          simp only [String.append_assoc]

/-! ### Lines that are not blank -/

/-- That `s` is not empty, and has neither blanks nor line breaks. -/
def IsWord (s : String) : Prop :=
  s ≠ "" ∧ ∀ c ∈ s.toList, c ≠ '\n' ∧ c ≠ '\t' ∧ c ≠ ' '

instance (s : String) : Decidable (IsWord s) :=
  @instDecidableAnd _ _ _ (List.decidableBAll _ _)

/-- That `text` begins at `level` with a line that is not blank. -/
def OpensLine (level : Nat) (text : String) : Prop :=
  ∃ word rest, text = tabs level ++ word ++ rest ∧ IsWord word

/-- That `text` ends with the end of a line that is not blank. -/
def ClosesLine (text : String) : Prop :=
  ∃ rest word, text = rest ++ word ++ "\n" ∧ IsWord word

private theorem OpensLine.append {level : Nat} {text : String} (h : OpensLine level text)
    (behind : String) : OpensLine level (text ++ behind) := by
  obtain ⟨word, rest, rfl, hword⟩ := h
  exact ⟨word, rest ++ behind, String.append_assoc, hword⟩

/-- An identifier begins with a word. -/
private theorem opensLine_of_identifier? {text name : String}
    (h : Naming.identifier? text = some name) (level : Nat) :
    OpensLine level (tabs level ++ name) := by
  unfold Naming.identifier? at h
  dsimp only at h
  split at h
  · cases h
  · next c cs hchars =>
    split at h
    · next halphabetic =>
      cases h
      -- A first character that is alphabetic is none of those that leave a line blank.
      refine ⟨String.ofList [c], String.ofList cs, ?_, ?_, ?_⟩
      · rw [hchars, String.append_assoc, ← String.ofList_append]
        rfl
      · exact fun hempty => absurd (congrArg String.toList hempty) (by simp)
      · rw [String.toList_ofList, List.forall_mem_singleton]
        refine ⟨?_, ?_, ?_⟩ <;> (rintro rfl; exact absurd halphabetic (by decide))
    · cases h

/-- A line of documentation is not blank. -/
private theorem opensLine_commentLine (level : Nat) (line : String) :
    OpensLine level (commentLine level line) := by
  unfold commentLine
  split
  · exact ⟨"//", "\n", by rw [String.append_assoc]; rfl, by decide⟩
  · exact ⟨"//", " " ++ line ++ "\n", by simp only [String.append_assoc]; rfl, by decide⟩

/-- The tag of a member ends with a word. -/
private theorem closesLine_tagText (before key : String) (omitEmpty : Bool) :
    ClosesLine (before ++ tagText key omitEmpty ++ "\n") := by
  refine ⟨before ++ ("`json:\"" ++ key ++ if omitEmpty then ",omitempty" else ""), "\"`", ?_,
    by decide⟩
  simp only [tagText, String.append_assoc]

section Rows

variable {level : Nat} {f : Field Shape} {r : Row} {text : String}

/-- The text of a row begins with a line that is not blank, if its name is an identifier. -/
private theorem Row.IsWrittenAs.opensLine (h : r.IsWrittenAs level text)
    (hrow : IsRowOf level f r) :
    OpensLine level text := by
  obtain ⟨m, n, rfl⟩ := h
  cases hdocs : r.docs with
  | nil =>
    rw [List.map_nil, String.join_nil, String.empty_append]
    have hname := opensLine_of_identifier? hrow.name level
    exact ((((hname.append _).append _).append _).append _).append _
  | cons line docs =>
    rw [List.map_cons, String.join_cons, String.append_assoc]
    exact (opensLine_commentLine level line).append _

/-- The text of a row ends with the end of a line that is not blank. -/
private theorem Row.IsWrittenAs.closesLine (h : r.IsWrittenAs level text)
    (hrow : IsRowOf level f r) :
    ClosesLine text := by
  obtain ⟨m, n, rfl⟩ := h
  rw [hrow.tag, ← String.append_assoc, ← String.append_assoc]
  exact closesLine_tagText _ _ _

/-- The rows of fields begin and end with lines that are not blank. -/
private theorem opensLine_and_closesLine {fields : List (Field Shape)} {rows : List Row}
    {texts : List String} (hrows : List.Forall₂ (IsRowOf level) fields rows)
    (hwritten : List.Forall₂ (Row.IsWrittenAs level) rows texts) :
    ∀ t ∈ texts, OpensLine level t ∧ ClosesLine t := by
  induction hrows generalizing texts with
  | nil =>
    cases hwritten
    exact fun t ht => absurd ht List.not_mem_nil
  | cons hrow _ ih =>
    cases hwritten with
    | cons h hrest =>
      exact List.forall_mem_cons.mpr ⟨⟨h.opensLine hrow, h.closesLine hrow⟩, ih hrest⟩

end Rows

/-! ### Runs -/

/-- That the rows of `run` may be aligned with each other: only the first may have documentation,
and one that takes several lines is alone. -/
structure IsAlignmentRun (run : List Row) : Prop where
  ne_nil : run ≠ []
  docs : ∀ r ∈ run.tail, r.docs = []
  alone : ∀ r ∈ run, r.isMultiline = true → run = [r]

/-- Rows are aligned in runs. -/
theorem isAlignmentRun_of_mem_splitBy {rows run : List Row}
    (h : run ∈ rows.splitBy Row.continues) : IsAlignmentRun run := by
  have hne : run ≠ [] := fun hnil => List.nil_notMem_splitBy Row.continues rows (hnil ▸ h)
  refine ⟨hne, ?_, ?_⟩
  all_goals obtain ⟨r, rfl, -⟩ | ⟨hsingle, hdocs⟩ := run_cases hne (List.isChain_of_mem_splitBy h)
  · exact fun r' hr' => absurd hr' List.not_mem_nil
  · exact hdocs
  · exact fun r' hr' _ => by rw [List.mem_singleton.mp hr']
  · intro r hr hmultiline
    rw [hsingle r hr] at hmultiline
    cases hmultiline

/-! ### Blank lines -/

/-- What stands before `r` if it is not the first row: a blank line if it has documentation. -/
def lead (r : Row) : String :=
  if r.docs = [] then "" else "\n"

/-- What stands before each of some rows. -/
def leads : List Row → List String
  | [] => []
  | _ :: rows => "" :: rows.map lead

/-- The texts of the rows of `run` at `level`, aligned. -/
def runTexts (level : Nat) (run : List Row) : List String :=
  run.map (·.text level (columnWidth (run.map (·.name))) (columnWidth (run.map (·.type))))

/-- The texts of `texts`, each with its one of `leads` before it. -/
def behind (leads texts : List String) : String :=
  String.join (List.zipWith (· ++ ·) leads texts)

variable {level : Nat} {run : List Row} {runs : List (List Row)}

private theorem length_runTexts : (runTexts level run).length = run.length :=
  List.length_map _

private theorem behind_append {leads leads' texts texts' : List String}
    (h : leads.length = texts.length) :
    behind (leads ++ leads') (texts ++ texts') = behind leads texts ++ behind leads' texts' := by
  rw [behind, List.zipWith_append h, String.join_append]
  rfl

/-- Nothing stands before rows without documentation. -/
private theorem behind_lead_of_forall {rows : List Row} (h : ∀ r ∈ rows, r.docs = [])
    (g : Row → String) :
    behind (rows.map lead) (rows.map g) = String.join (rows.map g) := by
  rw [behind, List.zipWith_map, List.zipWith_self]
  refine congrArg String.join (List.map_congr_left fun r hr => ?_)
  rw [lead, if_pos (h r hr), String.empty_append]

/-- In a run, only the first row may have something before it. -/
private theorem behind_runTexts {r : Row} (h : ∀ r' ∈ run, r'.docs = []) (first : String) :
    behind (first :: run.map lead) (runTexts level (r :: run)) =
      first ++ runText level (r :: run) := by
  have hrest := behind_lead_of_forall h
    (·.text level (columnWidth ((r :: run).map (·.name))) (columnWidth ((r :: run).map (·.type))))
  calc _ = first ++ r.text level _ _ ++ behind (run.map lead) (run.map _) := String.join_cons
    _ = _ := by
      rw [hrest, String.append_assoc, ← String.join_cons]
      rfl

/-- The runs after the first are the rows behind their leads. -/
private theorem furtherRunsText_eq (h : ∀ run ∈ runs, IsAlignmentRun run) :
    furtherRunsText level runs =
      behind (runs.flatten.map lead) (runs.flatMap (runTexts level)) := by
  induction runs with
  | nil => rfl
  | cons run runs ih =>
    obtain ⟨hrun, hruns⟩ := List.forall_mem_cons.mp h
    obtain ⟨r, rest, rfl⟩ := List.exists_cons_of_ne_nil hrun.ne_nil
    have hlead : (if opensWithDocs (r :: rest) then "\n" else "") = lead r := by
      cases hdocs : r.docs with
      | nil => simp [opensWithDocs, lead, hdocs]
      | cons line docs => simp [opensWithDocs, lead, hdocs]
    -- The later rows of a run have no documentation, so no blank line stands inside it.
    have hdocs : ∀ r' ∈ rest, r'.docs = [] := hrun.docs
    rw [furtherRunsText, ih hruns, hlead, ← behind_runTexts hdocs, List.flatten_cons,
      List.map_append, List.flatMap_cons, behind_append, List.map_cons]
    rw [length_runTexts, List.length_map]

/-- Each row of some runs is written as it should be. -/
private theorem forall₂_isWrittenAs (level : Nat) (runs : List (List Row)) :
    List.Forall₂ (Row.IsWrittenAs level) runs.flatten (runs.flatMap (runTexts level)) := by
  induction runs with
  | nil => exact .nil
  | cons run runs ih =>
    rw [List.flatten_cons, List.flatMap_cons]
    refine List.rel_append ?_ ih
    rw [runTexts, List.forall₂_map_right_iff, List.forall₂_same]
    exact fun r _ => r.isWrittenAs_text level _ _

/-- The text of `rows` is that of each row behind its lead. -/
theorem exists_rowsText_eq (level : Nat) (rows : List Row) :
    ∃ texts, List.Forall₂ (Row.IsWrittenAs level) rows texts ∧
      rowsText level rows = behind (leads rows) texts := by
  have hflatten := List.flatten_splitBy Row.continues rows
  have hruns (run : List Row) (h : run ∈ rows.splitBy Row.continues) : IsAlignmentRun run :=
    isAlignmentRun_of_mem_splitBy h
  refine ⟨(rows.splitBy Row.continues).flatMap (runTexts level), ?_, ?_⟩
  · have hwritten := forall₂_isWrittenAs level (rows.splitBy Row.continues)
    rwa [hflatten] at hwritten
  · rw [rowsText]
    -- Of the runs only this is needed: each of them is aligned, and together they are the rows.
    generalize rows.splitBy Row.continues = runs at hflatten hruns ⊢
    subst hflatten
    cases runs with
    | nil => rfl
    | cons run runs =>
      obtain ⟨hrun, hfurther⟩ := List.forall_mem_cons.mp hruns
      obtain ⟨r, rest, rfl⟩ := List.exists_cons_of_ne_nil hrun.ne_nil
      have hdocs : ∀ r' ∈ rest, r'.docs = [] := hrun.docs
      have hleads : leads (r :: rest ++ runs.flatten) =
          "" :: rest.map lead ++ runs.flatten.map lead := by
        rw [List.cons_append, leads, List.map_append, List.cons_append]
      rw [List.flatten_cons, hleads, List.flatMap_cons, behind_append, behind_runTexts hdocs,
        String.empty_append, ← furtherRunsText_eq hfurther]
      rw [length_runTexts, List.length_cons, List.length_cons, List.length_map]

/-! ### Structs -/

/-- That `text` is that of `fields`, the fields of a struct at `level`, by way of `rows`. -/
structure IsLaidOut (level : Nat) (fields : List (Field Shape)) (rows : List Row)
    (text : String) : Prop where
  /-- Every field has a row, and the rows are in order. -/
  fields : List.Forall₂ (IsRowOf level) fields rows
  /-- The runs have all rows, in order. -/
  flatten : (rows.splitBy Row.continues).flatten = rows
  runs : ∀ run ∈ rows.splitBy Row.continues, IsAlignmentRun run
  /-- Every row is written, behind a blank line if it has documentation and is not the first. No
  other line at which one row ends or the next one begins is blank. -/
  written : ∃ texts, List.Forall₂ (Row.IsWrittenAs level) rows texts ∧
    (∀ t ∈ texts, OpensLine level t ∧ ClosesLine t) ∧
    text = String.join (List.zipWith (· ++ ·) (leads rows) texts)

/-- If `fields`, those of a struct, have members, the text of these has every field once and in
order, in runs that lose and reorder nothing, and has a blank line between two fields if and only if
the second one has documentation. -/
theorem membersOf_isLaidOut {path : String} {fields : List (Field Shape)}
    {members : List (Member GoType)} (h : membersOf path [] fields = .ok members) (level : Nat) :
    IsLaidOut level fields (rowsOf level members) (rowsText level (rowsOf level members)) := by
  have hrows : List.Forall₂ (IsRowOf level) fields (rowsOf level members) :=
    isRowOf_rowsOf (areMembersOf_of_membersOf h)
  obtain ⟨texts, hwritten, htext⟩ := exists_rowsText_eq level (rowsOf level members)
  exact ⟨hrows, List.flatten_splitBy _ _, fun run => isAlignmentRun_of_mem_splitBy, texts, hwritten,
    opensLine_and_closesLine hrows hwritten, htext⟩

end KindSchema.Go

/-! ### A struct with documented members -/

namespace KindSchema.Sample

/-- Fields with and without documentation, one of them with a type of several lines. -/
def drawerFields : List (Field Shape) := [
  { name := "label", type := .scalar .string, docs := ["What is in it."] },
  { name := "depth", type := .scalar .int64 },
  { name := "lock", type := .struct [{ name := "key", type := .scalar .string }] },
  { name := "wood", type := .scalar .string },
  { name := "owner", type := .scalar .string, optional := true, docs := ["Who may open it.", ""] },
  { name := "open", type := .scalar .boolean }]

/-- Their members. -/
def drawerMembers : List (Go.Member Go.GoType) := [
  ⟨["What is in it."], "label", "Label", .scalar .string, false⟩,
  ⟨[], "depth", "Depth", .scalar .int64, false⟩,
  ⟨[], "lock", "Lock", .struct [⟨[], "key", "Key", .scalar .string, false⟩], false⟩,
  ⟨[], "wood", "Wood", .scalar .string, false⟩,
  ⟨["Who may open it.", ""], "owner", "Owner", .pointer (.scalar .string), true⟩,
  ⟨[], "open", "Open", .scalar .boolean, false⟩]

/-- Only the second of the two members with documentation has a blank line before it. -/
theorem isLaidOut_drawer : Go.membersOf "Drawer" [] drawerFields = .ok drawerMembers ∧
    Go.IsLaidOut 1 drawerFields (Go.rowsOf 1 drawerMembers)
      (Go.rowsText 1 (Go.rowsOf 1 drawerMembers)) ∧
    Go.rowsText 1 (Go.rowsOf 1 drawerMembers) =
      "\t// What is in it.\n\tLabel string `json:\"label\"`\n\tDepth int64  `json:\"depth\"`\n" ++
      "\tLock struct \x7b\n\t\tKey string `json:\"key\"`\n\t\x7d `json:\"lock\"`\n" ++
      "\tWood string `json:\"wood\"`\n\n\t// Who may open it.\n\t//\n" ++
      "\tOwner *string `json:\"owner,omitempty\"`\n\tOpen  bool    `json:\"open\"`\n" := by
  have hmembers : Go.membersOf "Drawer" [] drawerFields = .ok drawerMembers := by
    with_unfolding_all rfl
  exact ⟨hmembers, Go.membersOf_isLaidOut hmembers 1, by decide +kernel⟩

end KindSchema.Sample
