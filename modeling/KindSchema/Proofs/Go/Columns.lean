import Mathlib.Data.List.Forall2
import KindSchema.Proofs.Go.FileParts
import KindSchema.Proofs.Go.Literals
import KindSchema.Proofs.Go.ValidIdentifiers
import KindSchema.Resolved.Resolution

/-!
# Columns in Go files

In a run of members, and in a block of constants, the second and the third column begin at the same
numbers of characters in every line. They begin one blank behind the longest entry before them, as
they should, if no entry of a column has more bytes than the longest one has characters. Else the
column is too wide, since its width is a number of bytes.

* `Entry.StandsAt`: an entry is written with its columns at some numbers of characters.
* `Fits`: no entry has more bytes than the longest entry has characters.
* `forall₂_standsAt`, `isTight_iff`: entries filled up to the same widths are in columns, which are
  tight if and only if the widths are those of the longest entries.
* `columns_tight_iff`: the runs of some rows and the constants of a block are in columns, which are
  tight if and only if the entries fit.
-/

namespace KindSchema

namespace Go

/-! ### Entries -/

/-- An entry of a text in columns: two cells, with what stands before and behind them. -/
structure Entry where
  before : String
  first : String
  second : String
  behind : String

namespace Entry

/-- The entry `e` with its cells filled up to `width` and `width'`. -/
def text (width width' : Nat) (e : Entry) : String :=
  e.before ++ padTo width e.first ++ " " ++ padTo width' e.second ++ " " ++ e.behind

/-- That `text` is the entry `e` with its second cell `column` characters from the first, and with
what is behind `column'` characters from the second. -/
def StandsAt (column column' : Nat) (e : Entry) (text : String) : Prop :=
  ∃ m n, text = e.before ++ e.first ++ repeated m " " ++ e.second ++ repeated n " " ++ e.behind ∧
    e.first.length + m = column ∧ e.second.length + n = column'

end Entry

/-- The number of characters of the longest of `texts`. -/
def longest (texts : List String) : Nat :=
  (texts.map String.length).foldl max 0

/-- That none of `texts` has more bytes than the longest one has characters. -/
def Fits (texts : List String) : Prop :=
  ∀ s ∈ texts, s.utf8ByteSize ≤ longest texts

instance (texts : List String) : Decidable (Fits texts) :=
  inferInstanceAs (Decidable (∀ s ∈ texts, s.utf8ByteSize ≤ longest texts))

/-- That `texts` are `entries` in columns, with at least one blank behind the longest cells. -/
def InColumns (entries : List Entry) (texts : List String) : Prop :=
  ∃ column column', longest (entries.map (·.first)) < column ∧
    longest (entries.map (·.second)) < column' ∧
    List.Forall₂ (Entry.StandsAt column column') entries texts

/-- That `texts` are `entries` in columns which begin one blank behind the longest cells. -/
def IsTight (entries : List Entry) (texts : List String) : Prop :=
  List.Forall₂ (Entry.StandsAt (longest (entries.map (·.first)) + 1)
    (longest (entries.map (·.second)) + 1)) entries texts

/-! ### Lengths -/

private theorem toList_repeated_blank (n : Nat) :
    (repeated n " ").toList = List.replicate n ' ' := by
  rw [repeated, String.toList_join]
  induction n with
  | zero => rfl
  | succ n ih => rw [List.replicate_succ, List.flatMap_cons, ih, List.replicate_succ]; rfl

private theorem length_repeated_blank (n : Nat) : (repeated n " ").length = n := by
  rw [← String.length_toList, toList_repeated_blank, List.length_replicate]

/-- If `s` is filled up with blanks, it has another text behind it. -/
theorem padTo_append_blank (width : Nat) (s : String) :
    padTo width s ++ " " = s ++ repeated (width - s.length + 1) " " := by
  have hblanks : repeated (width - s.length) " " ++ " " = repeated (width - s.length + 1) " " := by
    rw [← String.toList_inj, String.toList_append, toList_repeated_blank, toList_repeated_blank,
      List.replicate_succ']
    rfl
  rw [padTo, String.append_assoc, hblanks]

private theorem foldl_max_le_iff {ns : List Nat} {start n : Nat} :
    ns.foldl max start ≤ n ↔ start ≤ n ∧ ∀ m ∈ ns, m ≤ n := by
  induction ns generalizing start with
  | nil => simp
  | cons m ns ih => rw [List.foldl_cons, ih, max_le_iff, List.forall_mem_cons, and_assoc]

variable {texts : List String} {n : Nat}

private theorem longest_le_iff : longest texts ≤ n ↔ ∀ s ∈ texts, s.length ≤ n := by
  rw [longest, foldl_max_le_iff, and_iff_right (Nat.zero_le n), List.forall_mem_map]

private theorem length_le_longest {s : String} (h : s ∈ texts) : s.length ≤ longest texts :=
  longest_le_iff.mp le_rfl s h

private theorem columnWidth_le_iff : columnWidth texts ≤ n ↔ ∀ s ∈ texts, s.utf8ByteSize ≤ n := by
  rw [columnWidth, foldl_max_le_iff, and_iff_right (Nat.zero_le n), List.forall_mem_map]

private theorem length_le_utf8ByteSize (s : String) : s.length ≤ s.utf8ByteSize := by
  have hlength := length_le_utf8Len s.toList
  rwa [String.length_toList, ← String.utf8ByteSize_ofList, String.ofList_toList] at hlength

/-- A column is at least as wide as its longest entry. -/
private theorem longest_le_columnWidth (texts : List String) : longest texts ≤ columnWidth texts :=
  longest_le_iff.mpr fun s hs =>
    (length_le_utf8ByteSize s).trans (columnWidth_le_iff.mp le_rfl s hs)

/-- A column is as wide as its longest entry if and only if the entries fit. -/
private theorem columnWidth_eq_longest_iff : columnWidth texts = longest texts ↔ Fits texts := by
  rw [Fits, ← columnWidth_le_iff]
  exact ⟨le_of_eq, fun h => le_antisymm h (longest_le_columnWidth texts)⟩

/-- The bytes of an ASCII text are its characters. -/
private theorem utf8ByteSize_of_isAscii {s : String} (h : IsAscii s) :
    s.utf8ByteSize = s.length := by
  have hchars (cs : List Char) (hcs : ∀ c ∈ cs, c.toNat < 0x80) :
      String.utf8Len cs = cs.length := by
    induction cs with
    | nil => rfl
    | cons c cs ih =>
      obtain ⟨hc, hcs⟩ := List.forall_mem_cons.mp hcs
      have hsize : c.utf8Size = 1 := Char.utf8Size_eq_one_iff.mpr (Nat.le_of_lt_succ hc)
      rw [String.utf8Len_cons, hsize, ih hcs, List.length_cons]
  rw [← String.length_toList, ← hchars s.toList h, ← String.utf8ByteSize_ofList,
    String.ofList_toList]

/-- Texts of ASCII characters fit. -/
private theorem Fits.of_isAscii (h : ∀ s ∈ texts, IsAscii s) : Fits texts := fun s hs =>
  (utf8ByteSize_of_isAscii (h s hs)).trans_le (length_le_longest hs)

/-! ### Columns -/

variable {es : List Entry} {width width' : Nat}

/-- Entries filled up to widths that are great enough are in columns. -/
theorem forall₂_standsAt (hfirst : longest (es.map (·.first)) ≤ width)
    (hsecond : longest (es.map (·.second)) ≤ width') :
    List.Forall₂ (Entry.StandsAt (width + 1) (width' + 1)) es
      (es.map (·.text width width')) := by
  rw [List.forall₂_map_right_iff, List.forall₂_same]
  intro e he
  have hlength : e.first.length ≤ width :=
    (length_le_longest (List.mem_map_of_mem he)).trans hfirst
  have hlength' : e.second.length ≤ width' :=
    (length_le_longest (List.mem_map_of_mem he)).trans hsecond
  refine ⟨width - e.first.length + 1, width' - e.second.length + 1, ?_, by omega, by omega⟩
  calc e.text width width'
    _ = e.before ++ (padTo width e.first ++ " ") ++ (padTo width' e.second ++ " ") ++ e.behind := by
      simp only [Entry.text, String.append_assoc]
    _ = _ := by
      rw [padTo_append_blank, padTo_append_blank]
      simp only [String.append_assoc]

/-- The number of characters of an entry in columns. -/
private theorem Entry.StandsAt.length_eq {column column' : Nat} {e : Entry} {text : String}
    (h : e.StandsAt column column' text) :
    text.length = e.before.length + column + column' + e.behind.length := by
  obtain ⟨m, n, rfl, rfl, rfl⟩ := h
  simp only [String.length_append, length_repeated_blank]
  omega

/-- The number of characters of entries in columns. -/
private theorem length_join_of_forall₂ {column column' : Nat} {texts : List String}
    (h : List.Forall₂ (Entry.StandsAt column column') es texts) :
    (String.join texts).length =
      (es.map fun e => e.before.length + column + column' + e.behind.length).foldr (· + ·) 0 := by
  induction h with
  | nil => rfl
  | cons he _ ih =>
    rw [String.join_cons, String.length_append, he.length_eq, ih, List.map_cons, List.foldr_cons]

/-- Entries filled up to widths that are great enough are in tight columns if and only if the widths
are those of the longest cells. -/
theorem isTight_iff (hne : es ≠ []) (hfirst : longest (es.map (·.first)) ≤ width)
    (hsecond : longest (es.map (·.second)) ≤ width') :
    IsTight es (es.map (·.text width width')) ↔
      width = longest (es.map (·.first)) ∧ width' = longest (es.map (·.second)) := by
  have hcolumns := forall₂_standsAt hfirst hsecond
  constructor
  · intro htight
    obtain ⟨e, he⟩ := List.exists_mem_of_ne_nil es hne
    -- The text of one entry has one length.
    have hlength := ((List.forall₂_same.mp (List.forall₂_map_right_iff.mp hcolumns)) e he).length_eq
    have hlength' := ((List.forall₂_same.mp (List.forall₂_map_right_iff.mp htight)) e he).length_eq
    omega
  · rintro ⟨rfl, rfl⟩
    exact hcolumns

/-! ### Rows -/

/-- The row `r` as an entry of its run. -/
def Row.entry (level : Nat) (r : Row) : Entry where
  before := String.join (r.docs.map (commentLine level)) ++ tabs level
  first := r.name
  second := r.type
  behind := r.tag ++ "\n"

private theorem Row.text_eq {level : Nat} {r : Row} (h : r.isMultiline = false) :
    r.text level width width' = (r.entry level).text width width' := by
  rw [Row.text, h, if_neg Bool.false_ne_true]
  simp only [Entry.text, Row.entry, String.append_assoc]

/-- How a run of rows is written at `level`: a row whose type takes several lines alone, rows that
take one line in columns, which are tight if and only if the names and the types fit. -/
inductive RunIsWritten (level : Nat) : List Row → List String → Prop
  | multiline {r : Row} (h : r.isMultiline = true) :
    RunIsWritten level [r] [String.join (r.docs.map (commentLine level)) ++ tabs level ++
      (r.name ++ " " ++ r.type ++ " " ++ r.tag ++ "\n")]
  | columns {run : List Row} {texts : List String} (hsingle : ∀ r ∈ run, r.isMultiline = false)
    (hdocs : ∀ r ∈ run.tail, r.docs = []) (hcolumns : InColumns (run.map (·.entry level)) texts)
    (htight : IsTight (run.map (·.entry level)) texts ↔
      Fits (run.map (·.name)) ∧ Fits (run.map (·.type))) :
    RunIsWritten level run texts

private theorem Row.continues_iff {previous r : Row} : previous.continues r = true ↔
    r.docs = [] ∧ r.isMultiline = false ∧ previous.isMultiline = false := by
  simp [Row.continues, and_assoc]

private theorem forall_mem_of_isChain_continues {r : Row} {run : List Row}
    (h : (r :: run).IsChain fun a b => Row.continues a b = true) :
    ∀ r' ∈ run, r'.docs = [] ∧ r'.isMultiline = false := by
  induction run generalizing r with
  | nil => exact fun _ hr' => absurd hr' List.not_mem_nil
  | cons r' run ih =>
    obtain ⟨hr', hrun⟩ := List.isChain_cons_cons.mp h
    obtain ⟨hdocs, hsingle, -⟩ := Row.continues_iff.mp hr'
    exact List.forall_mem_cons.mpr ⟨⟨hdocs, hsingle⟩, ih hrun⟩

/-- A run `run` is a row whose type takes several lines, or rows that take one line, of which only
the first may have documentation. -/
theorem run_cases {run : List Row} (hne : run ≠ [])
    (hchain : run.IsChain fun a b => Row.continues a b = true) :
    (∃ r, run = [r] ∧ r.isMultiline = true) ∨
      (∀ r ∈ run, r.isMultiline = false) ∧ ∀ r ∈ run.tail, r.docs = [] := by
  obtain ⟨r, run, rfl⟩ := List.exists_cons_of_ne_nil hne
  have htail := forall_mem_of_isChain_continues hchain
  have hdocs : ∀ r' ∈ run, r'.docs = [] := fun r' hr' => (htail r' hr').1
  have hsingle : ∀ r' ∈ run, r'.isMultiline = false := fun r' hr' => (htail r' hr').2
  cases hr : r.isMultiline with
  | false => exact .inr ⟨List.forall_mem_cons.mpr ⟨hr, hsingle⟩, hdocs⟩
  | true =>
    -- A row of several lines continues no run, so it stands alone.
    refine .inl ⟨r, ?_, hr⟩
    cases run with
    | nil => rfl
    | cons r' run =>
      obtain ⟨-, -, hnot⟩ := Row.continues_iff.mp (List.isChain_cons_cons.mp hchain).1
      rw [hr] at hnot
      contradiction

/-- The text of a run is that of its rows as they should be written. -/
private theorem runIsWritten (level : Nat) {run : List Row} (hne : run ≠ [])
    (hchain : run.IsChain fun a b => Row.continues a b = true) :
    ∃ texts, runText level run = String.join texts ∧ RunIsWritten level run texts := by
  refine ⟨_, rfl, ?_⟩
  obtain ⟨r, rfl, hmultiline⟩ | ⟨hsingle, hdocs⟩ := run_cases hne hchain
  · rw [List.map_singleton, Row.text, hmultiline, if_pos rfl]
    exact .multiline hmultiline
  · have hentries : run.map (·.text level (columnWidth (run.map (·.name)))
        (columnWidth (run.map (·.type)))) = (run.map (·.entry level)).map
          (·.text (columnWidth (run.map (·.name))) (columnWidth (run.map (·.type)))) := by
      rw [List.map_map]
      exact List.map_congr_left fun r hr => Row.text_eq (hsingle r hr)
    have hnames : (run.map (·.entry level)).map (·.first) = run.map (·.name) := List.map_map
    have htypes : (run.map (·.entry level)).map (·.second) = run.map (·.type) := List.map_map
    have hfirst : longest ((run.map (·.entry level)).map (·.first)) ≤
        columnWidth (run.map (·.name)) := hnames ▸ longest_le_columnWidth _
    have hsecond : longest ((run.map (·.entry level)).map (·.second)) ≤
        columnWidth (run.map (·.type)) := htypes ▸ longest_le_columnWidth _
    rw [hentries]
    refine .columns hsingle hdocs ⟨_, _, Nat.lt_succ_of_le hfirst, Nat.lt_succ_of_le hsecond,
      forall₂_standsAt hfirst hsecond⟩ ?_
    rw [isTight_iff (mt List.map_eq_nil_iff.mp hne) hfirst hsecond, hnames, htypes,
      columnWidth_eq_longest_iff, columnWidth_eq_longest_iff]

private theorem exists_furtherRunsText (level : Nat) {runs : List (List Row)} (hne : [] ∉ runs)
    (hchains : ∀ run ∈ runs, run.IsChain fun a b => Row.continues a b = true) :
    ∃ written : List (String × List String),
      furtherRunsText level runs =
        String.join (written.map fun (blank, texts) => blank ++ String.join texts) ∧
      List.Forall₂ (fun run (blank, texts) => (blank = "" ∨ blank = "\n") ∧
        RunIsWritten level run texts) runs written := by
  induction runs with
  | nil => exact ⟨[], rfl, .nil⟩
  | cons run runs ih =>
    obtain ⟨hrun, hruns⟩ := List.forall_mem_cons.mp hchains
    rw [List.mem_cons, not_or] at hne
    obtain ⟨written, htext, hwritten⟩ := ih hne.2 hruns
    obtain ⟨texts, htexts, hiswritten⟩ := runIsWritten level (Ne.symm hne.1) hrun
    refine ⟨(if opensWithDocs run then "\n" else "", texts) :: written, ?_, .cons ⟨?_, hiswritten⟩
      hwritten⟩
    · rw [furtherRunsText, htext, htexts, List.map_cons, String.join_cons]
    · split
      · exact .inr rfl
      · exact .inl rfl

/-- The text of some rows is that of their runs, each written as it should be, perhaps behind a
blank line. -/
private theorem exists_rowsText (level : Nat) (rows : List Row) :
    ∃ written : List (String × List String),
      rowsText level rows =
        String.join (written.map fun (blank, texts) => blank ++ String.join texts) ∧
      List.Forall₂ (fun run (blank, texts) => (blank = "" ∨ blank = "\n") ∧
        RunIsWritten level run texts) (rows.splitBy Row.continues) written := by
  have hne := List.nil_notMem_splitBy Row.continues rows
  have hchains (run : List Row) (h : run ∈ rows.splitBy Row.continues) :
      run.IsChain fun a b => Row.continues a b = true := List.isChain_of_mem_splitBy h
  rw [rowsText]
  -- Only that the runs are nonempty chains is used from here on.
  generalize rows.splitBy Row.continues = runs at hne hchains ⊢
  cases runs with
  | nil => exact ⟨[], rfl, .nil⟩
  | cons run runs =>
    obtain ⟨hrun, hruns⟩ := List.forall_mem_cons.mp hchains
    rw [List.mem_cons, not_or] at hne
    obtain ⟨texts, htexts, hiswritten⟩ := runIsWritten level (Ne.symm hne.1) hrun
    obtain ⟨written, htext, hwritten⟩ := exists_furtherRunsText level hne.2 hruns
    refine ⟨("", texts) :: written, ?_, .cons ⟨.inl rfl, hiswritten⟩ hwritten⟩
    simp only [htext, htexts, List.map_cons, String.join_cons, String.empty_append]

/-! ### Constants -/

/-- The constant `constant` as an entry of its block `b`. -/
def ConstantBlock.entry (b : ConstantBlock) (constant : String × String) : Entry where
  before := "\t"
  first := constant.1
  second := b.type
  behind := "= " ++ stringLiteral constant.2 ++ "\n"

/-- The constants of `b` as entries. -/
def ConstantBlock.entries (b : ConstantBlock) : List Entry :=
  b.constants.map b.entry

private theorem blockText_eq (b : ConstantBlock) : blockText b =
    "// Defines values for " ++ b.type ++ ".\nconst (\n" ++ String.join (b.entries.map
      (·.text (columnWidth (b.constants.map (·.1))) b.type.length)) ++ ")\n" := by
  have htype : padTo b.type.length b.type = b.type := by
    rw [padTo, Nat.sub_self]
    exact String.append_empty
  have hequals : " = " = " " ++ "= " := by decide
  have hline (width : Nat) (constant : String × String) :
      "\t" ++ padTo width constant.1 ++ " " ++ b.type ++ " = " ++ stringLiteral constant.2 ++ "\n" =
        (b.entry constant).text width b.type.length := by
    rw [Entry.text, ConstantBlock.entry, htype, hequals]
    simp only [String.append_assoc]
  unfold blockText ConstantBlock.entries
  simp only [List.map_map, Function.comp_def, hline]

/-- The text of a block has a line for each constant. The constants are in columns, which are tight
if and only if the names fit. -/
private theorem exists_blockText (b : ConstantBlock) : ∃ texts : List String,
    blockText b =
      "// Defines values for " ++ b.type ++ ".\nconst (\n" ++ String.join texts ++ ")\n" ∧
    InColumns b.entries texts ∧ (IsTight b.entries texts ↔ Fits (b.constants.map (·.1))) := by
  have hnames : b.entries.map (·.first) = b.constants.map (·.1) := List.map_map
  have hfirst : longest (b.entries.map (·.first)) ≤ columnWidth (b.constants.map (·.1)) :=
    hnames ▸ longest_le_columnWidth _
  have htypes : b.entries.map (·.second) = b.constants.map fun _ => b.type := List.map_map
  have hsecond : longest (b.entries.map (·.second)) ≤ b.type.length := by
    rw [htypes, longest_le_iff, List.forall_mem_map]
    exact fun _ _ => le_rfl
  refine ⟨_, blockText_eq b, ⟨_, _, Nat.lt_succ_of_le hfirst, Nat.lt_succ_of_le hsecond,
    forall₂_standsAt hfirst hsecond⟩, ?_⟩
  -- In all but an empty block the type stands in each row and fills its column.
  by_cases hempty : b.constants = []
  · rw [ConstantBlock.entries, hempty]
    exact iff_of_true .nil fun _ hs => absurd hs List.not_mem_nil
  · obtain ⟨constant, hconstant⟩ := List.exists_mem_of_ne_nil _ hempty
    have hmem : b.type ∈ b.entries.map (·.second) :=
      htypes ▸ List.mem_map_of_mem (f := fun _ => b.type) hconstant
    have hwidth : b.type.length = longest (b.entries.map (·.second)) :=
      le_antisymm (length_le_longest hmem) hsecond
    have hne : b.entries ≠ [] := mt List.map_eq_nil_iff.mp hempty
    rw [isTight_iff hne hfirst hsecond, and_iff_left hwidth, hnames, columnWidth_eq_longest_iff]

/-- The text of `rows` is that of their runs, and the text of `b` has a line for each constant. The
rows of a run, unless their types take several lines, and the constants are in columns, which are
tight if and only if the entries fit, as texts of ASCII characters do. -/
theorem columns_tight_iff (level : Nat) (rows : List Row) (b : ConstantBlock) :
    (∃ written : List (String × List String),
      rowsText level rows =
        String.join (written.map fun (blank, texts) => blank ++ String.join texts) ∧
      List.Forall₂ (fun run (blank, texts) => (blank = "" ∨ blank = "\n") ∧
        RunIsWritten level run texts) (rows.splitBy Row.continues) written) ∧
    (∃ texts : List String,
      blockText b =
        "// Defines values for " ++ b.type ++ ".\nconst (\n" ++ String.join texts ++ ")\n" ∧
      InColumns b.entries texts ∧ (IsTight b.entries texts ↔ Fits (b.constants.map (·.1)))) ∧
    ∀ texts : List String, (∀ s ∈ texts, IsAscii s) → Fits texts :=
  ⟨exists_rowsText level rows, exists_blockText b, fun _ => Fits.of_isAscii⟩

end Go

namespace Sample

open Go

/-- A kind with a field whose name has characters of more than one byte. -/
def rug : Kind where
  name := "Rug"
  metadata := { type := .struct { fields := [] } }
  spec := { fields := [
    { name := "größe", type := .scalar .string },
    { name := "farbe", type := .scalar .int64 }] }
  status := { fields := [] }

/-- The kind, resolved. -/
def rugResolved : ResolvedKind where
  name := "Rug"
  machineName := "rug"
  description := []
  metadata := { name := "metadata", type := .struct [] }
  spec := { name := "spec", type := .struct [
    { name := "größe", type := .scalar .string },
    { name := "farbe", type := .scalar .int64 }] }
  status := { name := "status", type := .struct [] }
  declarations := []

private theorem resolve_rug : rug.resolve .nominal = .ok rugResolved := by
  with_unfolding_all rfl

/-- The members for the fields. -/
def rugMembers : List (Member GoType) :=
  [⟨[], "größe", "Größe", .scalar .string, false⟩, ⟨[], "farbe", "Farbe", .scalar .int64, false⟩]

/-- The Go file of the kind. -/
def rugFile : File where
  package := "rug"
  usesTime := false
  blocks := []
  types := [
    { name := "Rug", docs := [], underlying := .struct [
      ⟨[], "metadata", "Metadata", .struct [], false⟩,
      ⟨[], "spec", "Spec", .struct rugMembers, false⟩,
      ⟨[], "status", "Status", .struct [], false⟩] }]

private theorem typesFile_rug : typesFile {} rugResolved = .ok rugFile := by
  with_unfolding_all rfl

/-- The rows of the members, which are one run. -/
def rugRows : List Row :=
  rowsOf 2 rugMembers

/-- One of the names has two bytes more than characters, so the types stand two blanks too far to
the right. -/
theorem loose_columns_rug : rug.resolve .nominal = .ok rugResolved ∧
    typesFile {} rugResolved = .ok rugFile ∧
    (∃ before behind, fileText rugFile = before ++ rowsText 2 rugRows ++ behind) ∧
    rugRows.splitBy Row.continues = [rugRows] ∧
    rowsText 2 rugRows =
      "\t\tGröße   string `json:\"größe\"`\n\t\tFarbe   int64  `json:\"farbe\"`\n" ∧
    ∀ texts, rowsText 2 rugRows = String.join texts →
      ¬ IsTight (rugRows.map (·.entry 2)) texts := by
  have hfile : fileText rugFile =
      "package rug\n\n// Rug defines model for Rug.\ntype Rug struct \x7b\n" ++
        "\tMetadata struct\x7b\x7d `json:\"metadata\"`\n\tSpec struct \x7b\n" ++
        rowsText 2 rugRows ++
        "\t\x7d `json:\"spec\"`\n\tStatus struct\x7b\x7d `json:\"status\"`\n\x7d\n" := by
    decide +kernel
  refine ⟨resolve_rug, typesFile_rug, ⟨_, _, hfile⟩, rfl, by decide +kernel, ?_⟩
  intro texts htexts htight
  have hlength := length_join_of_forall₂ htight
  rw [← htexts] at hlength
  exact absurd hlength (by decide +kernel)

end Sample

end KindSchema
