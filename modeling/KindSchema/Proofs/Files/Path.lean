import KindSchema.Files.FileTree

/-!
# Joined paths and the locations of paths

`Path.location` resolves a path by its text alone: names are entered, and `..` goes back to the
directory above, whatever is on the disk.

* `Path.components_join`, `Path.location_join`: a relative path that is joined to another adds its
  components, and is resolved from the location of the other.
* `Path.EntryName`: the texts that are one entry of a directory.
* `Path.Climbs`: the relative paths that lead, on their way, above the place where they start. Such
  a path forgets the directory it starts from (`Path.location_of_climbs`), and any other keeps it
  (`Path.exists_location_of_not_climbs`).
-/

namespace KindSchema

namespace Path

variable {p q : Path} {name : String}

theorem same_comm (p q : Path) : p.same q = q.same p :=
  BEq.comm

/-! ### Names of entries -/

/-- That `name` is the name of an entry of a directory, and as a path one component. -/
structure EntryName (name : String) : Prop where
  ne_empty : name ≠ ""
  ne_current : name ≠ "."
  ne_parent : name ≠ ".."
  slashless : '/' ∉ name.toList

namespace EntryName

private theorem parts (h : EntryName name) : (⟨name⟩ : Path).parts = [name] := by
  rw [Path.parts, pieces_of_not_mem h.slashless, List.map_singleton, String.ofList_toList]

private theorem isAbsolute (h : EntryName name) : (⟨name⟩ : Path).isAbsolute = false := by
  rw [Path.isAbsolute, beq_eq_false_iff_ne]
  exact fun hhead => h.slashless (List.mem_of_mem_head? hhead)

private theorem componentOf? (h : EntryName name) :
    Path.componentOf? name = some (.entry name) := by
  rw [Path.componentOf?, if_neg (not_or.mpr ⟨h.ne_empty, h.ne_current⟩), if_neg h.ne_parent]

theorem components (h : EntryName name) : (⟨name⟩ : Path).components = [.entry name] := by
  rw [Path.components, h.parts, h.isAbsolute]
  simp [h.ne_current, h.componentOf?]

/-- The characters of `name` tell that it is the name of an entry: it has no slash and does not
start with a dot. -/
theorem of_toList {c : Char} {cs : List Char} (h : name.toList = c :: cs) (hdot : c ≠ '.')
    (hslash : '/' ∉ c :: cs) : EntryName name where
  ne_empty := by rintro rfl; simp at h
  ne_current := by rintro rfl; exact hdot (List.cons.inj h).1.symm
  ne_parent := by rintro rfl; exact hdot (List.cons.inj h).1.symm
  slashless := h ▸ hslash

end EntryName

/-! ### Parts -/

theorem parts_ne_nil (p : Path) : p.parts ≠ [] := by
  rw [parts, Ne, List.map_eq_nil_iff]
  exact pieces_ne_nil _ _

/-- The parts of a joined path are those of the two paths. A slash at the end of the first makes an
empty part that is lost. -/
private theorem exists_parts_join (h : q.isAbsolute = false) :
    ∃ parts, (p.join q).parts = parts ++ q.parts ∧ (p.parts = parts ∨ p.parts = parts ++ [""]) ∧
      (p.text ≠ "" → parts ≠ []) := by
  have hslash (before after : List Char) : pieces (· == '/') (before ++ '/' :: after) =
      pieces (· == '/') before ++ pieces (· == '/') after := pieces_append_break rfl before after
  by_cases hempty : p.text = ""
  · have hjoin : p.join q = q := by simp [join, h, hempty]
    exact ⟨[], by rw [hjoin, List.nil_append], .inr (by simp [parts, hempty, pieces]),
      fun hne => absurd hempty hne⟩
  · by_cases hlast : p.text.toList.getLast? = some '/'
    · obtain ⟨before, hbefore⟩ := List.getLast?_eq_some_iff.mp hlast
      have hjoin : (p.join q).text.toList = before ++ '/' :: q.text.toList := by
        simp [join, h, hbefore]
      -- The slash that the first path ends in is the one that separates the two.
      refine ⟨(pieces (· == '/') before).map String.ofList, ?_, .inr ?_, fun _ => ?_⟩
      · rw [parts, hjoin, hslash, List.map_append, parts]
      · rw [parts, hbefore, hslash, List.map_append]
        rfl
      · rw [Ne, List.map_eq_nil_iff]
        exact pieces_ne_nil _ _
    · have hjoin : (p.join q).text.toList = p.text.toList ++ '/' :: q.text.toList := by
        simp [join, h, hlast, hempty]
      refine ⟨p.parts, ?_, .inl rfl, fun _ => p.parts_ne_nil⟩
      rw [parts, hjoin, hslash, List.map_append]
      rfl

/-- A path to which a relative one is joined stays absolute or relative. -/
private theorem isAbsolute_join (h : q.isAbsolute = false) :
    (p.join q).isAbsolute = p.isAbsolute := by
  by_cases hempty : p.text = ""
  · have hjoin : p.join q = q := by simp [join, h, hempty]
    rw [hjoin, h, isAbsolute, hempty]
    rfl
  · obtain ⟨c, cs, hcs⟩ : ∃ c cs, p.text.toList = c :: cs :=
      List.exists_cons_of_ne_nil fun hnil => hempty (String.toList_eq_nil_iff.mp hnil)
    unfold join isAbsolute at *
    rw [h, if_neg Bool.false_ne_true]
    split <;> simp [hcs]

/-- If `q` is absolute, it stays what it is wherever it is seen from. -/
theorem join_of_isAbsolute (h : q.isAbsolute = true) : p.join q = q :=
  if_pos h

/-- A joined path has a text if `p`, the first path, has. -/
theorem text_join_ne_empty (h : p.text ≠ "") : (p.join q).text ≠ "" := by
  by_cases hq : q.isAbsolute = true
  · rw [join_of_isAbsolute hq]
    intro hempty
    rw [isAbsolute, hempty] at hq
    exact absurd hq (by decide)
  · unfold join
    rw [if_neg hq]
    split <;> simp [h]

/-! ### Components -/

/-- The components that the parts of `p`, a relative path, add to those of another. -/
def relativeComponents (p : Path) : List Component :=
  p.parts.filterMap componentOf?

/-- If `q` is relative, it adds its components to those of `p`, which it is joined to. -/
theorem components_join (hp : p.text ≠ "") (hq : q.isAbsolute = false) :
    (p.join q).components = p.components ++ q.relativeComponents := by
  obtain ⟨parts, hjoin, hparts, hne⟩ := exists_parts_join (p := p) hq
  obtain ⟨first, rest, rfl⟩ := List.exists_cons_of_ne_nil (hne hp)
  have hidle : componentOf? "" = none := rfl
  rcases hparts with hparts | hparts
  · simp [components, hjoin, hparts, isAbsolute_join hq, relativeComponents]
  · simp [components, hjoin, hparts, isAbsolute_join hq, relativeComponents, hidle]

/-- The name of an entry is one more component. -/
private theorem components_join_entry (hp : p.text ≠ "") (h : EntryName name) :
    (p.join ⟨name⟩).components = p.components ++ [.entry name] := by
  rw [components_join hp h.isAbsolute, relativeComponents, h.parts, List.filterMap_cons_some
    h.componentOf?, List.filterMap_nil]

theorem fileName?_eq_some_iff :
    p.fileName? = some name ↔ p.components.getLast? = some (.entry name) := by
  unfold fileName?
  split
  · next last hlast => simp [hlast]
  · next hne => exact ⟨nofun, fun h => absurd h (hne name)⟩

/-- The last component of a relative path, if it is an entry, is one that the path adds. -/
private theorem getLast?_relativeComponents (hq : q.isAbsolute = false)
    (h : q.components.getLast? = some (.entry name)) :
    q.relativeComponents.getLast? = some (.entry name) := by
  obtain ⟨first, rest, hparts⟩ := List.exists_cons_of_ne_nil q.parts_ne_nil
  have hrelative : q.relativeComponents =
      (componentOf? first).toList ++ rest.filterMap componentOf? := by
    rw [relativeComponents, hparts, List.filterMap_cons]
    cases componentOf? first <;> rfl
  rw [hrelative]
  -- A relative path that starts with a dot keeps it as a component; all other dots are left out.
  by_cases hdot : first = "."
  · subst hdot
    have hcurrent : q.components = .current :: rest.filterMap componentOf? := by
      simp [components, hparts, hq]
    rw [hcurrent, List.getLast?_cons] at h
    change (rest.filterMap componentOf?).getLast? = _
    cases hlast : (rest.filterMap componentOf?).getLast? with
    | none => simp [hlast] at h
    | some last => simpa [hlast] using h
  · have hcomponents : q.components =
        (componentOf? first).toList ++ rest.filterMap componentOf? := by
      simp [components, hparts, hq, hdot]
    rwa [hcomponents] at h

/-- A joined path leads to the entry that `q`, the second path, leads to. -/
theorem fileName?_join (h : q.fileName? = some name) : (p.join q).fileName? = some name := by
  by_cases hempty : p.text = "" ∨ q.isAbsolute = true
  · have hjoin : p.join q = q := by
      rcases hempty with hempty | habsolute
      · simp [join, hempty]
      · exact join_of_isAbsolute habsolute
    rw [hjoin, h]
  · obtain ⟨hp, hq⟩ := not_or.mp hempty
    have hq : q.isAbsolute = false := Bool.eq_false_iff.mpr hq
    rw [fileName?_eq_some_iff] at h ⊢
    rw [components_join hp hq, List.getLast?_append, getLast?_relativeComponents hq h]
    rfl

/-- The extension of a name is what follows its last dot. -/
theorem extension?_eq_some {stem extension : String}
    (h : p.fileName? = some (stem ++ "." ++ extension)) (hstem : stem ≠ "")
    (hdot : '.' ∉ extension.toList) : p.extension? = some extension := by
  have hname : (stem ++ "." ++ extension).toList = stem.toList ++ '.' :: extension.toList := by
    rw [String.toList_append, String.toList_append, List.append_assoc]
    rfl
  -- The extension has no dot of its own, so the last dot of the name is the one before it.
  have hafter : ∀ c ∈ extension.toList.reverse, (c != '.') = true := fun c hc =>
    bne_iff_ne.mpr fun heq => hdot (heq ▸ List.mem_reverse.mp hc)
  have hsplit : splitName (stem ++ "." ++ extension) = (stem.toList, some extension.toList) := by
    have hlength : (stem.toList ++ '.' :: extension.toList).length - extension.toList.length - 1 =
        stem.toList.length := by
      rw [List.length_append, List.length_cons]
      omega
    rw [splitName, hname, List.reverse_append, List.reverse_cons, List.append_assoc,
      List.takeWhile_append_of_pos hafter, List.singleton_append,
      List.takeWhile_cons_of_neg (by decide), List.append_nil, List.reverse_reverse, hlength,
      List.take_left, if_neg]
    simpa using hstem
  rw [extension?, h, Option.bind_some, hsplit, Option.map_some, String.ofList_toList]

/-! ### Locations -/

/-- Where `part`, a part of a path, leads from `location`, by its text alone. -/
def follow (location : Location) (part : String) : Location :=
  if part = "" ∨ part = "." then location
  else if part = ".." then location.dropLast
  else location ++ [part]

/-- The location of `p` for the working directory `base`. -/
def location (base : Location) (p : Path) : Location :=
  p.parts.foldl follow (if p.isAbsolute then [] else base)

theorem location_of_isAbsolute (h : p.isAbsolute = true) (base : Location) :
    p.location base = p.location [] := by
  rw [location, location, if_pos h, if_pos h]

private theorem location_of_relative (h : p.isAbsolute = false) (base : Location) :
    p.location base = p.parts.foldl follow base := by
  rw [location, if_neg (Bool.not_eq_true _ ▸ h)]

/-- A joined path is resolved from the location of `p`, the first path. -/
theorem location_join (p q : Path) (base : Location) :
    (p.join q).location base = q.location (p.location base) := by
  cases hq : q.isAbsolute with
  | true =>
    rw [join_of_isAbsolute hq, location_of_isAbsolute hq base,
      location_of_isAbsolute hq (p.location base)]
  | false =>
    obtain ⟨parts, hjoin, hparts, -⟩ := exists_parts_join (p := p) hq
    -- A slash at the end of the first path makes an empty part, which `follow` ignores.
    have hlocation : p.location base = parts.foldl follow (if p.isAbsolute then [] else base) := by
      rcases hparts with hparts | hparts
      · rw [location, hparts]
      · rw [location, hparts, List.foldl_append]
        rfl
    rw [location, hjoin, isAbsolute_join hq, List.foldl_append, ← hlocation,
      location_of_relative hq]

/-- The entry `name` lies in the directory it is an entry of. -/
theorem location_entry (h : EntryName name) (base : Location) :
    (⟨name⟩ : Path).location base = base ++ [name] := by
  rw [location_of_relative h.isAbsolute, h.parts, List.foldl_cons, List.foldl_nil, follow,
    if_neg (not_or.mpr ⟨h.ne_empty, h.ne_current⟩), if_neg h.ne_parent]

/-! ### Several entries -/

/-- The path that leads from `p` through the entries `names`. -/
def descend (p : Path) (names : List String) : Path :=
  names.foldl (fun q name => q.join ⟨name⟩) p

theorem components_descend {names : List String} (hp : p.text ≠ "")
    (h : ∀ name ∈ names, EntryName name) :
    (p.descend names).components = p.components ++ names.map .entry := by
  induction names generalizing p with
  | nil => exact (List.append_nil _).symm
  | cons name names ih =>
    obtain ⟨hname, hnames⟩ := List.forall_mem_cons.mp h
    refine (ih (text_join_ne_empty hp) hnames).trans ?_
    rw [components_join_entry hp hname, List.append_assoc]
    rfl

theorem location_descend {names : List String} (h : ∀ name ∈ names, EntryName name)
    (base : Location) : (p.descend names).location base = p.location base ++ names := by
  induction names generalizing p with
  | nil => exact (List.append_nil _).symm
  | cons name names ih =>
    obtain ⟨hname, hnames⟩ := List.forall_mem_cons.mp h
    refine (ih hnames).trans ?_
    rw [location_join, location_entry hname, List.append_assoc]
    rfl

/-! ### Climbing -/

/-- Whether parts lead above the place where they start, after `depth` names have been entered. -/
def climbsFrom (depth : Nat) : List String → Bool
  | [] => false
  | part :: parts =>
    if part = "" ∨ part = "." then climbsFrom depth parts
    else if part = ".." then depth == 0 || climbsFrom (depth - 1) parts
    else climbsFrom (depth + 1) parts

/-- That `p`, a relative path, leads on its way above the place where it starts. -/
def Climbs (p : Path) : Prop :=
  p.isAbsolute = false ∧ climbsFrom 0 p.parts = true

instance : Decidable p.Climbs :=
  inferInstanceAs (Decidable (_ ∧ _))

/-- Parts of which none leads to the directory above do not climb. -/
private theorem climbsFrom_of_not_mem {parts : List String} (h : ".." ∉ parts) (depth : Nat) :
    climbsFrom depth parts = false := by
  induction parts generalizing depth with
  | nil => rfl
  | cons part parts ih =>
    obtain ⟨hpart, hparts⟩ := List.ne_and_not_mem_of_not_mem_cons h
    rw [climbsFrom, if_neg hpart.symm]
    split
    · exact ih hparts depth
    · exact ih hparts (depth + 1)

/-- If no component of `p` is the directory above, it does not climb. -/
theorem not_climbs_of_not_mem (h : Component.parent ∉ p.components) : ¬ p.Climbs := by
  rintro ⟨hrelative, hclimbs⟩
  have hparts : ".." ∉ p.parts := by
    intro hmem
    obtain ⟨first, rest, heq⟩ := List.exists_cons_of_ne_nil p.parts_ne_nil
    have hparent : componentOf? ".." = some .parent := rfl
    refine h ?_
    simp only [components, heq, hrelative, Bool.false_eq_true, if_false]
    rw [heq] at hmem
    rcases List.mem_cons.mp hmem with rfl | hmem
    · exact List.mem_append_left _ (by simp [hparent])
    · exact List.mem_append_right _ (List.mem_filterMap.mpr ⟨"..", hmem, hparent⟩)
  rw [climbsFrom_of_not_mem hparts] at hclimbs
  cases hclimbs

/-- Parts that climb lead to the same place from any two directories next to each other. -/
private theorem foldl_follow_of_climbsFrom {parts names : List String} (base : Location)
    (a b : String) (h : climbsFrom names.length parts = true) :
    parts.foldl follow (base ++ a :: names) = parts.foldl follow (base ++ b :: names) := by
  induction parts generalizing names with
  | nil => cases h
  | cons part parts ih =>
    rw [climbsFrom] at h
    rw [List.foldl_cons, List.foldl_cons, follow, follow]
    split at h
    · next hidle => rw [if_pos hidle, if_pos hidle, ih h]
    · next hidle =>
      rw [if_neg hidle, if_neg hidle]
      split at h
      · next hparent =>
        rw [if_pos hparent, if_pos hparent]
        by_cases hnames : names = []
        · -- The part leaves the two directories, and they are next to each other.
          rw [hnames, List.dropLast_concat, List.dropLast_concat]
        · have hdrop (x : String) :
              (base ++ x :: names).dropLast = base ++ x :: names.dropLast := by
            rw [List.dropLast_append_of_ne_nil (List.cons_ne_nil _ _),
              List.dropLast_cons_of_ne_nil hnames]
          rw [hdrop, hdrop]
          exact ih (by simpa [hnames] using h)
      · next hparent =>
        rw [if_neg hparent, if_neg hparent, List.append_assoc, List.append_assoc, List.cons_append,
          List.cons_append]
        exact ih (by simpa using h)

/-- Parts that do not climb stay in the directory they start from. -/
private theorem exists_foldl_follow {parts names : List String} (base : Location)
    (h : climbsFrom names.length parts = false) :
    ∃ entered, parts.foldl follow (base ++ names) = base ++ entered := by
  induction parts generalizing names with
  | nil => exact ⟨names, rfl⟩
  | cons part parts ih =>
    rw [climbsFrom] at h
    rw [List.foldl_cons, follow]
    split at h
    · next hidle => rw [if_pos hidle]; exact ih h
    · next hidle =>
      rw [if_neg hidle]
      split at h
      · next hparent =>
        -- As the parts do not climb, some name has been entered that this part leaves.
        obtain ⟨hdepth, hrest⟩ := Bool.or_eq_false_iff.mp h
        have hnames : names ≠ [] := by simpa using hdepth
        rw [if_pos hparent, List.dropLast_append_of_ne_nil hnames]
        exact ih (by rw [List.length_dropLast]; exact hrest)
      · next hparent =>
        rw [if_neg hparent, List.append_assoc]
        exact ih (by simpa using h)

/-- If `p` climbs, it leads to the same place from any two directories next to each other. -/
theorem location_of_climbs (h : p.Climbs) (base : Location) (a b : String) :
    p.location (base ++ [a]) = p.location (base ++ [b]) := by
  rw [location_of_relative h.1, location_of_relative h.1]
  exact foldl_follow_of_climbsFrom base a b (show climbsFrom [].length p.parts = true from h.2)

/-- If `p` is relative and does not climb, it stays in the directory it starts from. -/
theorem exists_location_of_not_climbs (hp : p.isAbsolute = false) (h : ¬ p.Climbs)
    (base : Location) : ∃ entered, p.location base = base ++ entered := by
  have hstays : climbsFrom 0 p.parts = false := Bool.eq_false_iff.mpr fun hclimbs => h ⟨hp, hclimbs⟩
  obtain ⟨entered, hentered⟩ :=
    exists_foldl_follow base (show climbsFrom [].length p.parts = false from hstays)
  rw [List.append_nil] at hentered
  exact ⟨entered, by rw [location_of_relative hp, hentered]⟩

end Path

end KindSchema
