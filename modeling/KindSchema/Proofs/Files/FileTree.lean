import KindSchema.Proofs.Files.Path
import KindSchema.Proofs.Kind.Validation

/-!
# Reading what was written

A path that can be looked up in a tree leads to the location that its text gives, so what is written
at one location cannot be seen at another.

* `FileTree.locate_eq_ok`: the location of a path that is found is `Path.location`.
* `FileTree.ChangedOnly`: where making directories and writing files change a tree.
* `FileTree.ChangedOnly.readText`, `FileTree.readText_writeText_self`,
  `FileTree.readText_writeText_of_ne`: what is read after directories were made and files written.
-/

namespace KindSchema.FileTree

variable {t t' : FileTree} {p q : Path} {content : String} {location : Location}

/-! ### Looking up -/

private theorem step_eq_ok {part : String} {next : Location} (h : step location part = .ok next) :
    next = Path.follow location part := by
  unfold step at h
  unfold Path.follow
  split at h
  · next hidle => rw [if_pos hidle]; exact (Except.ok.inj h).symm
  · next hidle =>
    rw [if_neg hidle]
    split at h
    · next hparent => rw [if_pos hparent]; exact (Except.ok.inj h).symm
    · next hparent =>
      rw [if_neg hparent]
      split at h
      · exact (Except.ok.inj h).symm
      · cases h

private theorem walk_eq_ok {parts : List String} {last : Location}
    (h : t.walk location parts = .ok last) :
    last = parts.foldl Path.follow location := by
  induction parts generalizing location with
  | nil => exact (Except.ok.inj h).symm
  | cons part parts ih =>
    rw [walk] at h
    obtain ⟨-, -, h⟩ := bind_eq_ok.mp h
    obtain ⟨next, hstep, h⟩ := bind_eq_ok.mp h
    rw [List.foldl_cons, ← step_eq_ok hstep]
    exact ih h

/-- A path is found if it is well-formed and the walk along its parts succeeds. -/
private theorem locate_eq_ok_iff : t.locate p = .ok location ↔
    checkText p = .ok () ∧ p.text ≠ "" ∧ t.walk (t.start p) p.parts = .ok location := by
  rw [locate, bind_eq_ok]
  constructor
  · rintro ⟨_, hcheck, h⟩
    obtain ⟨hne, hwalk⟩ := check_eq_ok.mp h
    exact ⟨hcheck, hne, hwalk⟩
  · rintro ⟨hcheck, hne, hwalk⟩
    exact ⟨(), hcheck, check_eq_ok.mpr ⟨hne, hwalk⟩⟩

/-- If `p` is found, it leads to the location that its text gives. -/
theorem locate_eq_ok (h : t.locate p = .ok location) : location = p.location t.base :=
  walk_eq_ok (locate_eq_ok_iff.mp h).2.2

private theorem enter_eq_ok_iff :
    t.enter location = .ok () ↔ t.node? location = some .directory := by
  unfold enter
  split
  · next hnode => exact ⟨fun _ => hnode, fun _ => rfl⟩
  · next node hne hnode =>
    exact ⟨nofun, fun h => absurd (Option.some.inj (hnode.symm.trans h)) hne⟩
  · next hnode => exact ⟨nofun, fun h => nomatch hnode.symm.trans h⟩

/-! ### Trees that grow -/

/-- That `t'` has the directories of `t`, and the same working directory. -/
structure Extends (t t' : FileTree) : Prop where
  base_eq : t'.base = t.base
  directory : ∀ l, t.node? l = some .directory → t'.node? l = some .directory

/-- A path that is found in a tree is found in one with more directories. -/
private theorem Extends.locate (h : t.Extends t') (hlocate : t.locate p = .ok location) :
    t'.locate p = .ok location := by
  -- A walk asks of a tree only which locations are directories.
  have hwalk {parts : List String} {first : Location} (hparts : t.walk first parts = .ok location) :
      t'.walk first parts = .ok location := by
    induction parts generalizing first with
    | nil => exact hparts
    | cons part parts ih =>
      obtain ⟨_, henter, hparts⟩ := bind_eq_ok.mp hparts
      obtain ⟨next, hstep, hparts⟩ := bind_eq_ok.mp hparts
      refine bind_eq_ok.mpr ⟨(), ?_, bind_eq_ok.mpr ⟨next, hstep, ih hparts⟩⟩
      exact enter_eq_ok_iff.mpr (h.directory first (enter_eq_ok_iff.mp henter))
  obtain ⟨hcheck, hne, hparts⟩ := locate_eq_ok_iff.mp hlocate
  have hstart : t'.start p = t.start p := by rw [start, start, h.base_eq]
  exact locate_eq_ok_iff.mpr ⟨hcheck, hne, hstart ▸ hwalk hparts⟩

/-- A text is read at a path that is found if it is at its location. -/
private theorem readText_eq_ok_iff : t.readText p = .ok content ↔
    t.locate p = .ok (p.location t.base) ∧
      t.node? (p.location t.base) = some (.text content) := by
  rw [readText, bind_eq_ok]
  constructor
  · rintro ⟨location, hlocate, hnode⟩
    obtain rfl := locate_eq_ok hlocate
    refine ⟨hlocate, ?_⟩
    split at hnode
    · next hnode' => cases hnode; exact hnode'
    all_goals cases hnode
  · rintro ⟨hlocate, hnode⟩
    exact ⟨_, hlocate, by rw [hnode]; rfl⟩

/-- There is nothing to read at a path that leads to nothing. -/
private theorem readText_of_node?_eq_none (hlocate : t.locate p = .ok location)
    (hnone : t.node? location = none) : t.readText p = .error .notFound := by
  rw [readText, hlocate]
  simp only [bind, Except.bind, hnone]
  rfl

/-- What is read at a path stays if the tree grows and the node at its location stays. -/
private theorem Extends.readText (h : t.Extends t')
    (hnode : t'.node? (p.location t.base) = t.node? (p.location t.base))
    (hread : t.readText p = .ok content) : t'.readText p = .ok content := by
  rw [readText_eq_ok_iff] at hread ⊢
  rw [h.base_eq, hnode]
  exact ⟨h.locate hread.1, hread.2⟩

/-! ### Trees that change in some places only -/

/-- That `t'` differs from `t` at locations for which `touched` holds, and otherwise only in that
there are directories where there was nothing. -/
structure ChangedOnly (touched : Location → Prop) (t t' : FileTree) : Prop where
  base_eq : t'.base = t.base
  node : ∀ l, ¬ touched l →
    t'.node? l = t.node? l ∨ t.node? l = none ∧ t'.node? l = some .directory

namespace ChangedOnly

variable {touched touched' : Location → Prop} {t'' : FileTree}

theorem refl (touched : Location → Prop) (t : FileTree) : t.ChangedOnly touched t :=
  ⟨rfl, fun _ _ => .inl rfl⟩

theorem trans (h : t.ChangedOnly touched t') (h' : t'.ChangedOnly touched t'') :
    t.ChangedOnly touched t'' where
  base_eq := h'.base_eq.trans h.base_eq
  node l hl := by
    rcases h.node l hl with hsame | ⟨hnone, hmade⟩
    · rw [← hsame]
      exact h'.node l hl
    · -- A directory that was made stays one.
      rcases h'.node l hl with hsame' | ⟨hnone', -⟩
      · exact .inr ⟨hnone, hsame'.trans hmade⟩
      · cases hnone'.symm.trans hmade

theorem mono (h : t.ChangedOnly touched t') (himp : ∀ l, touched l → touched' l) :
    t.ChangedOnly touched' t' :=
  ⟨h.base_eq, fun l hl => h.node l fun htouched => hl (himp l htouched)⟩

/-- What is read at `p` stays if nothing but directories is added. -/
theorem readText (h : t.ChangedOnly (fun _ => False) t') (hread : t.readText p = .ok content) :
    t'.readText p = .ok content := by
  have hkeeps {l : Location} {node : Node} (hnode : t.node? l = some node) :
      t'.node? l = some node := by
    rcases h.node l id with hsame | ⟨hnone, -⟩
    · rw [hsame, hnode]
    · cases hnone.symm.trans hnode
  have hnode := (readText_eq_ok_iff.mp hread).2
  exact Extends.readText ⟨h.base_eq, fun _ => hkeeps⟩ ((hkeeps hnode).trans hnode.symm) hread

end ChangedOnly

variable {touched : Location → Prop}

/-- To put a node at a location changes nothing elsewhere. -/
private theorem changedOnly_put (node : Node) (hlocation : touched location) :
    t.ChangedOnly touched (t.put location node) where
  base_eq := rfl
  node l hl := by
    have hne : l ≠ location := by
      rintro rfl
      exact hl hlocation
    exact .inl (t.node?_put_of_ne hne node)

/-! ### Making directories -/

/-- Directories are made only where there was nothing. -/
private theorem changedOnly_makeAlong {parts : List String} :
    t.ChangedOnly touched (t.makeAlong location parts).2 := by
  induction parts generalizing t location with
  | nil => exact .refl _ _
  | cons part parts ih =>
    rw [makeAlong]
    split
    · exact .refl _ _
    · next next hstep =>
      split
      · exact ih
      · exact .refl _ _
      · next hnone =>
        have hmade : t.ChangedOnly touched (t.put next .directory) := by
          refine ⟨rfl, fun l _ => ?_⟩
          by_cases hl : l = next
          · -- The root is a directory in every tree, so it is not made.
            have hne : next ≠ [] := fun heq => nomatch (heq ▸ hnone : t.node? [] = none)
            exact .inr ⟨hl ▸ hnone, hl ▸ t.node?_put_self hne _⟩
          · exact .inl (t.node?_put_of_ne hl _)
        exact hmade.trans ih

theorem changedOnly_makeDirectories : t.ChangedOnly touched (t.makeDirectories q).2 := by
  unfold makeDirectories
  split
  · exact .refl _ _
  · split
    · exact .refl _ _
    · exact changedOnly_makeAlong

/-! ### Writing files -/

/-- A file that is written takes the place of what is at its location, but of no directory. -/
private theorem writeText_cases (t : FileTree) (q : Path) (content : String) :
    (∃ e, t.writeText q content = (.error e, t)) ∨
      t.locate q = .ok (q.location t.base) ∧ t.node? (q.location t.base) ≠ some .directory ∧
        t.writeText q content = (.ok (), t.put (q.location t.base) (.text content)) := by
  unfold writeText
  split
  · next t' hput =>
    right
    obtain ⟨location, hlocate, hput⟩ := bind_eq_ok.mp hput
    obtain rfl := locate_eq_ok hlocate
    obtain ⟨hfree, hput⟩ := check_eq_ok.mp hput
    cases hput
    exact ⟨hlocate, hfree, rfl⟩
  · next e _ => exact .inl ⟨e, rfl⟩

/-- To write a file changes nothing at other locations. -/
theorem changedOnly_writeText (h : touched (q.location t.base)) :
    t.ChangedOnly touched (t.writeText q content).2 := by
  obtain ⟨e, hwrite⟩ | ⟨-, -, hwrite⟩ := t.writeText_cases q content <;> rw [hwrite]
  · exact .refl _ _
  · exact changedOnly_put _ h

theorem base_writeText : (t.writeText q content).2.base = t.base := by
  have hchanged : t.ChangedOnly (fun _ => True) (t.writeText q content).2 :=
    changedOnly_writeText trivial
  exact hchanged.base_eq

/-- A tree in which a file took the place of no directory has grown. -/
private theorem extends_put {node : Node} (hfree : t.node? location ≠ some .directory) :
    t.Extends (t.put location node) where
  base_eq := rfl
  directory l hl := by
    have hne : l ≠ location := fun heq => hfree (heq ▸ hl)
    exact (node?_put_of_ne t hne node).trans hl

/-- What is written at `p` is read there. -/
theorem readText_writeText_self (h : (t.writeText p content).1 = .ok ()) :
    (t.writeText p content).2.readText p = .ok content := by
  obtain ⟨e, hwrite⟩ | ⟨hlocate, hfree, hwrite⟩ := t.writeText_cases p content
  · rw [hwrite] at h
    cases h
  · -- The root is a directory in every tree, so the file is not there.
    have hne : p.location t.base ≠ [] := fun heq => hfree (by rw [heq]; rfl)
    rw [hwrite, readText_eq_ok_iff]
    exact ⟨(extends_put hfree).locate hlocate, t.node?_put_self hne _⟩

/-- What is read at `p` is still read there after a file was written at another location. -/
theorem readText_writeText_of_ne {text : String} (h : t.readText p = .ok content)
    (hne : p.location t.base ≠ q.location t.base) :
    (t.writeText q text).2.readText p = .ok content := by
  obtain ⟨e, hwrite⟩ | ⟨-, hfree, hwrite⟩ := t.writeText_cases q text
  · rwa [hwrite]
  · rw [hwrite]
    exact (extends_put hfree).readText (t.node?_put_of_ne hne _) h

/-! ### Files that are tampered with -/

/-- That `p` has not got the content `content`: there is nothing at it, or there is another text. -/
def Lacks (t : FileTree) (p : Path) (content : String) : Prop :=
  t.readText p = .error .notFound ∨ ∃ other, t.readText p = .ok other ∧ other ≠ content

/-- That `t'` differs from `t` at the location of `p` only, where the file was removed or replaced
by one with another text. -/
structure Tampered (t : FileTree) (p : Path) (t' : FileTree) : Prop where
  base_eq : t'.base = t.base
  elsewhere : ∀ l, l ≠ p.location t.base → t'.node? l = t.node? l
  replaced : t'.node? (p.location t.base) = none ∨
    ∃ other, t'.node? (p.location t.base) = some (.text other) ∧ t.readText p ≠ .ok other

/-- To put the text `other` at the location of `p` is to tamper with the file. -/
theorem tampered_put (other : String) (hne : p.location t.base ≠ [])
    (hother : t.readText p ≠ .ok other) :
    t.Tampered p (t.put (p.location t.base) (.text other)) where
  base_eq := rfl
  elsewhere _ hl := node?_put_of_ne t hl _
  replaced := .inr ⟨other, t.node?_put_self hne _, hother⟩

namespace Tampered

variable (h : t.Tampered p t') (hread : t.readText p = .ok content)
include h hread

/-- Where a file was there was no directory. -/
private theorem extends_of_readText : t.Extends t' where
  base_eq := h.base_eq
  directory l hl := by
    have hne : l ≠ p.location t.base := by
      rintro rfl
      rw [(readText_eq_ok_iff.mp hread).2] at hl
      cases hl
    rw [h.elsewhere l hne, hl]

/-- What is read at other locations stays. -/
theorem readText_of_ne {text : String} (hne : q.location t.base ≠ p.location t.base)
    (hq : t.readText q = .ok text) : t'.readText q = .ok text :=
  (h.extends_of_readText hread).readText (h.elsewhere _ hne) hq

/-- The file that was tampered with has not got its content. -/
theorem lacks : t'.Lacks p content := by
  have hlocate := (h.extends_of_readText hread).locate (readText_eq_ok_iff.mp hread).1
  obtain hnone | ⟨other, hother, hne⟩ := h.replaced
  · exact .inl (readText_of_node?_eq_none hlocate hnone)
  · refine .inr ⟨other, readText_eq_ok_iff.mpr ?_, ?_⟩
    · rw [h.base_eq]
      exact ⟨hlocate, hother⟩
    · rintro rfl
      exact hne hread

end Tampered

end KindSchema.FileTree
