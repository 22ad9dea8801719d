import Mathlib.Data.List.Induction
import KindSchema.Proofs.Config.Validation
import KindSchema.Proofs.Run.CellIdentity

/-!
# What a valid configuration asks for

* `ListsFirstMentions`: some values are what some names are read as, each once and in the order in
  which they are first named.
* `Config.Describes`: a pipeline has just the generators, the variants and the subdirectories that
  a configuration names.
* `Config.exists_describes`: a valid configuration gives a pipeline that it describes.
-/

namespace KindSchema

/-! ### First mentions -/

section

variable {α : Type} [DecidableEq α] {read : String → Option α} {names : List String}
  {values : List α}

/-- What is left of a list without its duplicates stands in the order of the first occurrences. -/
private theorem pairwise_eraseDups (l : List α) :
    l.eraseDups.Pairwise fun a b => l.idxOf a < l.idxOf b := by
  -- One more element is put at the end unless it has occurred, which no index before it notices.
  induction l using List.reverseRecOn with
  | nil => exact .nil
  | append_singleton l c ih =>
    have hbefore {a : α} (ha : a ∈ l.eraseDups) : (l ++ [c]).idxOf a = l.idxOf a :=
      List.idxOf_append_of_mem (List.mem_eraseDups.mp ha)
    have hlast : ([c].removeAll l).eraseDups = if c ∈ l then [] else [c] := by
      by_cases hc : c ∈ l <;> simp [List.removeAll, List.eraseDups_cons, hc]
    rw [List.eraseDups_append, hlast]
    split
    · next =>
      rw [List.append_nil]
      exact ih.imp_of_mem fun ha hb hlt => by rwa [hbefore ha, hbefore hb]
    · next hc =>
      refine List.pairwise_append.mpr ⟨ih.imp_of_mem fun ha hb hlt => ?_,
        List.pairwise_singleton _ c, fun a ha b hb => ?_⟩
      · rwa [hbefore ha, hbefore hb]
      · rw [List.mem_singleton.mp hb, hbefore ha, List.idxOf_append_of_notMem hc]
        exact Nat.lt_add_right _ (List.idxOf_lt_length_of_mem (List.mem_eraseDups.mp ha))

/-- That `values` are what `names` are read as, each once and in the order in which they are first
named. -/
structure ListsFirstMentions (read : String → Option α) (names : List String) (values : List α) :
    Prop where
  mem_iff : ∀ a, a ∈ values ↔ ∃ name ∈ names, read name = some a
  once : values.Nodup
  ordered : values.Pairwise fun a b =>
    names.findIdx (read · = some a) < names.findIdx (read · = some b)

/-- The first name that is read as a value stands where the value does first. -/
private theorem findIdx_eq_idxOf (h : List.Forall₂ (fun name a => read name = some a) names values)
    (a : α) : names.findIdx (read · = some a) = values.idxOf a := by
  induction h with
  | nil => rfl
  | @cons name b names values hname _ ih =>
    rw [List.findIdx_cons, List.idxOf_cons, hname, ih]
    by_cases hab : b = a
    · simp [hab]
    · simp [hab, beq_eq_false_iff_ne.mpr hab]

namespace ListsFirstMentions

/-- If all names are read, then what is left of the values without duplicates are the first
mentions. -/
private theorem of_forall₂ (h : List.Forall₂ (fun name a => read name = some a) names values) :
    ListsFirstMentions read names values.eraseDups where
  mem_iff a := by
    rw [List.mem_eraseDups]
    constructor
    · intro ha
      exact exists_of_mem_right h ha
    · rintro ⟨name, hname, hread⟩
      obtain ⟨b, hb, hread'⟩ := exists_of_mem_left h hname
      exact Option.some.inj (hread'.symm.trans hread) ▸ hb
  once := nodup_eraseDups values
  ordered := by
    simp only [findIdx_eq_idxOf h]
    exact pairwise_eraseDups values

/-- The values of one sort are the first mentions of that sort. -/
private theorem filter (h : ListsFirstMentions read names values) (kept : α → Bool) :
    ListsFirstMentions (fun name => (read name).filter kept) names (values.filter kept) where
  mem_iff a := by
    simp only [List.mem_filter, h.mem_iff, Option.filter_eq_some_iff]
    constructor
    · rintro ⟨⟨name, hname, hread⟩, ha⟩
      exact ⟨name, hname, hread, ha⟩
    · rintro ⟨name, hname, hread, ha⟩
      exact ⟨⟨name, hname, hread⟩, ha⟩
  once := h.once.filter kept
  ordered := by
    have hread {a : α} (ha : a ∈ values.filter kept) (name : String) :
        (read name).filter kept = some a ↔ read name = some a := by
      rw [Option.filter_eq_some_iff, and_iff_left (List.mem_filter.mp ha).2]
    refine (h.ordered.filter kept).imp_of_mem fun ha hb hlt => ?_
    simpa only [hread ha, hread hb] using hlt

end ListsFirstMentions

end

/-! ### Pipelines -/

namespace Config

variable {c : Config}

/-- The variants that `c` names, or the one that it has if it names none. -/
def mentionedVariants (c : Config) : List String :=
  if c.variant = none ∧ c.variants = [] then [VariantId.noParams.name]
  else c.variant.toList ++ c.variants

/-- That `p` is what `c` asks for: all generators and variants that are named, and no others, each
once in the order of the first mentions, and the subdirectories of the generators. -/
structure Describes (c : Config) (p : Pipeline) : Prop where
  generators_ne_nil : p.generators ≠ []
  variants_ne_nil : p.variants ≠ []
  exists_generator : ∀ name ∈ c.generators, ∃ g ∈ p.generators, g.name = name
  exists_variant : ∀ name ∈ c.mentionedVariants, ∃ v ∈ p.variants,
    VariantId.ofName? name = some v.id
  generators : ListsFirstMentions Generator.ofName? c.generators p.generators
  perKind : ListsFirstMentions (fun name => (Generator.ofName? name).filter (!·.isAggregate))
    c.generators p.perKind
  aggregates : ListsFirstMentions (fun name => (Generator.ofName? name).filter (·.isAggregate))
    c.generators p.aggregates
  variants : ListsFirstMentions VariantId.ofName? c.mentionedVariants (p.variants.map (·.id))
  subdirectory_enabled : ∀ name subdirectory, c.subdirectories.lookup name = some subdirectory →
    ∃ g ∈ p.generators, g.name = name ∧ p.subdirectory? g = some subdirectory
  subdirectory? : ∀ g, p.subdirectory? g = c.subdirectories.lookup g.name

/-- The names of the variants of a run are those that are mentioned. -/
private theorem variantNames_eq_ok {names : List String} (h : c.variantNames none = .ok names) :
    names = c.mentionedVariants := by
  unfold variantNames at h
  unfold mentionedVariants
  cases hvariant : c.variant with
  | none =>
    rw [hvariant] at h
    cases h
    cases c.variants <;> rfl
  | some name =>
    rw [hvariant] at h
    dsimp only at h
    split at h
    · next hnil =>
      cases h
      rw [List.isEmpty_iff.mp hnil]
      rfl
    · cases h

/-- The generators are the first mentions of generators. -/
private theorem generatorIds_listsFirstMentions {generators : List Generator}
    (h : c.generatorIds = .ok generators) :
    ListsFirstMentions Generator.ofName? c.generators generators ∧
      ∀ name ∈ c.generators, ∃ g ∈ generators, g.name = name := by
  obtain ⟨ids, hids, rfl⟩ := bind_return_eq_ok.mp h
  have hread := (mapM_eq_ok.mp hids).imp fun _ _ => parseGenerator_eq_ok_iff.mp
  refine ⟨.of_forall₂ hread, fun name hname => ?_⟩
  obtain ⟨g, hg, hname⟩ := exists_of_mem_left hread hname
  exact ⟨g, List.mem_eraseDups.mpr hg, Generator.name_of_ofName? hname⟩

/-- The variants are the first mentions of variants. -/
private theorem effectiveVariants_listsFirstMentions {variants : List Variant}
    (h : c.effectiveVariants none = .ok variants) :
    ListsFirstMentions VariantId.ofName? c.mentionedVariants (variants.map (·.id)) ∧
      ∀ name ∈ c.mentionedVariants, ∃ v ∈ variants, VariantId.ofName? name = some v.id := by
  obtain ⟨names, hnames, h⟩ := bind_eq_ok.mp h
  obtain ⟨ids, hids, rfl⟩ := bind_return_eq_ok.mp h
  have hread := (mapM_eq_ok.mp hids).imp fun _ _ => parseVariant_eq_ok_iff.mp
  rw [← variantNames_eq_ok hnames, List.map_map]
  refine ⟨(List.map_id' ids.eraseDups).symm ▸ .of_forall₂ hread, fun name hname => ?_⟩
  obtain ⟨id, hid, hname⟩ := exists_of_mem_left hread hname
  exact ⟨_, List.mem_map.mpr ⟨id, List.mem_eraseDups.mpr hid, rfl⟩, hname⟩

private theorem mentionedVariants_ne_nil (c : Config) : c.mentionedVariants ≠ [] := by
  unfold mentionedVariants
  split
  · exact List.cons_ne_nil _ _
  · next hmentioned =>
    intro hnil
    obtain ⟨hvariant, hvariants⟩ := List.append_eq_nil_iff.mp hnil
    exact hmentioned ⟨Option.toList_eq_nil_iff.mp hvariant, hvariants⟩

/-- The subdirectory of a generator is the one under its name. -/
private theorem lookup_subdirectoryList {subdirectories : List (Generator × String)}
    (h : c.subdirectoryList = .ok subdirectories) (g : Generator) :
    subdirectories.lookup g = c.subdirectories.lookup g.name := by
  rw [subdirectoryList, mapM_eq_ok] at h
  generalize c.subdirectories = entries at h ⊢
  induction h with
  | nil => rfl
  | @cons entry named entries _ hentry _ ih =>
    obtain ⟨name, subdirectory⟩ := entry
    obtain ⟨g', hg', rfl⟩ := bind_return_eq_ok.mp hentry
    obtain rfl := Generator.name_of_ofName? (parseGenerator_eq_ok_iff.mp hg')
    -- The list is searched by generator and the table by name; names tell generators apart.
    have hname : (g == g') = (g.name == g'.name) := by
      rw [Bool.eq_iff_iff, beq_iff_eq, beq_iff_eq]
      exact ⟨congrArg _, fun h => Option.some.inj (by
        rw [← Generator.ofName?_name g, h, Generator.ofName?_name])⟩
    rw [List.lookup_cons, List.lookup_cons, hname, ih]

/-- The valid configuration `c` gives a pipeline that it describes. -/
theorem exists_describes (h : c.IsValid) : ∃ p, c.pipeline none = .ok p ∧ c.Describes p := by
  have hrequested : ∀ name ∈ (none : Option String), (VariantId.ofName? name).isSome = true := nofun
  obtain ⟨p, hp, hne, -, -⟩ := exists_pipeline h hrequested
  obtain ⟨hgenerators, hvariants, hsubdirectories⟩ := pipeline_eq_ok_iff.mp hp
  obtain ⟨hgenerators, hexists⟩ := generatorIds_listsFirstMentions hgenerators
  obtain ⟨hvariants, hexists'⟩ := effectiveVariants_listsFirstMentions hvariants
  have hsubdirectory := lookup_subdirectoryList hsubdirectories
  refine ⟨p, hp, {
    generators_ne_nil := hne
    variants_ne_nil := ?_
    exists_generator := hexists
    exists_variant := hexists'
    generators := hgenerators
    perKind := hgenerators.filter _
    aggregates := hgenerators.filter _
    variants := hvariants
    subdirectory_enabled := ?_
    subdirectory? := hsubdirectory }⟩
  · obtain ⟨name, hname⟩ := List.exists_mem_of_ne_nil _ c.mentionedVariants_ne_nil
    obtain ⟨v, hv, -⟩ := hexists' name hname
    exact List.ne_nil_of_mem hv
  · intro name subdirectory hlookup
    obtain ⟨before, after, hentries, -⟩ := List.lookup_eq_some_iff.mp hlookup
    -- Validation has checked that only an enabled generator has a subdirectory.
    obtain ⟨-, henabled⟩ := h.subdirectories (name, subdirectory)
      (hentries ▸ List.mem_append_right before List.mem_cons_self)
    obtain ⟨g, hg, rfl⟩ := hexists name henabled
    exact ⟨g, hg, rfl, (hsubdirectory g).trans hlookup⟩

end Config

end KindSchema
