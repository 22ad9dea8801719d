import KindSchema.Config.Basic
import KindSchema.Proofs.Kind.Validation
import KindSchema.Proofs.Run.Outcomes

/-!
# Pipelines of valid configurations

* `Config.validate_eq_ok_iff`: what a configuration that passes the check has.
* `Config.exists_pipeline`: such a configuration gives a pipeline, in which no generator and no
  variant is listed twice.
-/

namespace KindSchema

/-! ### Names of generators and variants -/

theorem parseGenerator_eq_ok_iff {name : String} {g : Generator} :
    parseGenerator name = .ok g ↔ Generator.ofName? name = some g := by
  unfold parseGenerator
  cases Generator.ofName? name <;> simp

private theorem exists_parseGenerator_iff {name : String} :
    (∃ g, parseGenerator name = .ok g) ↔ (Generator.ofName? name).isSome = true := by
  simp only [parseGenerator_eq_ok_iff, Option.isSome_iff_exists]

theorem parseVariant_eq_ok_iff {name : String} {v : VariantId} :
    parseVariant name = .ok v ↔ VariantId.ofName? name = some v := by
  unfold parseVariant
  cases VariantId.ofName? name <;> simp

private theorem exists_parseVariant_iff {name : String} :
    (∃ v, parseVariant name = .ok v) ↔ (VariantId.ofName? name).isSome = true := by
  simp only [parseVariant_eq_ok_iff, Option.isSome_iff_exists]

/-- What is left of a list without its duplicates is empty only if the list is. -/
private theorem eraseDups_ne_nil {α : Type} [BEq α] [LawfulBEq α] {l : List α} (h : l ≠ []) :
    l.eraseDups ≠ [] := by
  obtain ⟨a, ha⟩ := List.exists_mem_of_ne_nil l h
  exact List.ne_nil_of_mem (List.mem_eraseDups.mpr ha)

namespace Config

variable {c : Config}

/-- What a valid configuration `c` has. -/
structure IsValid (c : Config) : Prop where
  kinds : c.kinds ≠ []
  generators : c.generators ≠ []
  generatorIds : ∃ generators, c.generatorIds = .ok generators
  variants : ∃ variants, c.effectiveVariants none = .ok variants
  logLevel : ∃ level, c.logLevel none = .ok level
  subdirectories : ∀ entry ∈ c.subdirectories,
    (Generator.ofName? entry.1).isSome = true ∧ entry.1 ∈ c.generators
  outputDirectory : ¬ isBlankText c.outputDirectory = true

/-- The subdirectories are accepted if all of them belong to enabled generators. -/
private theorem validateSubdirectories_eq_ok_iff {entries : List (String × String)} :
    c.validateSubdirectories entries = .ok () ↔ ∀ entry ∈ entries,
      (Generator.ofName? entry.1).isSome = true ∧ entry.1 ∈ c.generators := by
  induction entries with
  | nil => exact ⟨fun _ _ h => absurd h List.not_mem_nil, fun _ => rfl⟩
  | cons entry entries ih =>
    rw [validateSubdirectories, check_eq_ok, check_eq_ok, ih, List.forall_mem_cons, and_assoc,
      not_not, Bool.not_eq_true, Option.isNone_eq_false_iff]

/-- The check of `c` accepts exactly the valid ones. -/
theorem validate_eq_ok_iff : c.validate = .ok () ↔ c.IsValid := by
  have hvalidate : c.validate =
      if c.kinds.isEmpty then .error .noKinds else
      if c.generators.isEmpty then .error .noGenerators else
      c.generatorIds >>= fun _ => c.effectiveVariants none >>= fun _ => c.logLevel none >>= fun _ =>
      c.validateSubdirectories c.subdirectories >>= fun _ =>
      if isBlankText c.outputDirectory then .error .noOutputDirectory else .ok () := by
    rfl
  rw [hvalidate, check_eq_ok, check_eq_ok]
  constructor
  · rintro ⟨hkinds, hgenerators, h⟩
    obtain ⟨generators, hids, h⟩ := bind_eq_ok.mp h
    obtain ⟨variants, hvariants, h⟩ := bind_eq_ok.mp h
    obtain ⟨level, hlevel, h⟩ := bind_eq_ok.mp h
    obtain ⟨⟨⟩, hsubdirectories, h⟩ := bind_eq_ok.mp h
    exact {
      kinds := fun hnil => hkinds (List.isEmpty_iff.mpr hnil)
      generators := fun hnil => hgenerators (List.isEmpty_iff.mpr hnil)
      generatorIds := ⟨generators, hids⟩
      variants := ⟨variants, hvariants⟩
      logLevel := ⟨level, hlevel⟩
      subdirectories := validateSubdirectories_eq_ok_iff.mp hsubdirectories
      outputDirectory := (check_eq_ok.mp h).1 }
  · intro h
    obtain ⟨generators, hids⟩ := h.generatorIds
    obtain ⟨variants, hvariants⟩ := h.variants
    obtain ⟨level, hlevel⟩ := h.logLevel
    refine ⟨fun hnil => h.kinds (List.isEmpty_iff.mp hnil),
      fun hnil => h.generators (List.isEmpty_iff.mp hnil), ?_⟩
    refine bind_eq_ok.mpr ⟨generators, hids, bind_eq_ok.mpr ⟨variants, hvariants,
      bind_eq_ok.mpr ⟨level, hlevel, bind_eq_ok.mpr ⟨(), ?_, ?_⟩⟩⟩⟩
    · exact validateSubdirectories_eq_ok_iff.mpr h.subdirectories
    · exact check_eq_ok.mpr ⟨h.outputDirectory, rfl⟩

/-- The generators of `c` are listed once each. -/
theorem nodup_of_generatorIds {generators : List Generator}
    (h : c.generatorIds = .ok generators) : generators.Nodup := by
  obtain ⟨ids, -, rfl⟩ := bind_return_eq_ok.mp h
  exact nodup_eraseDups ids

theorem ne_nil_of_generatorIds {generators : List Generator} (hne : c.generators ≠ [])
    (h : c.generatorIds = .ok generators) : generators ≠ [] := by
  obtain ⟨ids, hids, rfl⟩ := bind_return_eq_ok.mp h
  refine eraseDups_ne_nil fun hnil => hne ?_
  have hlength := (mapM_eq_ok.mp hids).length_eq
  rwa [hnil, List.length_nil, List.length_eq_zero_iff] at hlength

/-- The variants of `c` are listed once each. -/
theorem nodup_of_effectiveVariants {requested : Option String} {variants : List Variant}
    (h : c.effectiveVariants requested = .ok variants) : (variants.map (·.id)).Nodup := by
  obtain ⟨names, -, h⟩ := bind_eq_ok.mp h
  obtain ⟨ids, -, rfl⟩ := bind_return_eq_ok.mp h
  rw [List.map_map]
  exact (List.map_id' ids.eraseDups).symm ▸ nodup_eraseDups ids

/-- A variant that is requested takes the place of those that are configured. -/
private theorem exists_effectiveVariants (h : c.IsValid) {requested : Option String}
    (hrequested : ∀ name ∈ requested, (VariantId.ofName? name).isSome = true) :
    ∃ variants, c.effectiveVariants requested = .ok variants := by
  cases requested with
  | none => exact h.variants
  | some name =>
    obtain ⟨v, hv⟩ := exists_parseVariant_iff.mpr (hrequested name rfl)
    have hids : [name].mapM parseVariant = .ok [v] := mapM_eq_ok.mpr (.cons hv .nil)
    exact ⟨_, bind_eq_ok.mpr ⟨[name], rfl, bind_return_eq_ok.mpr ⟨[v], hids, rfl⟩⟩⟩

/-- The parts of `p` are read one by one. -/
theorem pipeline_eq_ok_iff {requested : Option String} {p : Pipeline} :
    c.pipeline requested = .ok p ↔ c.generatorIds = .ok p.generators ∧
      c.effectiveVariants requested = .ok p.variants ∧
      c.subdirectoryList = .ok p.subdirectories := by
  constructor
  · intro h
    obtain ⟨generators, hgenerators, h⟩ := bind_eq_ok.mp h
    obtain ⟨variants, hvariants, h⟩ := bind_eq_ok.mp h
    obtain ⟨subdirectories, hsubdirectories, rfl⟩ := bind_return_eq_ok.mp h
    exact ⟨hgenerators, hvariants, hsubdirectories⟩
  · rintro ⟨hgenerators, hvariants, hsubdirectories⟩
    exact bind_eq_ok.mpr ⟨_, hgenerators, bind_eq_ok.mpr ⟨_, hvariants,
      bind_return_eq_ok.mpr ⟨_, hsubdirectories, rfl⟩⟩⟩

/-- If `c` is valid, it gives a pipeline, unless a variant is requested that does not exist. -/
theorem exists_pipeline (h : c.IsValid) {requested : Option String}
    (hrequested : ∀ name ∈ requested, (VariantId.ofName? name).isSome = true) :
    ∃ p, c.pipeline requested = .ok p ∧ p.generators ≠ [] ∧ p.generators.Nodup ∧
      (p.variants.map (·.id)).Nodup := by
  obtain ⟨generators, hgenerators⟩ := h.generatorIds
  obtain ⟨variants, hvariants⟩ := exists_effectiveVariants h hrequested
  obtain ⟨subdirectories, hsubdirectories⟩ :
      ∃ subdirectories, c.subdirectoryList = .ok subdirectories := by
    refine exists_mapM_iff.mpr fun entry hentry => ?_
    obtain ⟨g, hg⟩ := exists_parseGenerator_iff.mpr (h.subdirectories entry hentry).1
    exact ⟨(g, entry.2), bind_return_eq_ok.mpr ⟨g, hg, rfl⟩⟩
  refine ⟨⟨generators, variants, subdirectories⟩, ?_,
    ne_nil_of_generatorIds h.generators hgenerators, nodup_of_generatorIds hgenerators,
    nodup_of_effectiveVariants hvariants⟩
  exact pipeline_eq_ok_iff.mpr ⟨hgenerators, hvariants, hsubdirectories⟩

end Config

end KindSchema
