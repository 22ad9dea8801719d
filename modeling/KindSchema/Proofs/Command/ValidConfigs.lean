import KindSchema.Proofs.Command.Execution
import KindSchema.Proofs.Command.Sessions
import KindSchema.Proofs.Config.FirstMentions
import KindSchema.Proofs.Run.Reports

/-!
# Commands with a valid configuration

* `Failure.OfValidConfig`: what can stop a command after the check of its configuration.
* `Config.logLevel_eq_error`, `Config.pipeline_eq_error`: of a valid configuration, only what is
  requested in its place can be wrong.
* `Config.suffices_of_validate`: a valid configuration gives a pipeline that it describes and a log
  level, and it stops neither `generate` nor `check`.
-/

namespace KindSchema

/-! ### Failures -/

/-- Why the kind files of a configuration cannot be found. -/
inductive LoadError.OfKindFiles : LoadError → Prop
  | unreadableDirectory (path : Path) (cause : FileError) :
    OfKindFiles (.unreadableDirectory path cause)
  | noKindFiles (directory : Path) : OfKindFiles (.noKindFiles directory)

/-- Why a command stops after the check of its configuration, if `variant` and `logLevel` may be
requested in the place of those that are configured. -/
inductive Failure.OfValidConfig (variant logLevel : Option String) : Failure → Prop
  | kindFiles {cause : LoadError} (h : cause.OfKindFiles) :
    OfValidConfig variant logLevel (.loading cause)
  | cellsFailed (failed total : Nat) : OfValidConfig variant logLevel (.cellsFailed failed total)
  | cellsRejected (failed : Nat) : OfValidConfig variant logLevel (.cellsRejected failed)
  | unknownVariant {name : String} (hrequested : variant = some name)
    (hunknown : VariantId.ofName? name = none) :
    OfValidConfig variant logLevel (.config (.unknownVariant name))
  | invalidLogLevel {text : String} (hrequested : logLevel = some text)
    (hunreadable : LogLevel.ofText? text = none) :
    OfValidConfig variant logLevel (.config (.invalidLogLevel text))

section

variable {σ : Type} [FileStore (StateM σ)] {s : σ} {e : LoadError}

private theorem kindFilesAt_eq_error {path : Path}
    (h : ((kindFilesAt path : StateM σ _).run s).1 = .error e) : e.OfKindFiles := by
  rw [kindFilesAt, run_bind_eq] at h
  split at h
  · rw [run_bind_eq] at h
    split at h
    · next cause _ =>
      cases h
      exact .unreadableDirectory path cause
    · dsimp only at h
      split at h
      · cases h
        exact .noKindFiles path
      · cases h
  · cases h

private theorem kindFilesAtAll_eq_error {paths : List Path}
    (h : ((kindFilesAtAll paths : StateM σ _).run s).1 = .error e) : e.OfKindFiles := by
  induction paths generalizing s with
  | nil => cases h
  | cons path paths ih =>
    rw [kindFilesAtAll, run_bind_eq] at h
    split at h
    · next hfiles =>
      cases h
      exact kindFilesAt_eq_error hfiles
    · rw [run_bind_eq] at h
      split at h
      · next hmore =>
        cases h
        exact ih hmore
      · cases h

namespace Config

variable {c : Config}

/-- The kinds of a configuration are loaded unless its kind files cannot be found. -/
private theorem loadKinds_eq_error (h : ((c.loadKinds : StateM σ _).run s).1 = .error e) :
    e.OfKindFiles := by
  rw [loadKinds, run_bind_eq] at h
  split at h
  · next hfiles =>
    cases h
    exact kindFilesAtAll_eq_error hfiles
  · cases h

end Config

end

namespace Config

variable {c : Config}

/-- If `c` is valid, only a log level that is requested cannot be read. -/
theorem logLevel_eq_error (h : c.IsValid) {requested : Option String} {e : ConfigError}
    (he : c.logLevel requested = .error e) :
    ∃ text, requested = some text ∧ LogLevel.ofText? text = none ∧ e = .invalidLogLevel text := by
  cases requested with
  | none =>
    obtain ⟨level, hlevel⟩ := h.logLevel
    cases hlevel.symm.trans he
  | some text =>
    unfold logLevel at he
    dsimp only [Option.or] at he
    split at he
    · cases he
    · next hunreadable =>
      cases he
      exact ⟨text, rfl, hunreadable, rfl⟩

/-- If `c` is valid, only a variant that is requested can be unknown. -/
theorem pipeline_eq_error (h : c.IsValid) {requested : Option String} {e : ConfigError}
    (he : c.pipeline requested = .error e) :
    ∃ name, requested = some name ∧ VariantId.ofName? name = none ∧ e = .unknownVariant name := by
  by_cases hknown : ∀ name ∈ requested, (VariantId.ofName? name).isSome = true
  · obtain ⟨p, hp, -⟩ := exists_pipeline h hknown
    cases hp.symm.trans he
  · push Not at hknown
    obtain ⟨name, rfl, hname⟩ := hknown
    have hunknown : VariantId.ofName? name = none := by simpa using hname
    have hparse : parseVariant name = .error (.unknownVariant name) := by
      rw [parseVariant, hunknown]
    -- The generators are read before the variants, so they are needed to reach the error.
    obtain ⟨generators, hgenerators⟩ := h.generatorIds
    have hpipeline : c.pipeline (some name) = .error (.unknownVariant name) := by
      rw [pipeline, hgenerators]
      change (c.effectiveVariants (some name) >>= _) = _
      rw [effectiveVariants, variantNames]
      change (([name].mapM parseVariant >>= _) >>= _) = _
      rw [List.mapM_cons, hparse]
      rfl
    cases hpipeline.symm.trans he
    exact ⟨name, rfl, hunknown, rfl⟩

end Config

/-! ### Commands -/

namespace Session

variable {σ : Type} {c : Config}

private theorem orConfigError_logLevel_endsIn (h : c.IsValid) (variant requested : Option String) :
    (orConfigError (c.logLevel requested) : Session (StateM σ) LogLevel).EndsIn (fun _ => True)
      (Failure.OfValidConfig variant requested) := by
  refine (EndsIn.orConfigError fun e he => ?_).mono fun _ _ => trivial
  obtain ⟨text, hrequested, hunreadable, rfl⟩ := Config.logLevel_eq_error h he
  exact .invalidLogLevel hrequested hunreadable

variable [FileStore (StateM σ)]

/-- What `generate` does with a valid configuration. -/
def generateValid (c : Config) (options : GenerateOptions) : Session (StateM σ) Unit :=
  orConfigError (c.logLevel options.logLevel) >>= fun _ => execute c options >>= conclude options

/-- What `check` does with a valid configuration. -/
def checkValid (c : Config) (logLevel : Option String) : Session (StateM σ) Unit := do
  let _ ← orConfigError (c.logLevel logLevel)
  say "✓ Config is valid"
  let failed ← checkConfig c
  if failed ≠ 0 then throw (.cellsRejected failed)
  say "✓ All kinds generate cleanly"

private theorem check_eq (config logLevel : Option String) :
    (check config logLevel : Session (StateM σ) Unit) =
      say ("Checking config: " ++ config.getD standardConfigFile) >>= fun _ =>
        loadValidConfig (config.getD standardConfigFile) >>= fun c => checkValid c logLevel :=
  rfl

/-- After the check of its configuration, `generate` goes on with it. -/
private theorem runFrom_generate {options : GenerateOptions} {s s' : σ}
    (hread : (Config.load ⟨options.config.getD standardConfigFile⟩ : StateM σ _).run s =
      (.ok c, s'))
    (h : c.validate = .ok ()) : (generate options : Session (StateM σ) Unit).runFrom {} s =
      (generateValid c options).runFrom {} s' := by
  rw [generate_eq, runFrom_bind_of_eq_ok (runFrom_loadValidConfig hread h {})]
  rfl

/-- After the check of its configuration, `check` goes on with it. -/
private theorem runFrom_check (config logLevel : Option String) {s s' : σ}
    (hread : (Config.load ⟨config.getD standardConfigFile⟩ : StateM σ _).run s = (.ok c, s'))
    (h : c.validate = .ok ()) :
    ∃ told, (check config logLevel : Session (StateM σ) Unit).runFrom {} s =
      (checkValid c logLevel).runFrom told s' := by
  obtain ⟨told, hsay⟩ := Concludes.say ("Checking config: " ++ config.getD standardConfigFile) {} s
  refine ⟨told, ?_⟩
  rw [check_eq, runFrom_bind_of_eq_ok hsay,
    runFrom_bind_of_eq_ok (runFrom_loadValidConfig hread h told)]

/-- With a valid configuration, `generate` stops only if its kinds cannot be found, if cells fail,
or if something else is requested that is unknown. -/
private theorem generateValid_endsIn (h : c.IsValid) (options : GenerateOptions) :
    (generateValid c options : Session (StateM σ) Unit).EndsIn (fun _ => True)
      (Failure.OfValidConfig options.variant options.logLevel) := by
  refine .bind (orConfigError_logLevel_endsIn h _ _) fun _ _ => ?_
  refine .bind (execute_endsIn (fun _ _ he => .kindFiles (Config.loadKinds_eq_error he))
    fun e he => ?_) fun report _ => ?_
  · obtain ⟨name, hrequested, hunknown, rfl⟩ := Config.pipeline_eq_error h he
    exact .unknownVariant hrequested hunknown
  · refine (EndsIn.of_concludes (concludes_conclude options report) fun f hf => ?_).mono
      fun _ _ => trivial
    rw [summary] at hf
    split at hf
    · cases hf
    · exact Except.error.inj hf ▸ .cellsFailed _ _

/-- The cells of a valid configuration are rendered unless its kinds cannot be found. -/
private theorem checkConfig_endsIn (h : c.IsValid) (logLevel : Option String) :
    (checkConfig c : Session (StateM σ) Nat).EndsIn (fun _ => True)
      (Failure.OfValidConfig none logLevel) := by
  refine .bind (.loaded fun _ _ he => .kindFiles (Config.loadKinds_eq_error he)) fun found _ => ?_
  refine .bind (.orConfigError fun e he => ?_) fun p _ => ?_
  · obtain ⟨name, hrequested, -⟩ := Config.pipeline_eq_error h he
    cases hrequested
  · refine .bind (.lift _) fun report _ => ?_
    refine .bind (.of_concludes_ok (.forM fun _ => .say _)) fun _ _ => ?_
    exact .bind (.of_concludes_ok (.forM fun _ => .warn _)) fun _ _ => .pure trivial

/-- With a valid configuration, `check` stops only if its kinds cannot be found, if cells fail, or
if a log level is requested that is unknown. -/
private theorem checkValid_endsIn (h : c.IsValid) (logLevel : Option String) :
    (checkValid c logLevel : Session (StateM σ) Unit).EndsIn (fun _ => True)
      (Failure.OfValidConfig none logLevel) := by
  refine .bind (orConfigError_logLevel_endsIn h _ _) fun _ _ => ?_
  refine .bind (.of_concludes_ok (.say _)) fun _ _ => ?_
  refine .bind (checkConfig_endsIn h logLevel) fun failed _ => ?_
  have hclean : (say "✓ All kinds generate cleanly" : Session (StateM σ) Unit).EndsIn
      (fun _ => True) (Failure.OfValidConfig none logLevel) :=
    .of_concludes_ok (.say _)
  split
  · exact .bind (.throw (.cellsRejected failed)) fun (_ : Unit) (_ : True) => hclean
  · exact hclean

end Session

/-- The valid configuration `c` gives a pipeline that it describes and a log level. The commands
that read it then fail only if its kinds cannot be found or if cells fail, unless a variant or a log
level is requested that there is not. -/
theorem Config.suffices_of_validate {c : Config} (h : c.validate = .ok ()) :
    (∃ p, c.pipeline none = .ok p ∧ c.Describes p) ∧ (∃ level, c.logLevel none = .ok level) ∧
    ∀ (σ : Type) [FileStore (StateM σ)] (file : Option String) (s s' : σ),
      (Config.load ⟨file.getD standardConfigFile⟩ : StateM σ _).run s = (.ok c, s') →
      (∀ options : GenerateOptions, options.config = file → ∀ f console after,
        (Session.generate options : Session (StateM σ) Unit).run.run s =
          ((.error f, console), after) →
        f.OfValidConfig options.variant options.logLevel) ∧
      ∀ logLevel f console after,
        (Session.check file logLevel : Session (StateM σ) Unit).run.run s =
          ((.error f, console), after) →
        f.OfValidConfig none logLevel := by
  have hvalid := validate_eq_ok_iff.mp h
  refine ⟨exists_describes hvalid, hvalid.logLevel, fun σ _ file s s' hread => ⟨?_, ?_⟩⟩
  · rintro options rfl f console after hrun
    refine (Session.generateValid_endsIn hvalid options).stopped {} s' f ?_
    rw [← Session.runFrom_generate hread h]
    exact congrArg (·.1.1) hrun
  · intro logLevel f console after hrun
    obtain ⟨told, hcheck⟩ := Session.runFrom_check file logLevel hread h
    refine (Session.checkValid_endsIn hvalid logLevel).stopped told s' f ?_
    rw [← hcheck]
    exact congrArg (·.1.1) hrun

namespace Sample

/-- The text of a configuration that names things more than once. -/
def deskText : String :=
  "kinds = [\"folder.json\"]\ngenerators = [\"go-types\", \"ts-index\", \"ts-types\", " ++
    "\"go-types\"]\nvariants = [\"with-params\", \"NoParams\", \"WithParams\"]\n\n" ++
    "[prefixes]\ngo-types = \"backend\"\n"

/-- A directory with that configuration. -/
def desk : FileTree :=
  shelf.put [standardConfigFile] (.text deskText)

/-- The configuration. -/
def deskConfig : Config where
  kinds := ["folder.json"]
  generators := ["go-types", "ts-index", "ts-types", "go-types"]
  variants := ["with-params", "NoParams", "WithParams"]
  subdirectories := [("go-types", "backend")]

/-- The pipeline that it asks for. -/
def deskPipeline : Pipeline where
  generators := [.goTypes, .tsIndex, .tsTypes]
  variants := [{ id := .withParams }, { id := .noParams }]
  subdirectories := [(.goTypes, "backend")]

private theorem load_desk : (Config.load ⟨standardConfigFile⟩ : StateM FileTree _).run desk =
    (.ok deskConfig, desk) :=
  load_shelf (by decide +kernel) rfl

/-- What it asks for, and what can stop the commands that read it. -/
theorem suffices_of_validate_desk : deskConfig.validate = .ok () ∧
    deskConfig.pipeline none = .ok deskPipeline ∧ deskConfig.Describes deskPipeline ∧
    (∀ options : GenerateOptions, options.config = none → ∀ f console after,
      (Session.generate options : Session (StateM FileTree) Unit).run.run desk =
        ((.error f, console), after) →
      f.OfValidConfig options.variant options.logLevel) ∧
    ∀ logLevel f console after,
      (Session.check none logLevel : Session (StateM FileTree) Unit).run.run desk =
        ((.error f, console), after) →
      f.OfValidConfig none logLevel := by
  have hvalid : deskConfig.validate = .ok () := by decide +kernel
  have hp : deskConfig.pipeline none = .ok deskPipeline := by decide +kernel
  obtain ⟨⟨p, hp', hdescribes⟩, -, hcommands⟩ := Config.suffices_of_validate hvalid
  obtain rfl : p = deskPipeline := Except.ok.inj (hp'.symm.trans hp)
  exact ⟨hvalid, hp, hdescribes, hcommands FileTree none desk desk load_desk⟩

/-- It is valid, but a log level that is requested in its place is not. -/
theorem check_loud_desk : deskConfig.validate = .ok () ∧
    (Config.load ⟨standardConfigFile⟩ : StateM FileTree _).run desk = (.ok deskConfig, desk) ∧
    ∃ console, (Session.check none (some "loud") : Session (StateM FileTree) Unit).run.run desk =
      ((.error (.config (.invalidLogLevel "loud")), console), desk) := by
  have hvalid : deskConfig.validate = .ok () := by decide +kernel
  have hlevel : deskConfig.logLevel (some "loud") = .error (.invalidLogLevel "loud") := by
    decide +kernel
  obtain ⟨told, hcheck⟩ := Session.runFrom_check none (some "loud") load_desk hvalid
  refine ⟨hvalid, load_desk, told, hcheck.trans ?_⟩
  rw [Session.checkValid, hlevel]
  rfl

end Sample

end KindSchema
