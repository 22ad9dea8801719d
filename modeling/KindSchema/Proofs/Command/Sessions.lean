import KindSchema.Command.Generate
import KindSchema.Proofs.Kind.Validation

/-!
# How sessions end

* `Session.EndsIn`: of which sort the values are that a session returns, and the failures that it
  stops with. It holds of a session if it holds of the parts.
* `Session.runFrom_bind_cases`: how a session of two parts ends.
-/

namespace KindSchema

namespace Session

variable {σ α β : Type}

/-- Runs `session` after `told` has been told. -/
def runFrom (session : Session (StateM σ) α) (told : Console) (s : σ) :
    (Except Failure α × Console) × σ :=
  (StateT.run (ExceptT.run session) told).run s

/-- Of the session `session` followed by `next`, the first stops and so do both, or it returns and
the second goes on. -/
theorem runFrom_bind_cases (session : Session (StateM σ) α) (next : α → Session (StateM σ) β)
    (told : Console) (s : σ) :
    (∃ f told' s', session.runFrom told s = ((.error f, told'), s') ∧
      (session >>= next).runFrom told s = ((.error f, told'), s')) ∨
    ∃ a told' s', session.runFrom told s = ((.ok a, told'), s') ∧
      (session >>= next).runFrom told s = (next a).runFrom told' s' := by
  have hbind : (session >>= next).runFrom told s =
      (StateT.run (ExceptT.bindCont next (session.runFrom told s).1.1)
        (session.runFrom told s).1.2).run (session.runFrom told s).2 := rfl
  cases hsession : session.runFrom told s with
  | mk ended s' =>
    rw [hsession] at hbind
    obtain ⟨f | a, told'⟩ := ended
    · exact .inl ⟨f, told', s', rfl, hbind⟩
    · exact .inr ⟨a, told', s', rfl, hbind⟩

/-- The session `session` followed by `next` goes on where the first has returned. -/
theorem runFrom_bind_of_eq_ok {session : Session (StateM σ) α} {told told' : Console} {s s' : σ}
    {a : α} (h : session.runFrom told s = ((.ok a, told'), s')) (next : α → Session (StateM σ) β) :
    (session >>= next).runFrom told s = (next a).runFrom told' s' := by
  obtain ⟨f, _, _, hstopped, -⟩ | ⟨a', _, _, hreturned, hboth⟩ :=
    runFrom_bind_cases session next told s
  · cases hstopped.symm.trans h
  · cases hreturned.symm.trans h
    exact hboth

/-- If `session` followed by `next` returns, both do. -/
theorem exists_of_bind_eq_ok {session : Session (StateM σ) α} {next : α → Session (StateM σ) β}
    {told told' : Console} {s s' : σ} {b : β}
    (h : (session >>= next).runFrom told s = ((.ok b, told'), s')) :
    ∃ a between t, session.runFrom told s = ((.ok a, between), t) ∧
      (next a).runFrom between t = ((.ok b, told'), s') := by
  obtain ⟨f, _, _, -, hboth⟩ | ⟨a, between, t, hfirst, hboth⟩ :=
    runFrom_bind_cases session next told s
  · cases hboth.symm.trans h
  · exact ⟨a, between, t, hfirst, hboth.symm.trans h⟩

/-- What is loaded is what an action of the store gives. -/
private theorem runFrom_loaded (action : StateM σ (Except LoadError α)) (told : Console) (s : σ) :
    (loaded action).runFrom told s =
      (((action.run s).1.mapError .loading, told), (action.run s).2) := by
  have hlift : (liftM action : Session (StateM σ) _).runFrom told s =
      ((.ok (action.run s).1, told), (action.run s).2) := rfl
  rw [loaded, runFrom_bind_of_eq_ok hlift]
  cases (action.run s).1 <;> rfl

theorem runFrom_loaded_of_eq_ok {action : StateM σ (Except LoadError α)} {s s' : σ} {a : α}
    (h : action.run s = (.ok a, s')) (told : Console) :
    (loaded action).runFrom told s = ((.ok a, told), s') := by
  rw [runFrom_loaded, h]
  rfl

theorem runFrom_loaded_eq_ok {action : StateM σ (Except LoadError α)} {told told' : Console}
    {s s' : σ} {a : α} (h : (loaded action).runFrom told s = ((.ok a, told'), s')) :
    action.run s = (.ok a, s') ∧ told' = told := by
  rw [runFrom_loaded, Prod.mk.injEq, Prod.mk.injEq] at h
  obtain ⟨⟨hresult, rfl⟩, rfl⟩ := h
  exact ⟨Prod.ext (mapError_eq_ok.mp hresult) rfl, rfl⟩

theorem runFrom_orConfigError_eq_ok {result : Except ConfigError α} {told told' : Console}
    {s s' : σ} {a : α} (h : (orConfigError result).runFrom told s = ((.ok a, told'), s')) :
    result = .ok a ∧ told' = told ∧ s' = s := by
  cases result with
  | ok b =>
    cases h
    exact ⟨rfl, rfl, rfl⟩
  | error e => cases h

/-- That `session` touches no file and ends with `result`, whatever it tells. -/
def Concludes (result : Except Failure α) (session : Session (StateM σ) α) : Prop :=
  ∀ told s, ∃ told', session.runFrom told s = ((result, told'), s)

namespace Concludes

variable {result : Except Failure α}

private theorem pure (a : α) : Concludes (.ok a) (Pure.pure a : Session (StateM σ) α) :=
  fun told _ => ⟨told, rfl⟩

private theorem throw (f : Failure) :
    Concludes (.error f) (MonadExcept.throw f : Session (StateM σ) α) :=
  fun told _ => ⟨told, rfl⟩

theorem say (line : String) : Concludes (.ok ()) (Session.say line : Session (StateM σ) Unit) :=
  fun _ _ => ⟨_, rfl⟩

theorem warn (line : String) : Concludes (.ok ()) (Session.warn line : Session (StateM σ) Unit) :=
  fun _ _ => ⟨_, rfl⟩

private theorem bind {session : Session (StateM σ) β} {b : β} {next : β → Session (StateM σ) α}
    (hsession : session.Concludes (.ok b)) (hnext : (next b).Concludes result) :
    (session >>= next).Concludes result := by
  intro told s
  obtain ⟨told', hfirst⟩ := hsession told s
  obtain ⟨told'', hsecond⟩ := hnext told' s
  exact ⟨told'', (runFrom_bind_of_eq_ok hfirst next).trans hsecond⟩

theorem forM {l : List β} {part : β → Session (StateM σ) Unit}
    (h : ∀ b, (part b).Concludes (.ok ())) : (l.forM part).Concludes (.ok ()) := by
  induction l with
  | nil => exact .pure ()
  | cons b l ih => exact .bind (h b) ih

end Concludes

/-- That `session` only returns values for which `returns` holds, and only stops with failures for
which `stops` holds. -/
structure EndsIn (returns : α → Prop) (stops : Failure → Prop) (session : Session (StateM σ) α) :
    Prop where
  returned : ∀ told s a, (session.runFrom told s).1.1 = .ok a → returns a
  stopped : ∀ told s f, (session.runFrom told s).1.1 = .error f → stops f

namespace EndsIn

variable {returns : α → Prop} {stops : Failure → Prop}

theorem pure {a : α} (h : returns a) :
    EndsIn returns stops (Pure.pure a : Session (StateM σ) α) where
  returned _ _ b hb := Except.ok.inj hb ▸ h
  stopped _ _ f hf := by cases hf

theorem throw {f : Failure} (h : stops f) :
    EndsIn returns stops (MonadExcept.throw f : Session (StateM σ) α) where
  returned _ _ b hb := by cases hb
  stopped _ _ g hg := Except.error.inj hg ▸ h

/-- What `session` returns may be known of in `next`. -/
theorem bind {session : Session (StateM σ) α} {next : α → Session (StateM σ) β}
    {returns' : β → Prop} (hsession : EndsIn returns stops session)
    (hnext : ∀ a, returns a → EndsIn returns' stops (next a)) :
    EndsIn returns' stops (session >>= next) := by
  constructor
  -- A result of both is one of the second, started where the first has ended.
  · intro told s b hb
    obtain ⟨f, told', s', -, hboth⟩ | ⟨a, told', s', hfirst, hboth⟩ :=
      runFrom_bind_cases session next told s
    · rw [hboth] at hb
      cases hb
    · rw [hboth] at hb
      exact (hnext a (hsession.returned told s a (by rw [hfirst]))).returned told' s' b hb
  · intro told s g hg
    obtain ⟨f, told', s', hfirst, hboth⟩ | ⟨a, told', s', hfirst, hboth⟩ :=
      runFrom_bind_cases session next told s
    · rw [hboth] at hg
      exact hsession.stopped told s g (by rw [hfirst]; exact congrArg _ (Except.error.inj hg))
    · rw [hboth] at hg
      exact (hnext a (hsession.returned told s a (by rw [hfirst]))).stopped told' s' g hg

/-- If `session` followed by `next` stops as the first cannot, it does so in the second. -/
theorem exists_of_bind_eq_error {session : Session (StateM σ) α} {next : α → Session (StateM σ) β}
    {told told' : Console} {s s' : σ} {f : Failure} (hsession : EndsIn returns stops session)
    (hstops : ¬ stops f) (h : (session >>= next).runFrom told s = ((.error f, told'), s')) :
    ∃ a between t, session.runFrom told s = ((.ok a, between), t) ∧
      (next a).runFrom between t = ((.error f, told'), s') := by
  obtain ⟨g, between, t, hfirst, hboth⟩ | ⟨a, between, t, hfirst, hboth⟩ :=
    runFrom_bind_cases session next told s
  · cases hboth.symm.trans h
    exact absurd (hsession.stopped told s f (by rw [hfirst])) hstops
  · exact ⟨a, between, t, hfirst, hboth.symm.trans h⟩

theorem mono {session : Session (StateM σ) α} (h : EndsIn returns stops session)
    {returns' : α → Prop} (hreturns : ∀ a, returns a → returns' a) :
    EndsIn returns' stops session where
  returned told s a ha := hreturns a (h.returned told s a ha)
  stopped := h.stopped

/-- A session that touches no file and ends with `result` ends in this way. -/
theorem of_concludes {session : Session (StateM σ) α} {result : Except Failure α}
    (h : session.Concludes result) (hstops : ∀ f, result = .error f → stops f) :
    EndsIn (fun a => result = .ok a) stops session where
  returned told s a ha := by
    obtain ⟨told', hrun⟩ := h told s
    rwa [hrun] at ha
  stopped told s f hf := by
    obtain ⟨told', hrun⟩ := h told s
    rw [hrun] at hf
    exact hstops f hf

/-- A session that returns whatever happens stops with no failure. -/
theorem of_concludes_ok {session : Session (StateM σ) α} {a : α} (h : session.Concludes (.ok a)) :
    EndsIn (fun _ => True) stops session :=
  (of_concludes h fun _ => nofun).mono fun _ _ => trivial

/-- An action of the store cannot stop a session. -/
theorem lift (action : StateM σ α) :
    EndsIn (fun _ => True) stops (liftM action : Session (StateM σ) α) where
  returned _ _ _ _ := trivial
  stopped _ _ _ hf := by cases hf

/-- What cannot be loaded stops a session. -/
theorem loaded {action : StateM σ (Except LoadError α)}
    (h : ∀ s e, (action.run s).1 = .error e → stops (.loading e)) :
    EndsIn (fun _ => True) stops (Session.loaded action) where
  returned _ _ _ _ := trivial
  stopped told s f hf := by
    rw [runFrom_loaded] at hf
    cases hresult : (action.run s).1 with
    | ok a =>
      rw [hresult] at hf
      cases hf
    | error e =>
      rw [hresult] at hf
      exact Except.error.inj hf ▸ h s e hresult

/-- What is wrong with a configuration stops a session. -/
theorem orConfigError {result : Except ConfigError α}
    (h : ∀ e, result = .error e → stops (.config e)) :
    EndsIn (fun a => result = .ok a) stops
      (Session.orConfigError result : Session (StateM σ) α) := by
  cases result with
  | ok a => exact .pure rfl
  | error e => exact .throw (h e rfl)

end EndsIn

/-! ### The command `generate` -/

/-- How a run with `report` ends. -/
def summary (report : Report) : Except Failure Unit :=
  if report.isSuccess then .ok ()
  else .error (.cellsFailed report.failures.length
    (report.failures.length + report.written.length))

/-- What `generate` does after a run: it tells what became of the cells. -/
def conclude (options : GenerateOptions) (report : Report) : Session (StateM σ) Unit := do
  report.written.forM fun f => say ("  ✓ " ++ f.path.text)
  report.skipped.forM fun cell => say ("  - " ++ cell.text ++ " (variant not supported by kind)")
  warnOfFailures report
  if !report.isSuccess then
    throw (.cellsFailed report.failures.length (report.failures.length + report.written.length))
  if options.check then say "✓ Generated output is up to date"
  else say ("✓ Generated " ++ toString report.written.length ++ " file(s)")

/-- What `generate` does after a run changes nothing, and it fails if cells have failed. -/
theorem concludes_conclude (options : GenerateOptions) (report : Report) :
    (conclude options report : Session (StateM σ) Unit).Concludes (summary report) := by
  refine .bind (.forM fun _ => .say _) (.bind (.forM fun _ => .say _)
    (.bind (.forM fun _ => .warn _) ?_))
  rw [summary]
  cases report.isSuccess with
  | false => exact .throw _
  | true =>
    rw [if_pos rfl]
    change Concludes _ (if options.check then _ else _)
    split
    · exact .say _
    · exact .say _

section

variable [FileStore (StateM σ)]

theorem generate_eq (options : GenerateOptions) : (generate options : Session (StateM σ) Unit) =
    loadValidConfig (options.config.getD standardConfigFile) >>= fun c =>
      orConfigError (c.logLevel options.logLevel) >>= fun _ =>
        execute c options >>= conclude options :=
  rfl

/-- The configuration `c` that is read from `path` is returned, if it is valid. -/
theorem runFrom_loadValidConfig {path : String} {c : Config} {s s' : σ}
    (hread : (Config.load ⟨path⟩ : StateM σ _).run s = (.ok c, s')) (hvalid : c.validate = .ok ())
    (told : Console) : (loadValidConfig path : Session (StateM σ) Config).runFrom told s =
      ((.ok c, told), s') := by
  rw [loadValidConfig, runFrom_bind_of_eq_ok (runFrom_loaded_of_eq_ok hread told), hvalid]
  rfl

/-- The configuration `c` that is returned for `path` is valid, and is what was read. -/
theorem runFrom_loadValidConfig_eq_ok {path : String} {c : Config} {told told' : Console}
    {s s' : σ} (h : (loadValidConfig path : Session (StateM σ) Config).runFrom told s =
      ((.ok c, told'), s')) :
    (Config.load ⟨path⟩ : StateM σ _).run s = (.ok c, s') ∧ c.validate = .ok () ∧ told' = told := by
  obtain ⟨c', between, t, hloaded, hrest⟩ := exists_of_bind_eq_ok h
  obtain ⟨hload, rfl⟩ := runFrom_loaded_eq_ok hloaded
  split at hrest
  · next hvalid =>
    cases hrest
    exact ⟨hload, hvalid, rfl⟩
  · cases hrest

/-- A configuration that is returned for `path` is valid. -/
theorem loadValidConfig_endsIn {stops : Failure → Prop} (path : String)
    (hloading : ∀ e, stops (.loading e)) (hinvalid : ∀ e, stops (.invalidConfig ⟨path⟩ e)) :
    EndsIn (fun c => c.validate = .ok ()) stops
      (loadValidConfig path : Session (StateM σ) Config) := by
  refine .bind (.loaded fun _ e _ => hloading e) fun c _ => ?_
  split
  · next hvalid => exact .pure hvalid
  · next e _ => exact .throw (hinvalid e)

/-- The report of a run can be had unless there is no pipeline. -/
theorem execute_endsIn {stops : Failure → Prop} {c : Config} {options : GenerateOptions}
    (hloading : ∀ s e, ((c.loadKinds : StateM σ _).run s).1 = .error e → stops (.loading e))
    (hpipeline : ∀ e, c.pipeline options.variant = .error e → stops (.config e)) :
    EndsIn (fun _ => True) stops (execute c options : Session (StateM σ) Report) := by
  refine .bind (.loaded hloading) fun found _ => ?_
  refine .bind (.orConfigError hpipeline) fun p _ => ?_
  refine .bind (.of_concludes_ok (.say _)) fun _ _ => ?_
  exact .bind (.lift _) fun report _ => .pure trivial

end

end Session

end KindSchema
