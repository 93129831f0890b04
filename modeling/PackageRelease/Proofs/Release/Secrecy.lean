import PackageRelease.Proofs.Registry.Secrecy
import PackageRelease.Proofs.Release.Requests

/-! # What a release tells about its token

  Two releases with the same settings, the same files and the same registry but with a token each
  come to the same. The key idea: the stages on this machine look neither at the token nor at the
  variables, so they leave counterparts, and the last stage uses the token for nothing but the
  header of its uploads.
-/

namespace PackageRelease

variable {p q : Holder}

/-! ### Uploads -/

namespace Run

/-- Uploads of two holders agree, wherever each of them gets its token from. -/
theorem agree_upload (hfirst : p.token.IsLegal) (hsecond : q.token.IsLegal) {settings : Settings}
    {given? other? : Option Token} (hgiven : UsesToken settings given? p.environment p.token)
    (hother : UsesToken settings other? q.environment q.token) {v w : World}
    (h : World.Counterparts p q v w) :
    Action.Agree (World.Counterparts p q) ((upload settings given?).perform v)
      ((upload settings other?).perform w) := by
  cases htarget : settings.target with
  | error failure =>
    unfold upload
    rw [Action.perform_bind, Action.perform_bind, Action.perform_lift, Action.perform_lift,
      htarget]
    exact ⟨rfl, h⟩
  | ok target =>
    by_cases hdry : settings.dryRun = true
    · rw [perform_upload_of_dryRun htarget hdry, perform_upload_of_dryRun htarget hdry]
      exact (World.likeness_counterparts p q).matches_dryRun target v w h
    · have hwet : settings.dryRun = false := by simpa using hdry
      rw [perform_upload htarget hwet v (h.environment_eq.1 ▸ hgiven),
        perform_upload htarget hwet w (h.environment_eq.2 ▸ hother)]
      exact (World.likeness_counterparts p q).matches_send
        (Registry.matches_exchange_uploadRequest hfirst hsecond) settings target v w h

/-! ### Stages -/

/-- The releases of two holders that stand at the same point, in worlds that differ in the variables
    and the tokens only. -/
structure Counterparts (p q : Holder) (r s : Run) : Prop where
  /-- The settings are the same. -/
  settings_eq : r.settings = s.settings
  /-- They stand in the same state. -/
  state_eq : r.state = s.state
  /-- They got there on the same way. -/
  history_eq : r.history = s.history
  /-- They have failed in the same stage, if they have. -/
  failedStage?_eq : r.failedStage? = s.failedStage?
  /-- Their worlds are counterparts. -/
  world : World.Counterparts p q r.world s.world

theorem steady_counterparts (p q : Holder) : Action.Steady (Counterparts p q) where
  record entry _ _ h :=
    { h with world := (World.steady_counterparts p q).record entry _ _ h.world }
  wait time _ _ h := { h with world := (World.steady_counterparts p q).wait time _ _ h.world }
  panic _ _ h := { h with world := (World.steady_counterparts p q).panic _ _ h.world }

theorem Counterparts.advance {r s : Run} (h : Counterparts p q r s) (stage : Stage) :
    Counterparts p q (advance stage r) (advance stage s) where
  settings_eq := by
    unfold Run.advance
    rw [h.state_eq]
    split <;> exact h.settings_eq
  state_eq := by rw [advance_state, advance_state]
  history_eq := by rw [advance_history, advance_history, h.state_eq, h.history_eq]
  failedStage?_eq := by rw [advance_failedStage?, advance_failedStage?, h.failedStage?_eq]
  world := by
    rw [advance_world, advance_world]
    exact h.world

theorem Counterparts.halt {r s : Run} (h : Counterparts p q r s) (stage : Stage)
    (failure : Failure) : Counterparts p q (halt stage failure r) (halt stage failure s) where
  settings_eq := h.settings_eq
  state_eq := rfl
  history_eq := congrArg (· ++ [_]) h.history_eq
  failedStage?_eq := rfl
  world := (World.steady_counterparts p q).record _ _ _ h.world

theorem likeness_counterparts (p q : Holder) : Likeness (Counterparts p q) where
  toSteady := steady_counterparts p q
  state_eq _ _ h := h.state_eq
  manifestPath_eq _ _ h := by rw [h.settings_eq]
  edits_eq _ _ h := by rw [h.settings_eq]
  files_eq _ _ h := h.world.files_eq
  store _ _ _ h := { h with world := { h.world with files_eq := rfl } }
  advance stage _ _ h := h.advance stage
  halt stage failure _ _ h := h.halt stage failure

theorem matches_checkTrigger :
    Action.Matches (Counterparts p q) checkTrigger checkTrigger :=
  (likeness_counterparts p q).matches_perform
    (Action.matches_reading fun r s h => by rw [h.settings_eq])

theorem matches_load : Action.Matches (Counterparts p q) load load := by
  refine (likeness_counterparts p q).matches_perform (Action.matches_get_bind fun r s h => ?_)
  rw [← h.settings_eq]
  refine Action.matches_bind ?_ (fun m => ?_) r s h
  · exact Action.matches_reading fun r s h => by rw [h.settings_eq, h.world.files_eq]
  · cases tagWarning? r.settings m with
    | some warning =>
      exact Action.matches_bind (Action.matches_record (steady_counterparts p q) _ _) fun _ =>
        Action.matches_pure _
    | none => exact Action.matches_pure m

theorem matches_runLocal : Action.Matches (Counterparts p q) runLocal runLocal :=
  have hlike := likeness_counterparts p q
  Action.matches_bind matches_checkTrigger fun _ =>
    Action.matches_bind matches_load fun loaded =>
      Action.matches_bind (hlike.matches_transform loaded) fun changed =>
        Action.matches_bind (hlike.matches_write changed) fun _ => Action.matches_pure changed

theorem agree_publish (hfirst : p.token.IsLegal) (hsecond : q.token.IsLegal) {r s : Run}
    (h : Counterparts p q r s) (hgiven : UsesToken r.settings r.token? p.environment p.token)
    (hother : UsesToken s.settings s.token? q.environment q.token) :
    Action.Agree (Counterparts p q) (publish.perform r) (publish.perform s) := by
  rw [← h.settings_eq] at hother
  obtain ⟨houtcome, hworld⟩ := agree_upload hfirst hsecond hgiven hother h.world
  rw [h.settings_eq] at houtcome hworld
  refine (likeness_counterparts p q).agree_perform h ?_
  rw [perform_publish_work, perform_publish_work, h.settings_eq]
  exact ⟨houtcome, rfl, h.state_eq, h.history_eq, h.failedStage?_eq, hworld⟩

/-! ### Whole releases -/

/-- Releases of two holders agree in everything but the tokens in the headers of their uploads. -/
theorem agree_runAll (hfirst : p.token.IsLegal) (hsecond : q.token.IsLegal) {r s : Run}
    (h : Counterparts p q r s) (hgiven : UsesToken r.settings r.token? p.environment p.token)
    (hother : UsesToken s.settings s.token? q.environment q.token) :
    Action.Agree (Counterparts p q) (runAll.perform r) (runAll.perform s) := by
  have hlocal := matches_runLocal r s h
  have hkept := keeps_surroundings_runLocal r
  have hkeptToo := keeps_surroundings_runLocal s
  rw [runAll_eq, Action.perform_bind, Action.perform_bind]
  generalize runLocal.perform r = performed at hlocal hkept ⊢
  generalize runLocal.perform s = followed at hlocal hkeptToo ⊢
  obtain ⟨outcome, between⟩ := performed
  obtain ⟨_, other⟩ := followed
  obtain ⟨rfl, hbetween⟩ := hlocal
  cases outcome with
  | error failure => exact ⟨rfl, hbetween⟩
  | ok m =>
    -- the token and where it comes from are still the same
    obtain ⟨hsettings, htoken, -⟩ : between.settings = r.settings ∧ between.token? = r.token? ∧
        between.world.environment = r.world.environment ∧
          between.world.attempts = r.world.attempts ∧
            between.world.panicked = r.world.panicked := by
      simpa [surroundings] using hkept
    obtain ⟨hsettingsToo, htokenToo, -⟩ : other.settings = s.settings ∧ other.token? = s.token? ∧
        other.world.environment = s.world.environment ∧
          other.world.attempts = s.world.attempts ∧
            other.world.panicked = s.world.panicked := by
      simpa [surroundings] using hkeptToo
    refine agree_publish hfirst hsecond hbetween ?_ ?_
    · rw [hsettings, htoken]
      exact hgiven
    · rw [hsettingsToo, htokenToo]
      exact hother

/-- Nothing has been done yet, with the same settings and the same files. -/
theorem counterparts_start (settings : Settings) (given? other? : Option Token) {v w : World}
    (h : World.Counterparts p q v w) :
    Counterparts p q (start settings given? v) (start settings other? w) where
  settings_eq := rfl
  state_eq := rfl
  history_eq := rfl
  failedStage?_eq := rfl
  world := h

end Run

end PackageRelease
