import PackageRelease.Proofs.Release.PlainFailure

/-! # The course of a call

  A release is driven by calls. The key idea: whatever a call is, it is a *course* through its
  stages, and one stage can only do three things to a release:

  - it is *refused* in a state that it does not start in, and nothing changes;
  - it *passes*, and the state it leads to is added to the history;
  - it *stops* the release, which is then in the state `failed` for good.
-/

namespace PackageRelease

/-! ### Calls -/

/-- What a release can be asked to do. -/
inductive Call where
  /-- To check the settings and the tag. -/
  | checkTrigger
  /-- To read the manifest. -/
  | load
  /-- To change a manifest. -/
  | transform (m : Manifest)
  /-- To store a manifest. -/
  | write (m : Manifest)
  /-- To pack and upload what is stored. -/
  | publish
  /-- To run all stages that stay on this machine. -/
  | runLocal
  /-- To run all stages. -/
  | runAll

/-- What a call that succeeds hands back. -/
inductive Response where
  /-- Nothing but the success. -/
  | done
  /-- A manifest. -/
  | manifest (m : Manifest)
  /-- The receipt for a published package. -/
  | receipt (r : Registry.Receipt)

/-- Whether a call ended with the receipt for a published package. -/
def Response.isPublished : Except Failure Response → Bool
  | .ok (.receipt _) => true
  | _ => false

namespace Call

/-- What is done for a call. -/
def action : Call → Action Run Response
  | .checkTrigger => do Run.checkTrigger; return .done
  | .load => do return .manifest (← Run.load)
  | .transform m => do return .manifest (← Run.transform m)
  | .write m => do Run.write m; return .done
  | .publish => do return .receipt (← Run.publish)
  | .runLocal => do return .manifest (← Run.runLocal)
  | .runAll => do return .receipt (← Run.runAll)

/-- The stage with which a call begins. -/
def first : Call → Stage
  | .checkTrigger | .runLocal | .runAll => .trigger
  | .load => .load
  | .transform _ => .transform
  | .write _ => .write
  | .publish => .publish

/-- The stages behind the first one, for a call that goes on. -/
def others : Call → List Stage
  | .runLocal => [.load, .transform, .write]
  | .runAll => [.load, .transform, .write, .publish]
  | _ => []

/-- The stages of a call in order. -/
def stages (call : Call) : List Stage := call.first :: call.others

/-- The results of calls made one after the other, and the release they leave. -/
def performAll : List Call → Run → List (Except Failure Response) × Run
  | [], run => ([], run)
  | call :: calls, run =>
    let (result, between) := call.action.perform run
    let (results, after) := performAll calls between
    (result :: results, after)

end Call

/-! ### What one stage can do -/

namespace Run

/-- The failure of an outcome, if it is one. -/
def failure? {α : Type} : Except Failure α → Option Failure
  | .ok _ => none
  | .error failure => some failure

/-- What a stage can do to a release, by the failure it ends with and the release it leaves. -/
inductive StageResult (stage : Stage) (run : Run) : Option Failure → Run → Prop where
  /-- The stage does not start in this state. -/
  | refused (hstate : run.state ≠ stage.requires) :
      StageResult stage run (some (.outOfOrder run.state stage.produces)) run
  /-- The stage did its work. -/
  | passed {after : Run} (hstate : run.state = stage.requires)
      (hafter : after.state = stage.produces)
      (hhistory : after.history =
        if stage.produces = run.state then run.history else run.history ++ [stage.produces])
      (hfailed : after.failedStage? = run.failedStage?)
      (hattempts : stage ≠ .publish → after.world.attempts = run.world.attempts) :
      StageResult stage run none after
  /-- The work of the stage failed. -/
  | stopped {after : Run} {cause : Failure} (hstate : run.state = stage.requires)
      (hcause : cause.stage? = none) (hafter : after.state = .failed)
      (hhistory : after.history = run.history ++ [.failed])
      (hfailed : after.failedStage? = some stage)
      (hattempts : stage ≠ .publish → after.world.attempts = run.world.attempts) :
      StageResult stage run (some (.inStage stage cause)) after

/-- The part of a release that only the moves between stages change. -/
def record (run : Run) : State × List State × Option Stage :=
  (run.state, run.history, run.failedStage?)

/-- The part of a release that only the last stage changes. -/
def surroundings (run : Run) : Settings × Option Token × Environment × List Attempt × Bool :=
  (run.settings, run.token?, run.world.environment, run.world.attempts, run.world.panicked)

/-- A stage in a state that it does not start in. -/
theorem perform_of_ne {α : Type} {stage : Stage} {run : Run} (h : run.state ≠ stage.requires)
    (work : Action Run α) : (perform stage work).perform run =
      (.error (.outOfOrder run.state stage.produces), run) := by
  unfold perform enter
  rw [Action.perform_bind, Action.perform_reading, if_neg h]

/-- A stage that starts moves on or halts, as its work ends. -/
theorem perform_of_eq {α : Type} {stage : Stage} {run : Run} (h : run.state = stage.requires)
    (work : Action Run α) : (perform stage work).perform run =
      match work.perform run with
      | (.ok result, after) => (.ok result, advance stage after)
      | (.error failure, after) => (.error (failure.atStage stage), halt stage failure after) := by
  unfold perform enter
  rw [Action.perform_bind, Action.perform_reading, if_pos h]
  dsimp only
  rw [Action.perform_bind, Action.perform_observe]
  rcases work.perform run with ⟨_ | _, _⟩ <;> rfl

theorem advance_state (stage : Stage) (run : Run) : (advance stage run).state = stage.produces := by
  unfold advance
  split
  · next h => exact h.symm
  · rfl

theorem advance_history (stage : Stage) (run : Run) : (advance stage run).history =
    if stage.produces = run.state then run.history else run.history ++ [stage.produces] := by
  unfold advance
  split <;> rfl

theorem advance_failedStage? (stage : Stage) (run : Run) :
    (advance stage run).failedStage? = run.failedStage? := by
  unfold advance
  split <;> rfl

theorem advance_world (stage : Stage) (run : Run) : (advance stage run).world = run.world := by
  unfold advance
  split <;> rfl

/-- A failure that names no stage gets exactly one. -/
theorem atStage_of_bare {cause : Failure} (h : cause.stage? = none) (stage : Stage) :
    cause.atStage stage = .inStage stage cause := by
  cases cause with
  | inStage => cases h
  | _ => rfl

/-- The three cases of a stage whose work keeps the record and fails without naming a stage. -/
theorem stageResult_perform {α : Type} {stage : Stage} {work : Action Run α}
    (hbare : Action.Bare work) (hrecord : Action.Keeps record work)
    (hsurroundings : stage ≠ .publish → Action.Keeps surroundings work) (run : Run) :
    StageResult stage run (failure? ((perform stage work).perform run).1)
      ((perform stage work).perform run).2 := by
  by_cases hstate : run.state = stage.requires
  · rw [perform_of_eq hstate]
    -- what matters of the work is its outcome and that it has kept the record
    have hkept := hrecord run
    have hsent : stage ≠ .publish → (work.perform run).2.world.attempts = run.world.attempts :=
      fun h => congrArg (fun view => view.2.2.2.1) (hsurroundings h run)
    have hplain := hbare run
    generalize work.perform run = performed at hkept hsent hplain ⊢
    obtain ⟨outcome, after⟩ := performed
    obtain ⟨hs, hh, hf⟩ : after.state = run.state ∧ after.history = run.history ∧
        after.failedStage? = run.failedStage? := by
      simpa [record] using hkept
    -- a result moves the release on, a failure halts it
    cases outcome with
    | ok result =>
      refine .passed hstate (advance_state stage after) ?_ ?_ ?_
      · exact (advance_history stage after).trans (by rw [hs, hh])
      · exact (advance_failedStage? stage after).trans hf
      · exact fun h => (congrArg World.attempts (advance_world stage after)).trans (hsent h)
    | error cause =>
      have hcause := hplain cause rfl
      show StageResult stage run (some (cause.atStage stage)) (halt stage cause after)
      rw [atStage_of_bare hcause]
      exact .stopped hstate hcause rfl (by rw [← hh]; rfl) rfl fun h => hsent h
  · rw [perform_of_ne hstate]
    exact .refused hstate

/-! ### The stages -/

/-- A release apart from its files and its log. -/
def outline (run : Run) : (State × List State × Option Stage) ×
    Settings × Option Token × Environment × List Attempt × Bool :=
  (record run, surroundings run)

/-- A stage that sends nothing: its work changes files and log at most. -/
def IsLocal {α : Type} (stage : Stage) (action : Action Run α) : Prop :=
  ∃ work, action = perform stage work ∧ Action.Bare work ∧ Action.Keeps outline work

theorem stageResult_of_isLocal {α : Type} {stage : Stage} {action : Action Run α}
    (h : IsLocal stage action) (run : Run) :
    StageResult stage run (failure? (action.perform run).1) (action.perform run).2 := by
  obtain ⟨work, rfl, hbare, hkeeps⟩ := h
  exact stageResult_perform hbare (fun run => congrArg Prod.fst (hkeeps run))
    (fun _ run => congrArg Prod.snd (hkeeps run)) run

theorem advance_surroundings (stage : Stage) (run : Run) :
    surroundings (advance stage run) = surroundings run := by
  unfold advance
  split <;> rfl

/-- A stage that sends nothing leaves everything around the release as it is, even if it fails. -/
theorem keeps_surroundings_of_isLocal {α : Type} {stage : Stage} {action : Action Run α}
    (h : IsLocal stage action) : Action.Keeps surroundings action := by
  obtain ⟨work, rfl, -, hkeeps⟩ := h
  -- moving on and halting change the record and the log only
  refine Action.keeps_bind (Action.keeps_reading _) fun _ => Action.keeps_bind
    (Action.keeps_observe fun run => congrArg Prod.snd (hkeeps run)) fun outcome => ?_
  cases outcome with
  | ok result =>
    exact Action.keeps_bind (Action.keeps_modify (advance_surroundings stage)) fun _ =>
      Action.keeps_pure result
  | error failure =>
    exact Action.keeps_bind (Action.keeps_modify fun _ => rfl) fun _ => Action.keeps_throw _

theorem keeps_outline_note (level : Level) (text : String) :
    Action.Keeps outline (Action.record level text : Action Run Unit) := fun _ => rfl

theorem isLocal_checkTrigger : IsLocal .trigger checkTrigger := by
  refine ⟨_, rfl, Action.bare_reading fun run => ?_, Action.keeps_reading _⟩
  exact bareOutcome_bind (bareOutcome_validate run.settings) fun _ =>
    bareOutcome_bind (bareOutcome_checkTag run.settings) fun _ => bareOutcome_ok _

theorem isLocal_load : IsLocal .load load := by
  refine ⟨_, rfl, ?_, ?_⟩
  · refine Action.bare_bind (fun _ => bareOutcome_ok _) fun run => Action.bare_bind
      (Action.bare_reading fun run => bareOutcome_load _ _) fun manifest => ?_
    -- a warning about the tag is an entry of the log and no failure
    cases tagWarning? run.settings manifest with
    | some warning => exact Action.bare_bind (Action.bare_modify _) fun _ => Action.bare_pure _
    | none => exact Action.bare_pure manifest
  · refine Action.keeps_bind Action.keeps_get fun run => Action.keeps_bind
      (Action.keeps_reading _) fun manifest => ?_
    cases tagWarning? run.settings manifest with
    | some warning => exact Action.keeps_bind (keeps_outline_note _ _) fun _ => Action.keeps_pure _
    | none => exact Action.keeps_pure manifest

theorem isLocal_transform (m : Manifest) : IsLocal .transform (transform m) := by
  refine ⟨_, rfl, ?_, ?_⟩
  · exact Action.bare_bind (fun _ => bareOutcome_ok _) fun run => Action.bare_bind
      (Action.bare_reading fun _ => bareOutcome_applyAll _ m) fun _ =>
        Action.bare_bind (Action.bare_modify _) fun _ => Action.bare_pure _
  · exact Action.keeps_bind Action.keeps_get fun run => Action.keeps_bind
      (Action.keeps_reading _) fun _ =>
        Action.keeps_bind (keeps_outline_note _ _) fun _ => Action.keeps_pure _

/-- Storing as a whole, by what it returns and the files it leaves. -/
theorem perform_store {m : Manifest} {path : Path} {run : Run} {outcome : Except Failure Unit}
    {files : FileSystem} (h : m.store run.world.files path = (outcome, files)) :
    (onWorld (Action.ofFunction fun world =>
      let (outcome, files) := m.store world.files path
      (outcome, { world with files }))).perform run =
        (outcome, { run with world := { run.world with files } }) := by
  unfold onWorld
  rw [Action.perform_ofFunction, Action.perform_ofFunction, h]

theorem isLocal_write (m : Manifest) : IsLocal .write (write m) := by
  refine ⟨_, rfl, ?_, ?_⟩
  · refine Action.bare_bind (fun _ => bareOutcome_ok _) fun run => Action.bare_bind
      (fun now => ?_) fun _ => Action.bare_modify _
    have hbare := bareOutcome_store m now.world.files run.settings.manifestPath
    rcases hstore : m.store now.world.files run.settings.manifestPath with ⟨outcome, files⟩
    rw [hstore] at hbare
    rw [perform_store hstore]
    exact hbare
  · refine Action.keeps_bind Action.keeps_get fun run =>
      Action.keeps_bind (fun now => ?_) fun _ => keeps_outline_note _ _
    rcases hstore : m.store now.world.files run.settings.manifestPath with ⟨outcome, files⟩
    rw [perform_store hstore]
    rfl

/-- The stages on this machine leave everything around the release as it is. -/
theorem keeps_surroundings_runLocal : Action.Keeps surroundings runLocal := by
  unfold runLocal
  exact Action.keeps_bind (keeps_surroundings_of_isLocal isLocal_checkTrigger) fun _ =>
    Action.keeps_bind (keeps_surroundings_of_isLocal isLocal_load) fun loaded =>
      Action.keeps_bind (keeps_surroundings_of_isLocal (isLocal_transform loaded)) fun changed =>
        Action.keeps_bind (keeps_surroundings_of_isLocal (isLocal_write changed)) fun _ =>
          Action.keeps_pure changed

theorem stageResult_publish (run : Run) :
    StageResult .publish run (failure? (publish.perform run).1) (publish.perform run).2 := by
  refine stageResult_perform ?_ ?_ (fun h => absurd rfl h) run
  · exact Action.bare_bind (fun _ => bareOutcome_ok _) fun run => Action.bare_bind
      (fun _ => bareOutcome_ok _) fun _ run => Action.bare_upload _ _ run.world
  · exact fun _ => rfl

/-! ### Courses -/

/-- The way of a release through the stages of a call, by the failure it ends with and the release
    it leaves. The first stage that does not pass ends it. -/
inductive Course : List Stage → Run → Option Failure → Run → Prop where
  /-- All stages have passed. -/
  | finished {run : Run} : Course [] run none run
  /-- A stage does not pass. -/
  | ended {stage : Stage} {rest : List Stage} {run after : Run} {failure : Failure}
      (hstage : StageResult stage run (some failure) after) :
      Course (stage :: rest) run (some failure) after
  /-- A stage passes and the others follow. -/
  | further {stage : Stage} {rest : List Stage} {run between after : Run}
      {failure? : Option Failure} (hstage : StageResult stage run none between)
      (hrest : Course rest between failure? after) :
      Course (stage :: rest) run failure? after

/-- The course of an action that starts with a stage and goes on with others. -/
theorem course_bind {α β : Type} {stage : Stage} {rest : List Stage} {action : Action Run α}
    {next : α → Action Run β}
    (hstage : ∀ run, StageResult stage run (failure? (action.perform run).1) (action.perform run).2)
    (hrest : ∀ result run, Course rest run (failure? ((next result).perform run).1)
      ((next result).perform run).2) (run : Run) :
    Course (stage :: rest) run (failure? ((action >>= next).perform run).1)
      ((action >>= next).perform run).2 := by
  rw [Action.perform_bind]
  have h := hstage run
  generalize action.perform run = performed at h ⊢
  obtain ⟨outcome, between⟩ := performed
  cases outcome with
  | ok result => exact .further h (hrest result between)
  | error failure => exact .ended h

/-- The course of an action that starts with a stage on this machine. -/
theorem course_bind_of_isLocal {α β : Type} {stage : Stage} {rest : List Stage}
    {action : Action Run α} {next : α → Action Run β} (h : IsLocal stage action)
    (hrest : ∀ result run, Course rest run (failure? ((next result).perform run).1)
      ((next result).perform run).2) (run : Run) :
    Course (stage :: rest) run (failure? ((action >>= next).perform run).1)
      ((action >>= next).perform run).2 :=
  course_bind (stageResult_of_isLocal h) hrest run

/-- The course of handing back a result. -/
theorem course_pure {α : Type} (result : α) (run : Run) :
    Course [] run (failure? ((pure result : Action Run α).perform run).1)
      ((pure result : Action Run α).perform run).2 := .finished

/-- The course of the stages on this machine, followed by something else. -/
theorem course_runLocal {β : Type} {rest : List Stage} {next : Manifest → Action Run β}
    (hrest : ∀ m run, Course rest run (failure? ((next m).perform run).1) ((next m).perform run).2)
    (run : Run) :
    Course (.trigger :: .load :: .transform :: .write :: rest) run
      (failure? ((runLocal >>= next).perform run).1) ((runLocal >>= next).perform run).2 := by
  -- the stages in one row, so that each is the first of what is left
  have h : runLocal >>= next = checkTrigger >>= fun _ => load >>= fun loaded =>
      transform loaded >>= fun changed => write changed >>= fun _ => next changed := by
    unfold runLocal
    simp only [bind_assoc, pure_bind]
  rw [h]
  exact course_bind_of_isLocal isLocal_checkTrigger (fun _ =>
    course_bind_of_isLocal isLocal_load fun loaded =>
      course_bind_of_isLocal (isLocal_transform loaded) fun changed =>
        course_bind_of_isLocal (isLocal_write changed) fun _ => hrest changed) run

theorem runAll_eq : runAll = runLocal >>= fun _ => publish := by
  unfold runAll
  simp only [discard, map_const, Function.comp_apply, map_eq_pure_bind, bind_assoc, pure_bind,
    Function.const]

end Run

/-- To run all stages is to run those on this machine, and the last one behind them. -/
theorem Call.action_runAll : Call.action .runAll =
    Run.runLocal >>= fun _ => Run.publish >>= fun receipt => pure (.receipt receipt) := by
  unfold Call.action
  rw [Run.runAll_eq, bind_assoc]

/-- Every call is a course through its stages. -/
theorem Call.course (call : Call) (run : Run) :
    Run.Course call.stages run (Run.failure? (call.action.perform run).1)
      (call.action.perform run).2 := by
  cases call with
  | checkTrigger =>
    exact Run.course_bind_of_isLocal Run.isLocal_checkTrigger (fun _ => Run.course_pure _) run
  | load => exact Run.course_bind_of_isLocal Run.isLocal_load (fun _ => Run.course_pure _) run
  | transform m =>
    exact Run.course_bind_of_isLocal (Run.isLocal_transform m) (fun _ => Run.course_pure _) run
  | write m =>
    exact Run.course_bind_of_isLocal (Run.isLocal_write m) (fun _ => Run.course_pure _) run
  | publish => exact Run.course_bind Run.stageResult_publish (fun _ => Run.course_pure _) run
  | runLocal => exact Run.course_runLocal (fun _ => Run.course_pure _) run
  | runAll =>
    rw [action_runAll]
    exact Run.course_runLocal (fun _ => Run.course_bind Run.stageResult_publish fun _ =>
      Run.course_pure _) run

end PackageRelease
