import Mathlib.Data.List.Chain
import PackageRelease.Proofs.Release.Course

/-! # The life of a release

  Whatever a release is asked to do, its history shows the steps it has taken. The key idea: state,
  history and failed stage fit together in a way that each of the three results of a stage keeps,
  so a course keeps it, and so do any number of calls.
-/

namespace PackageRelease

/-! ### What a stage keeps -/

/-- The states in the order in which a release goes through them. -/
def State.order : List State := [.idle, .manifestLoaded, .transformed, .written, .published]

/-- The order up to a state. -/
def State.upTo (state : State) : List State := State.order.take (state.rank + 1)

namespace Run

/-- The record of a release tells where it stands: history, state and failed stage fit together. -/
inductive Recorded (run : Run) : Prop where
  /-- No stage has failed. -/
  | alive (hstate : run.state ≠ .failed) (hhistory : run.history = run.state.upTo)
      (hfailed : run.failedStage? = none)
  /-- A stage has failed in the state that it needs. -/
  | ended (stage : Stage) (hstate : run.state = .failed)
      (hhistory : run.history = stage.requires.upTo ++ [.failed])
      (hfailed : run.failedStage? = some stage)

theorem recorded_start (settings : Settings) (token? : Option Token) (world : World) :
    Recorded (start settings token? world) := by
  refine .alive ?_ rfl rfl
  intro h
  cases h

theorem upTo_getLast? {state : State} (h : state ≠ .failed) : state.upTo.getLast? = some state := by
  cases state with
  | failed => exact absurd rfl h
  | _ => rfl

/-- The history of a recorded release is a beginning of the order, and a failure may end it before
    the last state. -/
theorem Recorded.history_eq {run : Run} (h : Recorded run) :
    ∃ steps, 1 ≤ steps ∧ steps ≤ State.order.length ∧
      (run.history = State.order.take steps ∨
        steps < State.order.length ∧ run.history = State.order.take steps ++ [.failed]) := by
  cases h with
  | alive hstate hhistory _ =>
    refine ⟨run.state.rank + 1, Nat.le_add_left 1 _, ?_, .inl hhistory⟩
    cases hrun : run.state with
    | failed => exact absurd hrun hstate
    | _ => decide
  | ended stage _ hhistory _ =>
    -- a stage that starts has a state behind it, so a failure ends a shorter history
    have hrank : stage.requires.rank + 1 < State.order.length := by cases stage <;> decide
    exact ⟨stage.requires.rank + 1, Nat.le_add_left 1 _, Nat.le_of_lt hrank, .inr ⟨hrank, hhistory⟩⟩

theorem Recorded.getLast?_history {run : Run} (h : Recorded run) :
    run.history.getLast? = some run.state := by
  cases h with
  | alive hstate hhistory _ => rw [hhistory, upTo_getLast? hstate]
  | ended stage hstate hhistory _ => rw [hhistory, hstate, List.getLast?_concat]

theorem Recorded.isSome_failedStage? {run : Run} (h : Recorded run) :
    run.failedStage?.isSome = true ↔ run.state = .failed := by
  cases h with
  | alive hstate _ hfailed => simp [hfailed, hstate]
  | ended stage hstate _ hfailed => simp [hfailed, hstate]

/-- The state that the failed stage needs comes just before the end. -/
theorem Recorded.history_of_failedStage? {run : Run} (h : Recorded run) {stage : Stage}
    (hstage : run.failedStage? = some stage) :
    ∃ before, run.history = before ++ [stage.requires, .failed] := by
  cases h with
  | alive _ _ hfailed => exact absurd (hfailed.symm.trans hstage) (by simp)
  | ended failed _ hhistory hfailed =>
    obtain rfl : failed = stage := Option.some.inj (hfailed.symm.trans hstage)
    refine ⟨failed.requires.upTo.dropLast, hhistory.trans ?_⟩
    cases failed <;> rfl

/-- No stage starts in a state without a successor. -/
theorem requires_ne_of_isTerminal {state : State} (h : state.isTerminal = true) (stage : Stage) :
    state ≠ stage.requires := by
  cases stage <;> rintro rfl <;> cases h

theorem produces_upTo (stage : Stage) :
    (if stage.produces = stage.requires then stage.requires.upTo
      else stage.requires.upTo ++ [stage.produces]) = stage.produces.upTo := by
  cases stage <;> rfl

theorem requires_ne_failed (stage : Stage) : stage.requires ≠ .failed :=
  fun h => requires_ne_of_isTerminal rfl stage h.symm

theorem produces_ne_failed (stage : Stage) : stage.produces ≠ .failed := by
  cases stage <;> intro h <;> cases h

theorem recorded_of_stageResult {stage : Stage} {run after : Run} {failure? : Option Failure}
    (h : StageResult stage run failure? after) (hrun : Recorded run) : Recorded after := by
  cases h with
  | refused => exact hrun
  | passed hstate hafter hhistory hfailed _ =>
    -- the stage has started, so the release has not ended before
    cases hrun with
    | ended _ hstopped _ _ => exact absurd (hstate.symm.trans hstopped) (requires_ne_failed stage)
    | alive _ hbefore hnone =>
      refine .alive (hafter ▸ produces_ne_failed stage) ?_ (hfailed.trans hnone)
      rw [hhistory, hbefore, hstate, hafter]
      exact produces_upTo stage
  | stopped hstate _ hafter hhistory hfailed _ =>
    cases hrun with
    | ended _ hstopped _ _ => exact absurd (hstate.symm.trans hstopped) (requires_ne_failed stage)
    | alive _ hbefore _ =>
      refine .ended stage hafter ?_ hfailed
      rw [hhistory, hbefore, hstate]

/-! ### What a course keeps -/

theorem recorded_of_course {stages : List Stage} {run after : Run} {failure? : Option Failure}
    (h : Course stages run failure? after) (hrun : Recorded run) : Recorded after := by
  induction h with
  | finished => exact hrun
  | ended hstage => exact recorded_of_stageResult hstage hrun
  | further hstage _ ih => exact ih (recorded_of_stageResult hstage hrun)

/-- A course whose first stage does not start in the state of the release is over at once. -/
theorem course_refused {stage : Stage} {rest : List Stage} {run after : Run}
    {failure? : Option Failure} (h : Course (stage :: rest) run failure? after)
    (hstate : run.state ≠ stage.requires) :
    failure? = some (.outOfOrder run.state stage.produces) ∧ after = run := by
  cases h with
  | ended hstage =>
    cases hstage with
    | refused => exact ⟨rfl, rfl⟩
    | stopped hrun => exact absurd hrun hstate
  | further hstage =>
    cases hstage with
    | passed hrun => exact absurd hrun hstate

/-- A course that begins in the right state and goes from stage to stage can only end with a failure
    of one of its stages, which is named once. -/
theorem course_failure {stages : List Stage} {run after : Run} {failure? : Option Failure}
    (h : Course stages run failure? after)
    (hchain : stages.IsChain fun stage next => stage.produces = next.requires)
    (hfirst : ∀ stage ∈ stages.head?, run.state = stage.requires) {failure : Failure}
    (hfailure : failure? = some failure) :
    ∃ stage ∈ stages, ∃ cause, failure = .inStage stage cause ∧ cause.stage? = none ∧
      after.failedStage? = some stage := by
  induction h with
  | finished => cases hfailure
  | @ended stage rest run after first hstage =>
    cases hfailure
    cases hstage with
    | refused hstate => exact absurd (hfirst stage rfl) hstate
    | stopped _ hcause _ _ hfailed _ =>
      exact ⟨stage, List.mem_cons_self, _, rfl, hcause, hfailed⟩
  | @further stage rest run between after _ hstage _ ih =>
    -- the stage that has passed leads to the state that the next one needs
    have hnext : ∀ next ∈ rest.head?, between.state = next.requires := by
      intro next hmem
      cases hstage with
      | passed _ hafter _ _ _ =>
        rw [hafter]
        cases rest with
        | nil => cases hmem
        | cons head tail =>
          cases hmem
          exact (List.isChain_cons_cons.mp hchain).1
    obtain ⟨other, hmem, hrest⟩ := ih hchain.tail hnext hfailure
    exact ⟨other, List.mem_cons_of_mem _ hmem, hrest⟩

/-- Requests belong to the stage that sends the package. When it comes last, a course that has sent
    one ends as published or with a failure of this stage. -/
theorem course_attempts {stages : List Stage} {run after : Run} {failure? : Option Failure}
    (h : Course stages run failure? after) (hlast : .publish ∉ stages.dropLast) :
    after.world.attempts = run.world.attempts ∨ after.state = .published ∨
      after.failedStage? = some .publish := by
  induction h with
  | finished => exact .inl rfl
  | @ended stage rest run after failure hstage =>
    cases hstage with
    | refused => exact .inl rfl
    | stopped _ _ _ _ hfailed hattempts =>
      by_cases hstage : stage = .publish
      · exact .inr (.inr (hstage ▸ hfailed))
      · exact .inl (hattempts hstage)
  | @further stage rest run between after failure? hstage hrest ih =>
    cases hstage with
    | passed _ hafter _ _ hattempts =>
      cases rest with
      | nil =>
        cases hrest
        by_cases hstage : stage = .publish
        · exact .inr (.inl (by rw [hafter, hstage]; rfl))
        · exact .inl (hattempts hstage)
      | cons next rest =>
        -- a stage that is not the last one sends nothing
        rw [List.dropLast_cons_cons, List.mem_cons, not_or] at hlast
        rcases ih hlast.2 with hkept | hended
        · exact .inl (hkept.trans (hattempts (Ne.symm hlast.1)))
        · exact .inr hended

/-- A course that passes all its stages ends in the state to which the last one leads. -/
theorem course_success {stages : List Stage} {run after : Run}
    (h : Course stages run none after) {last : Stage} (hlast : stages.getLast? = some last) :
    after.state = last.produces := by
  generalize hnone : (none : Option Failure) = failure? at h
  induction h with
  | finished => cases hlast
  | ended => cases hnone
  | @further stage rest run between after _ hstage hrest ih =>
    cases rest with
    | nil =>
      cases hrest
      cases hlast
      cases hstage with
      | passed _ hafter _ _ _ => exact hafter
    | cons next rest => exact ih hlast hnone

end Run

/-! ### Calls -/

namespace Call

theorem isChain_stages (call : Call) :
    call.stages.IsChain fun stage next => stage.produces = next.requires := by
  cases call <;> simp [stages, first, others, Stage.produces, Stage.requires]

theorem publish_notMem_dropLast_stages (call : Call) : Stage.publish ∉ call.stages.dropLast := by
  cases call <;> simp [stages, first, others]

/-- In a state that its first stage does not start in, a call is refused and changes nothing. -/
theorem perform_refused {call : Call} {run : Run} (h : run.state ≠ call.first.requires) :
    call.action.perform run = (.error (.outOfOrder run.state call.first.produces), run) := by
  obtain ⟨hfailure, hafter⟩ := Run.course_refused (call.course run) h
  generalize call.action.perform run = performed at hfailure hafter ⊢
  obtain ⟨outcome, after⟩ := performed
  cases outcome with
  | ok response => cases hfailure
  | error failure =>
    obtain rfl : after = run := hafter
    obtain rfl : failure = _ := Option.some.inj hfailure
    rfl

/-- A call that publishes leaves the release published. -/
theorem state_of_isPublished {call : Call} {run : Run}
    (h : Response.isPublished (call.action.perform run).1 = true) :
    (call.action.perform run).2.state = .published := by
  have hcourse := call.course run
  -- a call that hands back no receipt does not count as one that publishes
  have hreceipt : ∀ {α : Type} (action : Action Run α) (wrap : α → Response),
      (∀ result, Response.isPublished (.ok (wrap result)) = false) →
        Response.isPublished ((do return wrap (← action) : Action Run Response).perform run).1 =
          false := by
    intro α action wrap hwrap
    rw [Action.perform_bind]
    rcases action.perform run with ⟨_ | result, after⟩
    · rfl
    · exact hwrap result
  -- one that does has passed all its stages, and the last of them leads to `published`
  have hended : ∀ {last : Stage}, call.stages.getLast? = some last → last = .publish →
      (call.action.perform run).2.state = .published := by
    intro last hlast hpublish
    generalize call.action.perform run = performed at hcourse h ⊢
    obtain ⟨outcome, after⟩ := performed
    cases outcome with
    | error failure => cases h
    | ok response => rw [Run.course_success hcourse hlast, hpublish]; rfl
  cases call with
  | publish => exact hended rfl rfl
  | runAll => exact hended rfl rfl
  | checkTrigger => exact absurd h (by rw [action, hreceipt Run.checkTrigger _ fun _ => rfl]; simp)
  | load => exact absurd h (by rw [action, hreceipt Run.load _ fun _ => rfl]; simp)
  | transform m => exact absurd h (by rw [action, hreceipt (Run.transform m) _ fun _ => rfl]; simp)
  | write m => exact absurd h (by rw [action, hreceipt (Run.write m) _ fun _ => rfl]; simp)
  | runLocal => exact absurd h (by rw [action, hreceipt Run.runLocal _ fun _ => rfl]; simp)

/-! ### Any number of calls -/

theorem performAll_cons (call : Call) (calls : List Call) (run : Run) :
    performAll (call :: calls) run =
      ((call.action.perform run).1 :: (performAll calls (call.action.perform run).2).1,
        (performAll calls (call.action.perform run).2).2) := rfl

theorem recorded_performAll (calls : List Call) {run : Run} (hrun : run.Recorded) :
    (performAll calls run).2.Recorded := by
  induction calls generalizing run with
  | nil => exact hrun
  | cons call calls ih => exact ih (Run.recorded_of_course (call.course run) hrun)

/-- A release in its last state stays as it is, whatever it is asked to do. -/
theorem performAll_of_isTerminal (calls : List Call) {run : Run}
    (h : run.state.isTerminal = true) :
    (performAll calls run).2 = run ∧
      (performAll calls run).1.countP Response.isPublished = 0 := by
  induction calls with
  | nil => exact ⟨rfl, rfl⟩
  | cons call calls ih =>
    rw [performAll_cons, perform_refused (Run.requires_ne_of_isTerminal h call.first)]
    refine ⟨ih.1, ?_⟩
    rw [List.countP_cons_of_neg (by simp [Response.isPublished])]
    exact ih.2

/-- A package is published at most once. -/
theorem countP_isPublished_performAll (calls : List Call) (run : Run) :
    (performAll calls run).1.countP Response.isPublished ≤ 1 := by
  induction calls generalizing run with
  | nil => exact Nat.zero_le 1
  | cons call calls ih =>
    rw [performAll_cons]
    by_cases hpublished : Response.isPublished (call.action.perform run).1 = true
    · -- the calls behind it find the release in its last state
      have hstate := state_of_isPublished hpublished
      rw [List.countP_cons_of_pos hpublished,
        (performAll_of_isTerminal calls (by rw [hstate]; rfl)).2]
    · rw [List.countP_cons_of_neg hpublished]
      exact ih _

end Call

/-- The history of a release shows every step it has taken, and what is recorded about it is enough
    to tell what any next call does. After any calls on a new release:

    - the history is a beginning of the order of states, perhaps ended by a failure before the last
      one, and the state is its last entry;
    - a failed stage is recorded exactly in the state `failed`, and the state it needs comes just
      before that;
    - a call in a state that its first stage does not start in fails with just that and changes
      nothing;
    - any other failure is one of a stage of the call, which is named once and recorded;
    - at most one of the calls has published, a call that sends a request ends with the stage that
      publishes, and nothing is sent once the release is published or has failed. -/
theorem record_after_calls (settings : Settings) (token? : Option Token) (world : World)
    (calls : List Call) :
    let results := (Call.performAll calls (Run.start settings token? world)).1
    let run := (Call.performAll calls (Run.start settings token? world)).2
    ((∃ steps, 1 ≤ steps ∧ steps ≤ State.order.length ∧
        (run.history = State.order.take steps ∨
          steps < State.order.length ∧ run.history = State.order.take steps ++ [.failed])) ∧
      run.history.getLast? = some run.state) ∧
    ((run.failedStage?.isSome = true ↔ run.state = .failed) ∧
      ∀ stage, run.failedStage? = some stage →
        ∃ before, run.history = before ++ [stage.requires, .failed]) ∧
    (∀ call : Call, run.state ≠ call.first.requires →
      call.action.perform run = (.error (.outOfOrder run.state call.first.produces), run)) ∧
    (∀ (call : Call) (failure : Failure), run.state = call.first.requires →
      (call.action.perform run).1 = .error failure →
        ∃ stage ∈ call.stages, ∃ cause, failure = .inStage stage cause ∧ cause.stage? = none ∧
          (call.action.perform run).2.failedStage? = some stage) ∧
    results.countP Response.isPublished ≤ 1 ∧
    (∀ call : Call, (call.action.perform run).2.world.attempts ≠ run.world.attempts →
      (call.action.perform run).2.state = .published ∨
        (call.action.perform run).2.failedStage? = some .publish) ∧
    (run.state.isTerminal = true → ∀ later,
      (Call.performAll later run).2.world.attempts = run.world.attempts) := by
  intro results run
  -- the record is sound after any calls, and what a further call does depends on nothing else
  have hrecorded : run.Recorded :=
    Call.recorded_performAll calls (Run.recorded_start settings token? world)
  refine ⟨⟨hrecorded.history_eq, hrecorded.getLast?_history⟩,
    ⟨hrecorded.isSome_failedStage?, fun stage => hrecorded.history_of_failedStage?⟩,
    fun call => Call.perform_refused, ?_, Call.countP_isPublished_performAll calls _, ?_, ?_⟩
  · intro call failure hstate hfailure
    refine Run.course_failure (call.course run) call.isChain_stages ?_ (by rw [hfailure]; rfl)
    intro stage hstage
    cases hstage
    exact hstate
  · intro call hsent
    exact (Run.course_attempts (call.course run) call.publish_notMem_dropLast_stages).resolve_left
      hsent
  · intro hterminal later
    rw [(Call.performAll_of_isTerminal later hterminal).1]

end PackageRelease
