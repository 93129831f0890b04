import PackageRelease.Proofs.Outcome
import PackageRelease.Release.Backoff

/-! # Performing actions

  What an action comes to is worked out from the actions it is made of: each lemma of the first
  section says what one way of building an action does to a state. Two properties are carried
  through the building of actions once and for all:

  - an action is *bare* when no failure of it names a stage;
  - an action *keeps* a view of the state when the view is the same before and after it.

  An action that changes the view may still *preserve* a property of the state.
-/

namespace PackageRelease

namespace Action

variable {σ α β : Type}

/-! ### Outcome and state -/

@[simp] theorem perform_pure (result : α) (state : σ) :
    (pure result : Action σ α).perform state = (.ok result, state) := rfl

@[simp] theorem perform_throw (failure : Failure) (state : σ) :
    (throw failure : Action σ α).perform state = (.error failure, state) := rfl

@[simp] theorem perform_reading (f : σ → Except Failure α) (state : σ) :
    (reading f).perform state = (f state, state) := rfl

@[simp] theorem perform_ofFunction (f : σ → Except Failure α × σ) (state : σ) :
    (ofFunction f).perform state = f state := rfl

@[simp] theorem perform_observe (action : Action σ α) (state : σ) :
    (observe action).perform state = (.ok (action.perform state).1, (action.perform state).2) := rfl

@[simp] theorem perform_modify (f : σ → σ) (state : σ) :
    (modify f : Action σ Unit).perform state = (.ok (), f state) := rfl

@[simp] theorem perform_get (state : σ) :
    (get : Action σ σ).perform state = (.ok state, state) := rfl

@[simp] theorem perform_set (next state : σ) :
    (set next : Action σ Unit).perform state = (.ok (), next) := rfl

@[simp] theorem perform_lift (outcome : Except Failure α) (state : σ) :
    (liftM outcome : Action σ α).perform state = (outcome, state) := rfl

@[simp] theorem perform_record [Chronicle σ] (level : Level) (text : String) (state : σ) :
    (record level text).perform state = (.ok (), Chronicle.record ⟨level, text⟩ state) := rfl

@[simp] theorem perform_wait [Chronicle σ] (milliseconds : Nat) (state : σ) :
    (wait milliseconds).perform state = (.ok (), Chronicle.wait milliseconds state) := rfl

@[simp] theorem perform_panic [Chronicle σ] (failure : Failure) (state : σ) :
    (panic failure : Action σ α).perform state = (.error failure, Chronicle.panic state) := rfl

/-- A further attempt is announced by an entry of the log, or the program panics. -/
theorem recordRetry_cases [Chronicle σ] (policy : RetryPolicy) (name : String) (retry : Nat)
    (failure : Failure) :
    (∃ text, (recordRetry policy name retry failure : Action σ Unit) = record .warn text) ∨
      (recordRetry policy name retry failure : Action σ Unit) = panic failure := by
  unfold recordRetry
  cases policy.totalAttempts? with
  | some total => exact .inl ⟨_, rfl⟩
  | none => exact .inr rfl

/-- A sequence goes on with the state that its first action leaves, unless that one failed. -/
theorem perform_bind (action : Action σ α) (next : α → Action σ β) (state : σ) :
    (action >>= next).perform state =
      match action.perform state with
      | (.ok result, after) => (next result).perform after
      | (.error failure, after) => (.error failure, after) := by
  show ((ExceptT.bindCont next : Except Failure α → StateM σ (Except Failure β))
    (action state).1) (action state).2 = _
  unfold perform
  rcases h : action state with ⟨_ | _, _⟩
  · simp only [ExceptT.run, StateT.run, h]; rfl
  · simp only [ExceptT.run, StateT.run, h]; rfl

/-- A sequence whose first action succeeds. -/
theorem perform_bind_ok {action : Action σ α} {state after : σ} {result : α}
    (h : action.perform state = (.ok result, after)) (next : α → Action σ β) :
    (action >>= next).perform state = (next result).perform after := by
  rw [perform_bind, h]

/-- A sequence succeeds exactly if both of its actions do, one after the other. -/
theorem perform_bind_eq_ok_iff {action : Action σ α} {next : α → Action σ β} {state final : σ}
    {result : β} : (action >>= next).perform state = (.ok result, final) ↔
      ∃ middle between, action.perform state = (.ok middle, between) ∧
        (next middle).perform between = (.ok result, final) := by
  rw [perform_bind]
  rcases action.perform state with ⟨failure | middle, between⟩
  · refine iff_of_false nofun ?_
    rintro ⟨_, _, h, -⟩
    cases h
  · constructor
    · exact fun h => ⟨middle, between, rfl, h⟩
    · rintro ⟨_, _, h, hnext⟩
      cases h
      exact hnext

end Action

/-! ### Actions whose failures name no stage -/

namespace Action

variable {σ α β γ : Type}

/-- No failure of the action names a stage. -/
def Bare (action : Action σ α) : Prop := ∀ state, BareOutcome (action.perform state).1

theorem bare_pure (result : α) : Bare (pure result : Action σ α) :=
  fun _ => bareOutcome_ok result

theorem bare_throw {failure : Failure} (h : failure.stage? = none) :
    Bare (throw failure : Action σ α) :=
  fun _ => bareOutcome_error h

theorem bare_reading {f : σ → Except Failure α} (h : ∀ state, BareOutcome (f state)) :
    Bare (reading f) := h

theorem bare_lift {outcome : Except Failure α} (h : BareOutcome outcome) :
    Bare (liftM outcome : Action σ α) :=
  fun _ => h

theorem bare_modify (f : σ → σ) : Bare (modify f : Action σ Unit) :=
  fun _ => bareOutcome_ok ()

theorem bare_bind {action : Action σ α} {next : α → Action σ β} (h : Bare action)
    (hnext : ∀ result, Bare (next result)) : Bare (action >>= next) := by
  intro state
  rw [perform_bind]
  rcases hp : action.perform state with ⟨outcome, after⟩
  have hbare : BareOutcome outcome := by simpa [hp] using h state
  cases outcome with
  | ok result => exact hnext result after
  | error failure => exact bareOutcome_error (hbare failure rfl)

/-- What follows an observed action is met only by results and by failures without a stage. -/
theorem bare_observe_bind {action : Action σ α} {next : Except Failure α → Action σ β}
    (h : Bare action) (hok : ∀ result, Bare (next (.ok result)))
    (herror : ∀ failure, failure.stage? = none → Bare (next (.error failure))) :
    Bare (observe action >>= next) := by
  intro state
  rw [perform_bind, perform_observe]
  cases hp : (action.perform state).1 with
  | ok result => exact hok result _
  | error failure => exact herror failure (h state failure hp) _

theorem bare_recordSuccess [Chronicle σ] (name : String) (retries : Nat) :
    Bare (recordSuccess name retries : Action σ Unit) := by
  unfold recordSuccess
  split
  · exact bare_pure ()
  · exact bare_modify _

theorem bare_recordRetry [Chronicle σ] (policy : RetryPolicy) (name : String) (retry : Nat)
    {failure : Failure} (h : failure.stage? = none) :
    Bare (recordRetry policy name retry failure : Action σ Unit) := by
  obtain ⟨_, hrecord⟩ | hpanic := @recordRetry_cases σ _ policy name retry failure
  · rw [hrecord]
    exact bare_modify _
  · rw [hpanic]
    exact bare_bind (bare_modify _) fun _ => bare_throw h

/-- Trying again hands on a failure of one of the attempts. -/
theorem bare_attemptFrom [Chronicle σ] (policy : RetryPolicy) (name : String)
    {operation : Nat → Action σ α} (h : ∀ done, Bare (operation done)) (done left : Nat) :
    Bare (attemptFrom policy name operation done left) := by
  induction left generalizing done with
  | zero =>
    -- the last attempt is not observed: its failure is the failure of all
    exact bare_bind (h done) fun _ => bare_bind (bare_recordSuccess name done) fun _ => bare_pure _
  | succ left ih =>
    refine bare_observe_bind (h done) ?_ ?_
    · exact fun result => bare_bind (bare_recordSuccess name done) fun _ => bare_pure result
    · intro failure hfailure
      dsimp only
      split
      · exact bare_bind (bare_recordRetry policy name _ hfailure) fun _ =>
          bare_bind (bare_modify _) fun _ => ih (done + 1)
      · exact bare_throw hfailure

theorem bare_retry [Chronicle σ] (policy : RetryPolicy) (name : String)
    {operation : Nat → Action σ α} (h : ∀ done, Bare (operation done)) :
    Bare (retry policy name operation) :=
  bare_attemptFrom policy name h 0 _

/-! ### Views that an action leaves alone -/

/-- The view of the state is the same before and after the action. -/
def Keeps (view : σ → γ) (action : Action σ α) : Prop :=
  ∀ state, view (action.perform state).2 = view state

variable {view : σ → γ}

theorem keeps_pure (result : α) : Keeps view (pure result : Action σ α) := fun _ => rfl

theorem keeps_throw (failure : Failure) : Keeps view (throw failure : Action σ α) := fun _ => rfl

theorem keeps_reading (f : σ → Except Failure α) : Keeps view (reading f) := fun _ => rfl

theorem keeps_lift (outcome : Except Failure α) : Keeps view (liftM outcome : Action σ α) :=
  fun _ => rfl

theorem keeps_get : Keeps view (get : Action σ σ) := fun _ => rfl

theorem keeps_modify {f : σ → σ} (h : ∀ state, view (f state) = view state) :
    Keeps view (modify f : Action σ Unit) := h

theorem keeps_bind {action : Action σ α} {next : α → Action σ β} (h : Keeps view action)
    (hnext : ∀ result, Keeps view (next result)) : Keeps view (action >>= next) := by
  intro state
  rw [perform_bind]
  rcases hp : action.perform state with ⟨outcome, after⟩
  have hafter : view after = view state := by simpa [hp] using h state
  cases outcome with
  | ok result => exact (hnext result after).trans hafter
  | error failure => exact hafter

theorem keeps_observe {action : Action σ α} (h : Keeps view action) :
    Keeps view (observe action) := h

/-- The view has nothing of the log and the time, nor of a panic where trying again may panic. -/
structure Spares [Chronicle σ] (policy : RetryPolicy) (view : σ → γ) : Prop where
  /-- An entry of the log is not seen. -/
  record : ∀ entry state, view (Chronicle.record entry state) = view state
  /-- A wait is not seen. -/
  wait : ∀ time state, view (Chronicle.wait time state) = view state
  /-- A panic is not seen. -/
  panic : policy.totalAttempts? = none → ∀ state, view (Chronicle.panic state) = view state

theorem keeps_recordRetry [Chronicle σ] {policy : RetryPolicy} (hview : Spares policy view)
    (name : String) (retry : Nat) (failure : Failure) :
    Keeps view (recordRetry policy name retry failure : Action σ Unit) := by
  unfold recordRetry
  cases htotal : policy.totalAttempts? with
  | some total => exact keeps_modify (hview.record _)
  | none => exact keeps_bind (keeps_modify (hview.panic htotal)) fun _ => keeps_throw failure

/-- Trying again keeps a view that each attempt keeps, if nothing else is to be seen of it. -/
theorem keeps_attemptFrom [Chronicle σ] {policy : RetryPolicy} (hview : Spares policy view)
    (name : String) {operation : Nat → Action σ α} (h : ∀ done, Keeps view (operation done))
    (done left : Nat) : Keeps view (attemptFrom policy name operation done left) := by
  have hsuccess : ∀ done, Keeps view (recordSuccess name done : Action σ Unit) := by
    intro done
    unfold recordSuccess
    split
    · exact keeps_pure ()
    · exact keeps_modify (hview.record _)
  induction left generalizing done with
  | zero => exact keeps_bind (h done) fun _ => keeps_bind (hsuccess done) fun _ => keeps_pure _
  | succ left ih =>
    refine keeps_bind (keeps_observe (h done)) fun outcome => ?_
    cases outcome with
    | ok result => exact keeps_bind (hsuccess done) fun _ => keeps_pure result
    | error failure =>
      dsimp only
      split
      · exact keeps_bind (keeps_recordRetry hview name _ failure) fun _ =>
          keeps_bind (keeps_modify (hview.wait _)) fun _ => ih (done + 1)
      · exact keeps_throw failure

theorem keeps_retry [Chronicle σ] {policy : RetryPolicy} (hview : Spares policy view)
    (name : String) {operation : Nat → Action σ α} (h : ∀ done, Keeps view (operation done)) :
    Keeps view (retry policy name operation) :=
  keeps_attemptFrom hview name h 0 _

/-- Trying again hands back the result of one of the attempts, which meets the view that the first
    one meets. -/
theorem exists_of_retry [Chronicle σ] {policy : RetryPolicy} (hview : Spares policy view)
    {name : String} {operation : Nat → Action σ α} (h : ∀ done, Keeps view (operation done))
    {state final : σ} {result : α}
    (hretry : (retry policy name operation).perform state = (.ok result, final)) :
    ∃ done between after, view between = view state ∧
      (operation done).perform between = (.ok result, after) := by
  unfold retry at hretry
  -- the induction is on the number of attempts that may follow
  generalize 0 = done at hretry
  generalize policy.maxRetries.toNat = left at hretry
  induction left generalizing done state with
  | zero =>
    obtain ⟨_, between, hoperation, hretry⟩ := perform_bind_eq_ok_iff.mp hretry
    obtain ⟨_, _, -, hretry⟩ := perform_bind_eq_ok_iff.mp hretry
    cases hretry
    exact ⟨done, state, between, rfl, hoperation⟩
  | succ left ih =>
    unfold attemptFrom at hretry
    rw [perform_bind, perform_observe] at hretry
    have hkept := h done state
    rcases hoperation : (operation done).perform state with ⟨failure | found, between⟩
    · rw [hoperation] at hretry hkept
      dsimp only at hretry hkept
      split at hretry
      · -- what is met after the entry of the log and the wait is the same
        obtain ⟨_, recorded, hnote, hretry⟩ := perform_bind_eq_ok_iff.mp hretry
        obtain ⟨_, waited, hpause, hretry⟩ := perform_bind_eq_ok_iff.mp hretry
        have hrecorded := keeps_recordRetry hview name (done + 1) failure between
        rw [hnote] at hrecorded
        obtain ⟨later, next, after, hnext, hfound⟩ := ih _ hretry
        cases hpause
        refine ⟨later, next, after, hnext.trans ?_, hfound⟩
        rw [hview.wait, hrecorded, hkept]
      · cases hretry
    · rw [hoperation] at hretry
      obtain ⟨_, _, -, hretry⟩ := perform_bind_eq_ok_iff.mp hretry
      cases hretry
      exact ⟨done, state, between, rfl, hoperation⟩

/-! ### Properties that an action preserves -/

/-- If the state has the property before the action, it has it afterwards. -/
def Preserves (property : σ → Prop) (action : Action σ α) : Prop :=
  ∀ state, property state → property (action.perform state).2

variable {property : σ → Prop}

theorem preserves_of_keeps {action : Action σ α} (h : Keeps view action)
    (hview : ∀ state next, view next = view state → property state → property next) :
    Preserves property action :=
  fun state hstate => hview state _ (h state) hstate

theorem preserves_bind {action : Action σ α} {next : α → Action σ β}
    (h : Preserves property action) (hnext : ∀ result, Preserves property (next result)) :
    Preserves property (action >>= next) := by
  intro state hstate
  rw [perform_bind]
  have hafter := h state hstate
  rcases hp : action.perform state with ⟨outcome, after⟩
  rw [hp] at hafter
  cases outcome with
  | ok result => exact hnext result after hafter
  | error failure => exact hafter

end Action

end PackageRelease
