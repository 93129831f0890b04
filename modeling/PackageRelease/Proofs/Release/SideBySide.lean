import PackageRelease.Proofs.Release.Perform

/-! # Two performances side by side

  That something has no influence is said of two performances that start in states which differ in
  it: they come to the same, and they leave states that again differ in nothing else. The key idea:
  the relation between the states is carried through the building of actions once and for all, so
  that only those actions have to be compared which look at what the states differ in.
-/

namespace PackageRelease

namespace Action

variable {σ α β : Type} {related : σ → σ → Prop}

/-! ### Agreement -/

/-- Two performances come to the same and leave related states. -/
def Agree (related : σ → σ → Prop) (p q : Except Failure α × σ) : Prop :=
  p.1 = q.1 ∧ related p.2 q.2

/-- Two actions agree wherever they start in related states. -/
def Matches (related : σ → σ → Prop) (action other : Action σ α) : Prop :=
  ∀ s t, related s t → Agree related (action.perform s) (other.perform t)

/-- Two performances that agree go on to agree. -/
theorem Agree.bind {action other : Action σ α} {next further : α → Action σ β} {s t : σ}
    (h : Agree related (action.perform s) (other.perform t))
    (hnext : ∀ result, Matches related (next result) (further result)) :
    Agree related ((action >>= next).perform s) ((other >>= further).perform t) := by
  rw [perform_bind, perform_bind]
  generalize action.perform s = p at h ⊢
  generalize other.perform t = q at h ⊢
  obtain ⟨outcome, after⟩ := p
  obtain ⟨_, final⟩ := q
  obtain ⟨rfl, hafter⟩ := h
  cases outcome with
  | ok result => exact hnext result after final hafter
  | error failure => exact ⟨rfl, hafter⟩

theorem matches_bind {action other : Action σ α} {next further : α → Action σ β}
    (h : Matches related action other)
    (hnext : ∀ result, Matches related (next result) (further result)) :
    Matches related (action >>= next) (other >>= further) :=
  fun s t hst => (h s t hst).bind hnext

/-- What follows a look at the state is compared state by state. -/
theorem matches_get_bind {next further : σ → Action σ β}
    (h : ∀ s t, related s t → Agree related ((next s).perform s) ((further t).perform t)) :
    Matches related (get >>= next) (get >>= further) := by
  intro s t hst
  rw [perform_bind, perform_bind]
  exact h s t hst

theorem matches_pure (result : α) : Matches related (pure result) (pure result) :=
  fun _ _ h => ⟨rfl, h⟩

theorem matches_throw (failure : Failure) :
    Matches related (throw failure : Action σ α) (throw failure) :=
  fun _ _ h => ⟨rfl, h⟩

theorem matches_lift (outcome : Except Failure α) :
    Matches related (liftM outcome : Action σ α) (liftM outcome) :=
  fun _ _ h => ⟨rfl, h⟩

theorem matches_reading {f g : σ → Except Failure α} (h : ∀ s t, related s t → f s = g t) :
    Matches related (reading f) (reading g) :=
  fun s t hst => ⟨h s t hst, hst⟩

/-- What follows a reading that comes to the same is compared for its result only. -/
theorem agree_reading_bind {f g : σ → Except Failure α} {next further : α → Action σ β} {s t : σ}
    (hst : related s t) (h : f s = g t) (hnext : ∀ result, f s = .ok result →
      Agree related ((next result).perform s) ((further result).perform t)) :
    Agree related ((reading f >>= next).perform s) ((reading g >>= further).perform t) := by
  rw [perform_bind, perform_bind, perform_reading, perform_reading, ← h]
  cases hresult : f s with
  | ok result => exact hnext result hresult
  | error failure => exact ⟨rfl, hst⟩

theorem matches_modify {f g : σ → σ} (h : ∀ s t, related s t → related (f s) (g t)) :
    Matches related (modify f : Action σ Unit) (modify g) :=
  fun s t hst => ⟨rfl, h s t hst⟩

theorem matches_observe {action other : Action σ α} (h : Matches related action other) :
    Matches related (observe action) (observe other) := by
  intro s t hst
  obtain ⟨houtcome, hafter⟩ := h s t hst
  exact ⟨congrArg Except.ok houtcome, hafter⟩

/-! ### Log and time -/

/-- States stay related when the same entry is added to both logs, when the same time passes, and
    when both programs panic. -/
structure Steady [Chronicle σ] (related : σ → σ → Prop) : Prop where
  /-- An entry of the log changes nothing. -/
  record : ∀ entry s t, related s t → related (Chronicle.record entry s) (Chronicle.record entry t)
  /-- Waiting changes nothing. -/
  wait : ∀ time s t, related s t → related (Chronicle.wait time s) (Chronicle.wait time t)
  /-- A panic changes nothing. -/
  panic : ∀ s t, related s t → related (Chronicle.panic s) (Chronicle.panic t)

variable [Chronicle σ]

theorem matches_record (h : Steady related) (level : Level) (text : String) :
    Matches related (record level text) (record level text) :=
  matches_modify (h.record ⟨level, text⟩)

theorem matches_recordSuccess (h : Steady related) (name : String) (retries : Nat) :
    Matches related (recordSuccess name retries) (recordSuccess name retries) := by
  unfold recordSuccess
  split
  · exact matches_pure ()
  · exact matches_record h _ _

theorem matches_recordRetry (h : Steady related) (policy : RetryPolicy) (name : String)
    (retry : Nat) (failure : Failure) :
    Matches related (recordRetry policy name retry failure)
      (recordRetry policy name retry failure) := by
  obtain ⟨_, hrecord⟩ | hpanic := @recordRetry_cases σ _ policy name retry failure
  · rw [hrecord]
    exact matches_record h _ _
  · rw [hpanic]
    exact matches_bind (matches_modify h.panic) fun _ => matches_throw failure

/-- Attempts that agree one by one agree as a whole. The induction is on the number of attempts that
    may follow; a failure is the same on both sides, so both try again or neither does. -/
theorem matches_attemptFrom (h : Steady related) (policy : RetryPolicy) (name : String)
    {operation other : Nat → Action σ α}
    (hoperation : ∀ done, Matches related (operation done) (other done)) (done left : Nat) :
    Matches related (attemptFrom policy name operation done left)
      (attemptFrom policy name other done left) := by
  induction left generalizing done with
  | zero =>
    exact matches_bind (hoperation done) fun _ =>
      matches_bind (matches_recordSuccess h name done) fun _ => matches_pure _
  | succ left ih =>
    refine matches_bind (matches_observe (hoperation done)) fun outcome => ?_
    cases outcome with
    | ok result =>
      exact matches_bind (matches_recordSuccess h name done) fun _ => matches_pure result
    | error failure =>
      dsimp only
      split
      · exact matches_bind (matches_recordRetry h policy name _ failure) fun _ =>
          matches_bind (matches_modify (h.wait _)) fun _ => ih (done + 1)
      · exact matches_throw failure

theorem matches_retry (h : Steady related) (policy : RetryPolicy) (name : String)
    {operation other : Nat → Action σ α}
    (hoperation : ∀ done, Matches related (operation done) (other done)) :
    Matches related (retry policy name operation) (retry policy name other) :=
  matches_attemptFrom h policy name hoperation 0 _

end Action

end PackageRelease
