import Mathlib.Algebra.Order.Ring.Nat
import PackageRelease.Proofs.Release.Perform

/-! # How often and how long is tried again

  The outcomes of a step that is tried are given in advance, one for each time it is made. The key
  idea: what trying again does is said for one round first, by the outcome of that round. A run is
  then followed round by round, and what has happened in it is the list of its attempts and waits.

  The waits double from the first one on. They are worked out within 32 bits and within the longest
  time span there is, and both limits lie above the minute at which a wait is cut. A further attempt
  is announced with the number of attempts in all, so it takes a word that holds this number.
-/

namespace PackageRelease

/-! ### Waits -/

namespace RetryPolicy

theorem maxDelay_le_factorLimit : maxDelay ≤ factorLimit := by decide

/-- The limit of the factor is not seen behind the cut. -/
theorem delayFor_succ (policy : RetryPolicy) (k : Nat) :
    policy.delayFor (k + 1) = min 60000 (policy.baseDelay * 2 ^ k) := by
  unfold delayFor
  rw [Nat.pow_eq, Nat.add_sub_cancel]
  show min maxDelay _ = min maxDelay _
  rcases Nat.eq_zero_or_pos policy.baseDelay with hzero | hpos
  · rw [hzero, Nat.zero_mul, Nat.zero_mul]
  rcases Nat.le_total (2 ^ k) factorLimit with hle | hge
  · rw [Nat.min_eq_right hle]
  · -- both products are longer than the longest wait
    have hlimit : maxDelay ≤ policy.baseDelay * factorLimit :=
      Nat.le_trans maxDelay_le_factorLimit (Nat.le_mul_of_pos_left _ hpos)
    have hpower : maxDelay ≤ policy.baseDelay * 2 ^ k :=
      Nat.le_trans hlimit (Nat.mul_le_mul_left _ hge)
    rw [Nat.min_eq_left hge, Nat.min_eq_left hlimit, Nat.min_eq_left hpower]

/-- No wait is shorter than the one before it. -/
theorem delayFor_mono (policy : RetryPolicy) {k l : Nat} (h : k ≤ l) :
    policy.delayFor (k + 1) ≤ policy.delayFor (l + 1) := by
  have hpower : policy.baseDelay * 2 ^ k ≤ policy.baseDelay * 2 ^ l :=
    Nat.mul_le_mul_left _ (Nat.pow_le_pow_right (by decide) h)
  rw [delayFor_succ, delayFor_succ]
  omega

theorem delayFor_le (policy : RetryPolicy) (retry : Nat) : policy.delayFor retry ≤ 60000 :=
  Nat.min_le_left _ _

/-- The longest time span in nanoseconds: 64 bits of seconds, and what fits below a further one. -/
def longestSpan : Nat := Word.count 64 * 1000000000 - 1

/-- A time span in nanoseconds is multiplied; if the product is too long, it is the longest span. -/
def multiplySpan (span factor : Nat) : Nat := min longestSpan (span * factor)

/-- A wait is the same if its product is kept within the longest time span. -/
theorem delayFor_eq_multiplySpan (policy : RetryPolicy) (retry : Nat) :
    1000000 * policy.delayFor retry = min (1000000 * maxDelay)
      (multiplySpan (1000000 * policy.baseDelay) (min factorLimit (2 ^ (retry - 1)))) := by
  unfold delayFor multiplySpan
  rw [Nat.pow_eq, Nat.mul_assoc]
  generalize policy.baseDelay * min factorLimit (2 ^ (retry - 1)) = product
  have hlong : 1000000 * maxDelay ≤ longestSpan := by decide
  omega

/-! ### Attempts in all -/

theorem totalAttempts?_eq_some_iff {policy : RetryPolicy} {total : UInt32} :
    policy.totalAttempts? = some total ↔ total.toNat = policy.maxRetries.toNat + 1 :=
  Word.add?_eq_some_iff

/-- Only the greatest word is too great a number of retries. -/
theorem totalAttempts?_eq_none_iff {policy : RetryPolicy} :
    policy.totalAttempts? = none ↔ policy.maxRetries.toNat + 1 = 2 ^ 32 := by
  have hword := policy.maxRetries.toNat_lt
  unfold totalAttempts?
  rw [Word.add?_eq_none_iff, UInt32.toNat_one]
  show 2 ^ 32 ≤ _ ↔ _
  omega

theorem totalAttempts?_of_lt {policy : RetryPolicy} (h : policy.maxRetries.toNat + 1 < 2 ^ 32) :
    policy.totalAttempts? = some (policy.maxRetries + 1) := by
  rw [totalAttempts?_eq_some_iff, UInt32.toNat_add, UInt32.toNat_one]
  exact Nat.mod_eq_of_lt h

end RetryPolicy

/-! ### One round -/

/-- What is said about a failed attempt that another one follows: its number, how many attempts
    there may be in all, and the wait in milliseconds. -/
def Trial.retryWarning (name : String) (number total : Nat) (failure : Failure) (wait : Nat) :
    LogEntry :=
  ⟨.warn, name ++ " failed (attempt " ++ Text.decimal number ++ "/" ++ Text.decimal total ++
    "): " ++ failure.message ++ "; retrying in " ++ Text.seconds wait ++ "s"⟩

namespace Action

section rounds
variable {σ α : Type} [Chronicle σ] {policy : RetryPolicy} {name : String}
  {operation : Nat → Action σ α} {done left : Nat} {state after : σ} {failure : Failure}

/-- An attempt that succeeds is the last one, and its result is handed back. -/
theorem perform_attemptFrom_of_ok {result : α}
    (h : (operation done).perform state = (.ok result, after)) :
    (attemptFrom policy name operation done left).perform state =
      (do recordSuccess name done; return result : Action σ α).perform after := by
  cases left with
  | zero =>
    unfold attemptFrom
    rw [perform_bind_ok h]
  | succ left =>
    unfold attemptFrom
    rw [perform_bind, perform_observe, h]

/-- A failure that does not pass ends the attempts. -/
theorem perform_attemptFrom_of_error
    (h : (operation done).perform state = (.error failure, after))
    (hlasting : failure.isRetryable = false) :
    (attemptFrom policy name operation done left).perform state = (.error failure, after) := by
  cases left with
  | zero =>
    unfold attemptFrom
    rw [perform_bind, h]
  | succ left =>
    unfold attemptFrom
    rw [perform_bind, perform_observe, h]
    dsimp only
    rw [if_neg (by rw [hlasting]; exact Bool.false_ne_true)]
    rfl

/-- So does any failure when no further attempt is left. -/
theorem perform_attemptFrom_zero
    (h : (operation done).perform state = (.error failure, after)) :
    (attemptFrom policy name operation done 0).perform state = (.error failure, after) := by
  unfold attemptFrom
  rw [perform_bind, h]

/-- A failure that passes is recorded, and after a wait the next attempt is made. -/
theorem perform_attemptFrom_succ
    (h : (operation done).perform state = (.error failure, after))
    (hpassing : failure.isRetryable = true) {total : UInt32}
    (htotal : policy.totalAttempts? = some total) :
    (attemptFrom policy name operation done (left + 1)).perform state =
      (attemptFrom policy name operation (done + 1) left).perform
        (Chronicle.wait (policy.delayFor (done + 1)) (Chronicle.record
          (Trial.retryWarning name (done + 1) total.toNat failure (policy.delayFor (done + 1)))
          after)) := by
  rw [attemptFrom, perform_bind, perform_observe, h]
  dsimp only
  rw [if_pos hpassing]
  unfold recordRetry
  rw [htotal]
  rfl

/-- Where no word holds the number of attempts in all, the program panics instead. -/
theorem perform_attemptFrom_of_panic
    (h : (operation done).perform state = (.error failure, after))
    (hpassing : failure.isRetryable = true) (htotal : policy.totalAttempts? = none) :
    (attemptFrom policy name operation done (left + 1)).perform state =
      (.error failure, Chronicle.panic after) := by
  rw [attemptFrom, perform_bind, perform_observe, h]
  dsimp only
  rw [if_pos hpassing]
  unfold recordRetry
  rw [htotal]
  rfl

end rounds

end Action

/-! ### Steps with given outcomes -/

/-- What happens while a step is tried. -/
inductive TrialEvent where
  /-- The step is made. -/
  | made
  /-- A number of milliseconds passes. -/
  | waited (milliseconds : Nat)
  /-- The program panics. -/
  | panicked
  deriving DecidableEq, Repr

/-- What has happened while a step was tried. -/
structure Trial where
  /-- The attempts, the waits and a panic at the end, in order. -/
  events : List TrialEvent
  /-- What was said about them. -/
  log : List LogEntry
  deriving DecidableEq, Repr

namespace Trial

instance : Chronicle Trial where
  record entry trial := { trial with log := trial.log ++ [entry] }
  wait milliseconds trial := { trial with events := trial.events ++ [.waited milliseconds] }
  panic trial := { trial with events := trial.events ++ [.panicked] }

/-- Nothing has happened yet. -/
def start : Trial := ⟨[], []⟩

/-- How often the step was made. -/
def made (trial : Trial) : Nat := trial.events.count .made

/-- The waits, in order. -/
def waits (trial : Trial) : List Nat :=
  trial.events.filterMap fun
    | .waited milliseconds => some milliseconds
    | .made | .panicked => none

/-- Whether the program has panicked. -/
def Panicked (trial : Trial) : Prop := .panicked ∈ trial.events

/-- The warnings that were given, in order. -/
def warnings (trial : Trial) : List LogEntry := trial.log.filter (·.level = .warn)

variable {α : Type}

/-- A step that comes to the first outcome when it is first made, then to the second, and so on. -/
def step (outcomes : Nat → Except Failure α) : Action Trial α :=
  Action.ofFunction fun trial =>
    (outcomes trial.made, { trial with events := trial.events ++ [.made] })

/-- Whether an outcome is a failure that may pass. -/
def Passing (outcome : Except Failure α) : Prop :=
  ∃ failure, outcome = .error failure ∧ failure.isRetryable = true

/-- Which outcome is the last: the first that is no passing failure, but none behind the one at the
    limit. -/
structure IsLast (outcomes : Nat → Except Failure α) (limit last : Nat) : Prop where
  /-- The limit is kept. -/
  le : last ≤ limit
  /-- All outcomes before it are passing failures. -/
  passing : ∀ i, i < last → Passing (outcomes i)
  /-- Below the limit it is no passing failure itself. -/
  lasting : last < limit → ¬ Passing (outcomes last)

/-- There is only one such outcome. -/
theorem IsLast.unique {outcomes : Nat → Except Failure α} {limit last other : Nat}
    (h : IsLast outcomes limit last) (hother : IsLast outcomes limit other) : last = other := by
  rcases Nat.lt_trichotomy last other with hlt | heq | hgt
  · exact absurd (hother.passing last hlt) (h.lasting (Nat.lt_of_lt_of_le hlt hother.le))
  · exact heq
  · exact absurd (h.passing other hgt) (hother.lasting (Nat.lt_of_lt_of_le hgt h.le))

/-- Each further attempt comes behind its wait. -/
def retries (policy : RetryPolicy) (first count : Nat) : List TrialEvent :=
  (List.range' first count).flatMap fun k => [.waited (min 60000 (policy.baseDelay * 2 ^ k)), .made]

theorem retries_succ (policy : RetryPolicy) (first count : Nat) :
    retries policy first (count + 1) =
      .waited (policy.delayFor (first + 1)) :: .made :: retries policy (first + 1) count := by
  unfold retries
  rw [List.range'_succ, List.flatMap_cons, policy.delayFor_succ]
  rfl

theorem count_made_retries (policy : RetryPolicy) (first count : Nat) :
    (retries policy first count).count .made = count := by
  induction count generalizing first with
  | zero => rfl
  | succ count ih => simp [retries_succ, ih]

/-- The last attempt: its outcome is handed back, and no further warning is given. -/
theorem exists_of_last (policy : RetryPolicy) (name : String) (outcomes : Nat → Except Failure α)
    (left : Nat) (trial : Trial) (h : left = 0 ∨ ¬ Passing (outcomes trial.made)) :
    ∃ log, warnings ⟨trial.events ++ [.made], log⟩ = trial.warnings ∧
      (Action.attemptFrom policy name (fun _ => step outcomes) trial.made left).perform trial =
        (outcomes trial.made, ⟨trial.events ++ [.made], log⟩) := by
  have hstep : (step outcomes).perform trial =
      (outcomes trial.made, ⟨trial.events ++ [.made], trial.log⟩) := rfl
  cases houtcome : outcomes trial.made with
  | ok result =>
    rw [houtcome] at hstep
    have hround := @Action.perform_attemptFrom_of_ok Trial α _ policy name (fun _ => step outcomes)
      trial.made left trial _ result hstep
    rw [hround, Action.perform_bind]
    unfold Action.recordSuccess
    -- a success behind others is recorded, and nothing else happens
    by_cases hfirst : trial.made = 0
    · rw [if_pos hfirst]
      exact ⟨_, rfl, rfl⟩
    · rw [if_neg hfirst]
      refine ⟨_, ?_, rfl⟩
      simp [warnings]
  | error failure =>
    rw [houtcome] at hstep
    refine ⟨trial.log, rfl, ?_⟩
    rcases h with rfl | hlasting
    · exact Action.perform_attemptFrom_zero hstep
    · refine Action.perform_attemptFrom_of_error hstep ?_
      by_contra hpassing
      exact hlasting ⟨failure, houtcome, by simpa using hpassing⟩

/-- An attempt that others follow: behind it are a warning and their first wait. -/
theorem exists_of_passing {policy : RetryPolicy} {total : UInt32}
    (htotal : policy.totalAttempts? = some total) (name : String)
    {outcomes : Nat → Except Failure α} (left : Nat) {trial : Trial}
    (h : Passing (outcomes trial.made)) :
    ∃ next : Trial, next.made = trial.made + 1 ∧
      next.events = trial.events ++ [.made, .waited (policy.delayFor (trial.made + 1))] ∧
      (∀ failure, outcomes trial.made = .error failure → next.warnings = trial.warnings ++
        [retryWarning name (trial.made + 1) total.toNat failure
          (policy.delayFor (trial.made + 1))]) ∧
      (Action.attemptFrom policy name (fun _ => step outcomes) trial.made (left + 1)).perform trial =
        (Action.attemptFrom policy name (fun _ => step outcomes) next.made left).perform next := by
  obtain ⟨failure, houtcome, hpassing⟩ := h
  have hstep : (step outcomes).perform trial =
      (.error failure, ⟨trial.events ++ [.made], trial.log⟩) := by
    rw [← houtcome]
    rfl
  have hround := @Action.perform_attemptFrom_succ Trial α _ policy name (fun _ => step outcomes)
    trial.made left trial _ failure hstep hpassing total htotal
  have hwarnings : ∀ other, outcomes trial.made = .error other →
      warnings (Chronicle.wait (policy.delayFor (trial.made + 1)) (Chronicle.record
        (retryWarning name (trial.made + 1) total.toNat failure (policy.delayFor (trial.made + 1)))
        ⟨trial.events ++ [.made], trial.log⟩)) = trial.warnings ++
        [retryWarning name (trial.made + 1) total.toNat other
          (policy.delayFor (trial.made + 1))] := by
    intro other hother
    cases houtcome.symm.trans hother
    exact List.filter_append trial.log _
  -- the entry in the log leaves the events as they are, and the wait comes behind the attempt
  generalize hnext : (Chronicle.wait _ _ : Trial) = next at hround hwarnings
  have hevents : next.events =
      trial.events ++ [.made, .waited (policy.delayFor (trial.made + 1))] := by
    rw [← hnext]
    exact List.append_assoc trial.events [.made] [.waited (policy.delayFor (trial.made + 1))]
  have hmade : next.made = trial.made + 1 := by
    unfold made
    rw [hevents, List.count_append]
    rfl
  rw [← hmade] at hround
  exact ⟨next, hmade, hevents, hwarnings, hround⟩

/-- The rounds from one attempt on. The induction is on the number of attempts that may follow; it
    goes on behind the wait, where the step was made once more. -/
theorem exists_of_attemptFrom {policy : RetryPolicy} {total : UInt32}
    (htotal : policy.totalAttempts? = some total) (name : String)
    (outcomes : Nat → Except Failure α) (left : Nat) (trial : Trial) :
    ∃ count log, count ≤ left ∧ (∀ i < count, Passing (outcomes (trial.made + i))) ∧
      (count < left → ¬ Passing (outcomes (trial.made + count))) ∧
      (Action.attemptFrom policy name (fun _ => step outcomes) trial.made left).perform trial =
        (outcomes (trial.made + count),
          ⟨trial.events ++ .made :: retries policy trial.made count, log⟩) := by
  induction left generalizing trial with
  | zero =>
    obtain ⟨log, -, hlast⟩ := exists_of_last policy name outcomes 0 trial (.inl rfl)
    exact ⟨0, log, Nat.le_refl 0, nofun, nofun, hlast⟩
  | succ left ih =>
    by_cases hpassing : Passing (outcomes trial.made)
    · obtain ⟨next, hmade, hevents, -, hround⟩ := exists_of_passing htotal name left hpassing
      obtain ⟨count, log, hcount, hbefore, hlasting, hperform⟩ := ih next
      have hindex : ∀ i, next.made + i = trial.made + (i + 1) := by
        intro i
        omega
      rw [hindex] at hlasting hperform
      refine ⟨count + 1, log, Nat.succ_le_succ hcount, fun i hi => ?_, fun hmore => ?_, ?_⟩
      · cases i with
        | zero => exact hpassing
        | succ i =>
          rw [← hindex]
          exact hbefore i (Nat.lt_of_succ_lt_succ hi)
      · exact hlasting (Nat.lt_of_succ_lt_succ hmore)
      · rw [hround, hperform, hevents, hmade, retries_succ, List.append_assoc]
        rfl
    · obtain ⟨log, -, hlast⟩ :=
        exists_of_last policy name outcomes (left + 1) trial (.inr hpassing)
      exact ⟨0, log, Nat.zero_le _, nofun, fun _ => hpassing, hlast⟩

/-- There is one wait for each retry. -/
theorem waits_retries (policy : RetryPolicy) (first count : Nat) (log : List LogEntry) :
    waits ⟨.made :: retries policy first count, log⟩ =
      (List.range' first count).map fun k => policy.delayFor (k + 1) := by
  induction count generalizing first with
  | zero => rfl
  | succ count ih =>
    rw [List.range'_succ, List.map_cons, ← ih (first + 1), retries_succ]
    rfl

/-- A step with given outcomes is made until one of them is no passing failure, or until the retries
    are used up; however the outcomes come, it ends. The last outcome is handed back as it is.
    Before each further attempt there is one wait: the first is as long as the policy says, and
    every other one twice as long as the one before, but none is longer than a minute. This holds
    for every number of retries below the greatest word. -/
theorem retry_of_outcomes {policy : RetryPolicy} (h : policy.maxRetries.toNat + 1 < 2 ^ 32)
    (name : String) (outcomes : Nat → Except Failure α) :
    ∃ last trial, IsLast outcomes policy.maxRetries.toNat last ∧
      (Action.retry policy name fun _ => step outcomes).perform start = (outcomes last, trial) ∧
      trial.made = last + 1 ∧
      (trial.events = .made :: (List.range last).flatMap fun k =>
        [.waited (min 60000 (policy.baseDelay * 2 ^ k)), .made]) ∧
      trial.waits.Pairwise (· ≤ ·) ∧ ∀ wait ∈ trial.waits, wait ≤ 60000 := by
  obtain ⟨last, log, hle, hpassing, hlasting, hperform⟩ :=
    exists_of_attemptFrom (RetryPolicy.totalAttempts?_of_lt h) name outcomes
      policy.maxRetries.toNat start
  have hmade : start.made = 0 := rfl
  rw [hmade] at hperform hlasting hpassing
  simp only [Nat.zero_add] at hperform hlasting hpassing
  have hwaits := waits_retries policy 0 last log
  refine ⟨last, ⟨.made :: retries policy 0 last, log⟩, ⟨hle, hpassing, hlasting⟩, hperform,
    ?_, ?_, ?_, ?_⟩
  · unfold made
    rw [List.count_cons_self, count_made_retries]
  · rw [List.range_eq_range']
    rfl
  · rw [hwaits, List.pairwise_map]
    exact (List.pairwise_lt_range' 1).imp fun h => policy.delayFor_mono (Nat.le_of_lt h)
  · intro wait hwait
    rw [hwaits] at hwait
    obtain ⟨k, -, rfl⟩ := List.mem_map.mp hwait
    exact policy.delayFor_le (k + 1)

/-- A step that fails twice for a passing reason and then succeeds. -/
def secondThoughts : Nat → Except Failure Nat
  | 0 => .error (.publish (.network "down"))
  | 1 => .error (.publish (.network "busy"))
  | n => .ok n

theorem isLast_secondThoughts : IsLast secondThoughts 5 2 where
  le := by decide
  passing i hi := by
    rcases Nat.lt_succ_iff_lt_or_eq.mp hi with h | rfl
    · obtain rfl : i = 0 := Nat.lt_one_iff.mp h
      exact ⟨_, rfl, rfl⟩
    · exact ⟨_, rfl, rfl⟩
  lasting _ := by
    rintro ⟨failure, h, -⟩
    cases h

theorem retry_of_secondThoughts : ∃ trial,
    (Action.retry ⟨5, 40000⟩ "publish" fun _ => step secondThoughts).perform start =
      (.ok 2, trial) ∧
    trial.events = [.made, .waited 40000, .made, .waited 60000, .made] := by
  obtain ⟨last, trial, hlast, hperform, -, hevents, -⟩ :=
    @retry_of_outcomes Nat ⟨5, 40000⟩ (by decide) "publish" secondThoughts
  obtain rfl := hlast.unique isLast_secondThoughts
  exact ⟨trial, hperform, hevents⟩

/-! ### Panics -/

/-- With the greatest word as the number of retries, a first attempt that fails for a passing reason
    is the last: the program panics before anything is said or waited for. -/
theorem perform_of_panic {policy : RetryPolicy} (hmax : policy.maxRetries.toNat + 1 = 2 ^ 32)
    (name : String) {outcomes : Nat → Except Failure α} (h : Passing (outcomes 0)) :
    (Action.retry policy name fun _ => step outcomes).perform start =
      (outcomes 0, ⟨[.made, .panicked], []⟩) := by
  obtain ⟨failure, houtcome, hpassing⟩ := h
  have hstep : (step outcomes).perform start = (.error failure, ⟨[.made], []⟩) := by
    rw [← houtcome]
    rfl
  have hleft : policy.maxRetries.toNat = (2 ^ 32 - 2) + 1 := by omega
  unfold Action.retry
  rw [hleft, houtcome]
  exact @Action.perform_attemptFrom_of_panic Trial α _ policy name (fun _ => step outcomes) 0 _
    start _ failure hstep hpassing (RetryPolicy.totalAttempts?_eq_none_iff.mpr hmax)

/-- Trying again panics exactly if the number of retries is the greatest word and the first attempt
    fails for a passing reason. -/
theorem panicked_iff (policy : RetryPolicy) (name : String) (outcomes : Nat → Except Failure α) :
    ((Action.retry policy name fun _ => step outcomes).perform start).2.Panicked ↔
      policy.maxRetries.toNat + 1 = 2 ^ 32 ∧ Passing (outcomes 0) := by
  have hword := policy.maxRetries.toNat_lt
  unfold Panicked
  rcases Nat.lt_or_eq_of_le (Nat.succ_le_of_lt hword) with hfits | hmax
  · obtain ⟨last, trial, -, hperform, -, hevents, -⟩ := retry_of_outcomes hfits name outcomes
    rw [hperform, hevents]
    exact iff_of_false (by simp) fun h => absurd h.1 (Nat.ne_of_lt hfits)
  · by_cases hpassing : Passing (outcomes 0)
    · rw [perform_of_panic hmax name hpassing]
      exact iff_of_true (by simp) ⟨hmax, hpassing⟩
    · -- the first attempt is the last one for a reason of its own
      obtain ⟨log, -, hlast⟩ := exists_of_last policy name outcomes policy.maxRetries.toNat start
        (.inr hpassing)
      have hperform : (Action.retry policy name fun _ => step outcomes).perform start =
          (outcomes 0, ⟨[.made], log⟩) := hlast
      rw [hperform]
      exact iff_of_false (by simp) fun h => hpassing h.2

end Trial

end PackageRelease
