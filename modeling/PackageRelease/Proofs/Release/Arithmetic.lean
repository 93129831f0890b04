import PackageRelease.Proofs.Release.Backoff

/-! # The arithmetic of trying again

  Trying again counts the failed attempts and the attempts in all in words of 32 bits, and works out
  each wait from a power and a product. The key idea: the rounds are worked out a second time in
  words, where a sum that does not fit leaves nothing at all, and are then compared with the rounds
  that are made.

  - A power that does not fit is replaced by the greatest word, and a product that does not fit by
    the longest time span, so neither can fail.
  - The number of failed attempts always fits, because it stays within the number of retries.
  - The number of attempts in all fits unless the number of retries is the greatest word. There the
    program panics at the first warning.
-/

namespace PackageRelease

/-! ### Words -/

namespace Word

/-- The product of two words, if 32 bits hold it. -/
def mul? (a b : UInt32) : Option UInt32 :=
  if a.toNat * b.toNat < count 32 then some (a * b) else none

/-- A power of two, doubled step by step, if 32 bits hold it. -/
def power? : Nat → Option UInt32
  | 0 => some 1
  | n + 1 => (power? n).bind (mul? 2)

/-- A power of two, or the greatest word in its place. -/
def saturatingPower (exponent : UInt32) : UInt32 :=
  (power? exponent.toNat).getD (UInt32.ofNat (count 32 - 1))

/-- The word before a word, and zero for zero. -/
def before (a : UInt32) : UInt32 := if a = 0 then 0 else a - 1

theorem mul?_eq_some_iff {a b c : UInt32} : mul? a b = some c ↔ c.toNat = a.toNat * b.toNat := by
  have hc := c.toNat_lt_size
  unfold mul?
  rw [count_eq]
  split
  · next hfits =>
    have hproduct : (a * b).toNat = a.toNat * b.toNat := by
      rw [UInt32.toNat_mul]
      exact Nat.mod_eq_of_lt hfits
    rw [Option.some.injEq, ← UInt32.toNat_inj, hproduct]
    exact eq_comm
  · next hlarge =>
    simp only [reduceCtorEq, false_iff]
    omega

/-- Doubling step by step comes to the power exactly if a word holds it. -/
theorem power?_eq_some_iff {n : Nat} {w : UInt32} : power? n = some w ↔ w.toNat = 2 ^ n := by
  induction n generalizing w with
  | zero =>
    show some 1 = some w ↔ w.toNat = 1
    rw [Option.some.injEq, ← UInt32.toNat_inj]
    exact eq_comm
  | succ n ih =>
    show (power? n).bind (mul? 2) = some w ↔ _
    rw [Option.bind_eq_some_iff, Nat.pow_succ]
    constructor
    · rintro ⟨half, hhalf, hw⟩
      rw [ih] at hhalf
      rw [mul?_eq_some_iff, hhalf] at hw
      rw [hw, Nat.mul_comm]
      rfl
    · intro hw
      -- if the power fits, so does its half
      have hfits := w.toNat_lt
      have hless : 2 ^ n < 2 ^ 32 := by omega
      have hhalf : (UInt32.ofNat (2 ^ n)).toNat = 2 ^ n := UInt32.toNat_ofNat_of_lt' hless
      refine ⟨UInt32.ofNat (2 ^ n), ih.mpr hhalf, mul?_eq_some_iff.mpr ?_⟩
      rw [hhalf, hw, Nat.mul_comm]
      rfl

theorem toNat_saturatingPower (exponent : UInt32) :
    (saturatingPower exponent).toNat = min RetryPolicy.factorLimit (2 ^ exponent.toNat) := by
  have hlimit : RetryPolicy.factorLimit = 2 ^ 32 - 1 := rfl
  unfold saturatingPower
  cases hpower : power? exponent.toNat with
  | some w =>
    have hfits := w.toNat_lt
    rw [power?_eq_some_iff] at hpower
    show w.toNat = _
    omega
  | none =>
    have hlarge : ¬ 2 ^ exponent.toNat < 2 ^ 32 := by
      intro hfits
      have hsome := power?_eq_some_iff.mpr (UInt32.toNat_ofNat_of_lt' hfits)
      rw [hpower] at hsome
      cases hsome
    show (UInt32.ofNat (2 ^ 32 - 1)).toNat = _
    rw [UInt32.toNat_ofNat_of_lt' (by decide)]
    omega

theorem toNat_before (a : UInt32) : (before a).toNat = a.toNat - 1 := by
  have ha := a.toNat_lt
  unfold before
  split
  · next hzero => rw [hzero]; rfl
  · next hne =>
    have hpos : a.toNat ≠ 0 := fun h => hne (UInt32.toNat_inj.mp h)
    rw [UInt32.toNat_sub]
    show (2 ^ 32 - 1 + a.toNat) % 2 ^ 32 = _
    omega

end Word

/-! ### Waits -/

namespace RetryPolicy

/-- The wait in nanoseconds after a number of failed attempts, worked out in words from the first
    wait in nanoseconds. -/
def delayInWords (base : Nat) (attempts : UInt32) : Nat :=
  min (1000000 * maxDelay)
    (multiplySpan base (Word.saturatingPower (Word.before attempts)).toNat)

/-- However long the first wait is, the wait is the exact product unless the minute is over or the
    factor is at its limit. -/
theorem delayInWords_eq (base : Nat) (attempts : UInt32) : delayInWords base attempts =
    min 60000000000 (base * min (2 ^ 32 - 1) (2 ^ (attempts.toNat - 1))) := by
  have hlong : 60000000000 ≤ longestSpan := by decide
  unfold delayInWords multiplySpan
  rw [Word.toNat_saturatingPower, Word.toNat_before]
  show min 60000000000 (min longestSpan (base * min (2 ^ 32 - 1) _)) = _
  generalize base * min (2 ^ 32 - 1) (2 ^ (attempts.toNat - 1)) = product
  omega

/-- For whole milliseconds it is the wait of the policy. -/
theorem delayInWords_of_policy (policy : RetryPolicy) (attempts : UInt32) :
    delayInWords (1000000 * policy.baseDelay) attempts =
      1000000 * policy.delayFor attempts.toNat := by
  rw [policy.delayFor_eq_multiplySpan]
  unfold delayInWords
  rw [Word.toNat_saturatingPower, Word.toNat_before]

end RetryPolicy

/-! ### Rounds -/

/-- A further attempt as it is announced: everything that is worked out for it. -/
structure Retrial where
  /-- How many attempts have failed. -/
  attempt : UInt32
  /-- How many there may be in all. -/
  total : UInt32
  /-- The failure of the last one. -/
  failure : Failure
  /-- The wait in nanoseconds. -/
  wait : Nat
  deriving DecidableEq, Repr

/-- What is said about it. -/
def Retrial.warning (name : String) (retrial : Retrial) : LogEntry :=
  Trial.retryWarning name retrial.attempt.toNat retrial.total.toNat retrial.failure
    (retrial.wait / 1000000)

namespace Trial

variable {α : Type}

/-- The rounds behind a number of failed attempts, worked out in words: the last outcome and the
    further attempts. If a sum does not fit, there is nothing. -/
def roundsInWords (limit : UInt32) (base : Nat) (outcomes : Nat → Except Failure α)
    (attempts : UInt32) : Option (Except Failure α × List Retrial) :=
  match outcomes attempts.toNat with
  | .ok result => some (.ok result, [])
  | .error failure =>
    if failure.isRetryable = false ∨ limit ≤ attempts then some (.error failure, [])
    else
      match _hnext : Word.add? attempts 1, Word.add? limit 1 with
      | some next, some total =>
        (roundsInWords limit base outcomes next).map fun (outcome, retrials) =>
          (outcome, ⟨next, total, failure, RetryPolicy.delayInWords base next⟩ :: retrials)
      | _, _ => none
termination_by limit.toNat - attempts.toNat
decreasing_by
  rename_i hgoes
  have hcount := Word.add?_eq_some_iff.mp _hnext
  rw [not_or, UInt32.le_iff_toNat_le] at hgoes
  simp only [UInt32.toNat_one] at hcount
  omega

variable {limit attempts : UInt32} {base : Nat} {outcomes : Nat → Except Failure α}
  {failure : Failure}

/-- The last attempt needs no arithmetic. -/
theorem rounds_of_last (base : Nat)
    (h : limit ≤ attempts ∨ ¬ Passing (outcomes attempts.toNat)) :
    roundsInWords limit base outcomes attempts = some (outcomes attempts.toNat, []) := by
  rw [roundsInWords]
  cases houtcome : outcomes attempts.toNat with
  | ok result => rfl
  | error failure =>
    have hends : failure.isRetryable = false ∨ limit ≤ attempts := by
      rcases h with hlimit | hlasting
      · exact .inr hlimit
      · left
        by_contra hpassing
        exact hlasting ⟨failure, houtcome, by simpa using hpassing⟩
    exact if_pos hends

/-- The number of failed attempts grows by one as long as a retry is left. -/
theorem toNat_succ (h : attempts < limit) : (attempts + 1).toNat = attempts.toNat + 1 := by
  have hlimit := limit.toNat_lt
  rw [UInt32.lt_iff_toNat_lt] at h
  rw [UInt32.toNat_add, UInt32.toNat_one]
  omega

theorem add?_attempts (h : attempts < limit) : Word.add? attempts 1 = some (attempts + 1) :=
  Word.add?_eq_some_iff.mpr (toNat_succ h)

/-- After a passing failure another attempt is made as long as a retry is left. -/
theorem not_last_of_passing (hmore : attempts < limit) (hpassing : failure.isRetryable = true) :
    ¬ (failure.isRetryable = false ∨ limit ≤ attempts) := by
  rintro (hlasting | hlimit)
  · cases hpassing.symm.trans hlasting
  · exact absurd hmore (UInt32.not_lt.mpr hlimit)

/-- An attempt that others follow, when there is a word for the attempts in all. -/
theorem rounds_of_passing (hlimit : limit.toNat + 1 < 2 ^ 32) (hmore : attempts < limit)
    (base : Nat) (houtcome : outcomes attempts.toNat = .error failure)
    (hpassing : failure.isRetryable = true) :
    roundsInWords limit base outcomes attempts =
      (roundsInWords limit base outcomes (attempts + 1)).map fun (outcome, retrials) =>
        (outcome, ⟨attempts + 1, limit + 1, failure,
          RetryPolicy.delayInWords base (attempts + 1)⟩ :: retrials) := by
  have htotal : Word.add? limit 1 = some (limit + 1) := by
    rw [Word.add?_eq_some_iff, UInt32.toNat_add, UInt32.toNat_one]
    omega
  rw [roundsInWords, houtcome]
  dsimp only
  rw [if_neg (not_last_of_passing hmore hpassing)]
  split
  · next next total hnext hsum =>
    cases (add?_attempts hmore).symm.trans hnext
    cases htotal.symm.trans hsum
    rfl
  · next hnone => exact absurd htotal (hnone _ _ (add?_attempts hmore))

/-- Without a word for the attempts in all, there is nothing to be said about a further one. -/
theorem rounds_of_overflow (hlimit : limit.toNat + 1 = 2 ^ 32) (hmore : attempts < limit)
    (base : Nat) (h : Passing (outcomes attempts.toNat)) :
    roundsInWords limit base outcomes attempts = none := by
  obtain ⟨failure, houtcome, hpassing⟩ := h
  have htotal : Word.add? limit 1 = none := by
    rw [Word.add?_eq_none_iff, UInt32.toNat_one]
    exact Nat.le_of_eq hlimit.symm
  rw [roundsInWords, houtcome]
  dsimp only
  rw [if_neg (not_last_of_passing hmore hpassing)]
  split
  · next next total hnext hsum =>
    rw [htotal] at hsum
    cases hsum
  · rfl

/-- A further attempt is announced as it should be behind the outcome with a number: the failed
    attempts and the attempts in all are counted exactly, and the wait is cut at a minute. -/
structure Announces (limit : UInt32) (base : Nat) (outcomes : Nat → Except Failure α) (k : Nat)
    (retrial : Retrial) : Prop where
  /-- It is announced behind as many failed attempts as there were. -/
  attempt_eq : retrial.attempt.toNat = k + 1
  /-- There may be one attempt more than there are retries. -/
  total_eq : retrial.total.toNat = limit.toNat + 1
  /-- The failure is the last one. -/
  failure_eq : outcomes k = .error retrial.failure
  /-- The wait has doubled each time. -/
  wait_eq : retrial.wait = min 60000000000 (base * min (2 ^ 32 - 1) (2 ^ k))

theorem announces_of_passing (hlimit : limit.toNat + 1 < 2 ^ 32) (hmore : attempts < limit)
    (base : Nat) (houtcome : outcomes attempts.toNat = .error failure) :
    Announces limit base outcomes attempts.toNat
      ⟨attempts + 1, limit + 1, failure, RetryPolicy.delayInWords base (attempts + 1)⟩ where
  attempt_eq := toNat_succ hmore
  total_eq := by
    show (limit + 1).toNat = _
    rw [UInt32.toNat_add, UInt32.toNat_one]
    omega
  failure_eq := houtcome
  wait_eq := by
    show RetryPolicy.delayInWords base (attempts + 1) = _
    rw [RetryPolicy.delayInWords_eq, toNat_succ hmore]
    rfl

/-- With a word for the attempts in all, all rounds can be worked out. The induction is on the
    number of retries that are left. -/
theorem exists_rounds (hlimit : limit.toNat + 1 < 2 ^ 32) (base : Nat)
    (outcomes : Nat → Except Failure α) (left : Nat) (hleft : attempts.toNat + left = limit.toNat) :
    ∃ retrials, roundsInWords limit base outcomes attempts =
        some (outcomes (attempts.toNat + retrials.length), retrials) ∧
      retrials.length ≤ left ∧
      (∀ i < retrials.length, Passing (outcomes (attempts.toNat + i))) ∧
      (retrials.length < left → ¬ Passing (outcomes (attempts.toNat + retrials.length))) ∧
      ∀ k retrial, retrials[k]? = some retrial →
        Announces limit base outcomes (attempts.toNat + k) retrial := by
  induction left generalizing attempts with
  | zero =>
    have hend : limit ≤ attempts := by
      rw [UInt32.le_iff_toNat_le]
      omega
    exact ⟨[], rounds_of_last base (.inl hend), Nat.le_refl 0, nofun, nofun, nofun⟩
  | succ left ih =>
    by_cases hpassing : Passing (outcomes attempts.toNat)
    · obtain ⟨failure, houtcome, hretryable⟩ := id hpassing
      have hmore : attempts < limit := by
        rw [UInt32.lt_iff_toNat_lt]
        omega
      have hsucc := toNat_succ hmore
      obtain ⟨retrials, hrounds, hlength, hbefore, hlasting, hannounced⟩ :=
        @ih (attempts + 1) (by omega)
      -- the rounds that follow are counted from one attempt further on
      have hindex : ∀ i, (attempts + 1).toNat + i = attempts.toNat + (i + 1) := by
        intro i
        omega
      simp only [hindex] at hrounds hbefore hlasting hannounced
      refine ⟨⟨attempts + 1, limit + 1, failure,
        RetryPolicy.delayInWords base (attempts + 1)⟩ :: retrials, ?_, ?_, ?_, ?_, ?_⟩
      · rw [rounds_of_passing hlimit hmore base houtcome hretryable, hrounds]
        rfl
      · exact Nat.succ_le_succ hlength
      · intro i hi
        cases i with
        | zero => exact hpassing
        | succ i => exact hbefore i (Nat.lt_of_succ_lt_succ hi)
      · intro hmore
        exact hlasting (Nat.lt_of_succ_lt_succ hmore)
      · intro k retrial hretrial
        cases k with
        | zero =>
          cases hretrial
          exact announces_of_passing hlimit hmore base houtcome
        | succ k => exact hannounced k retrial hretrial
    · exact ⟨[], rounds_of_last base (.inr hpassing), Nat.zero_le _, nofun, fun _ => hpassing,
        nofun⟩

/-- The last attempt warns of nothing and is not waited for. -/
theorem perform_of_last (policy : RetryPolicy) (name : String) (outcomes : Nat → Except Failure α)
    {left : Nat} {trial : Trial} (h : left = 0 ∨ ¬ Passing (outcomes trial.made)) :
    ∃ final, (Action.attemptFrom policy name (fun _ => step outcomes) trial.made left).perform
        trial = (outcomes trial.made, final) ∧
      final.warnings = trial.warnings ∧ final.waits = trial.waits := by
  obtain ⟨log, hwarnings, hperform⟩ := exists_of_last policy name outcomes left trial h
  refine ⟨_, hperform, hwarnings, ?_⟩
  simp [waits]

/-- What is said and how long is waited in a round is what is worked out for it. -/
theorem warning_of_policy (policy : RetryPolicy) (name : String) (attempts total : UInt32)
    (failure : Failure) :
    Retrial.warning name ⟨attempts, total, failure,
        RetryPolicy.delayInWords (1000000 * policy.baseDelay) attempts⟩ =
      retryWarning name attempts.toNat total.toNat failure (policy.delayFor attempts.toNat) := by
  unfold Retrial.warning
  dsimp only
  rw [RetryPolicy.delayInWords_of_policy, Nat.mul_div_cancel_left _ (by decide)]

/-- The rounds that are made are those that are worked out: they end in the same way, and each
    further attempt is announced and waited for. -/
theorem perform_of_rounds {policy : RetryPolicy} (hlimit : policy.maxRetries.toNat + 1 < 2 ^ 32)
    (name : String) (left : Nat) (hleft : attempts.toNat + left = policy.maxRetries.toNat)
    {outcome : Except Failure α} {retrials : List Retrial}
    (hrounds : roundsInWords policy.maxRetries (1000000 * policy.baseDelay) outcomes attempts =
      some (outcome, retrials)) {trial : Trial} (hmade : trial.made = attempts.toNat) :
    ∃ final, (Action.attemptFrom policy name (fun _ => step outcomes) trial.made left).perform
        trial = (outcome, final) ∧
      final.warnings = trial.warnings ++ retrials.map (Retrial.warning name) ∧
      final.waits = trial.waits ++ retrials.map fun retrial => retrial.wait / 1000000 := by
  induction left generalizing attempts retrials trial with
  | zero =>
    have hend : policy.maxRetries ≤ attempts := by
      rw [UInt32.le_iff_toNat_le]
      omega
    cases (rounds_of_last _ (.inl hend)).symm.trans hrounds
    rw [← hmade]
    simpa using perform_of_last policy name outcomes (.inl rfl)
  | succ left ih =>
    by_cases hpassing : Passing (outcomes attempts.toNat)
    · obtain ⟨failure, houtcome, hretryable⟩ := id hpassing
      have hmore : attempts < policy.maxRetries := by
        rw [UInt32.lt_iff_toNat_lt]
        omega
      have hsucc := toNat_succ hmore
      rw [rounds_of_passing hlimit hmore _ houtcome hretryable, Option.map_eq_some_iff] at hrounds
      obtain ⟨⟨_, rest⟩, hrest, hmore⟩ := hrounds
      cases hmore
      -- the round leads to the state in which the next one begins
      rw [← hmade] at hpassing houtcome
      obtain ⟨next, hnext, hevents, hwarnings, hround⟩ :=
        exists_of_passing (RetryPolicy.totalAttempts?_of_lt hlimit) name left hpassing
      obtain ⟨final, hperform, hfinal, hwaits⟩ :=
        ih (by omega) hrest (hnext.trans (by rw [hmade, hsucc]))
      refine ⟨final, hround.trans hperform, ?_, ?_⟩
      · rw [hfinal, hwarnings failure houtcome, List.map_cons, warning_of_policy, hsucc, ← hmade,
          List.append_assoc]
        rfl
      · have hwaited : next.waits = trial.waits ++ [policy.delayFor (trial.made + 1)] := by
          unfold waits
          rw [hevents, List.filterMap_append]
          rfl
        rw [hwaits, hwaited, List.map_cons, RetryPolicy.delayInWords_of_policy,
          Nat.mul_div_cancel_left _ (by decide), hsucc, ← hmade, List.append_assoc]
        rfl
    · cases (rounds_of_last _ (.inr hpassing)).symm.trans hrounds
      rw [← hmade] at hpassing ⊢
      simpa using perform_of_last policy name outcomes (.inr hpassing)

/-- The arithmetic of trying again fails exactly if the number of retries is the greatest word and
    the first attempt fails for a passing reason: then no word holds the number of attempts in all,
    and the program panics. With any other number of retries, and with any first wait in
    nanoseconds, every sum fits, the rounds end with the outcome with which they should, and the
    warning with number `k` announces the attempt `k` of all attempts, which is never the last of
    them. For a first wait of whole milliseconds these are the warnings that are given and the waits
    that are made. -/
theorem arithmetic_of_retry (limit : UInt32) (base : Nat) (outcomes : Nat → Except Failure α) :
    (roundsInWords limit base outcomes 0 = none ↔
      limit.toNat + 1 = 2 ^ 32 ∧ Passing (outcomes 0)) ∧
    (∀ (policy : RetryPolicy) (name : String), policy.maxRetries = limit →
      (((Action.retry policy name fun _ => step outcomes).perform start).2.Panicked ↔
        limit.toNat + 1 = 2 ^ 32 ∧ Passing (outcomes 0))) ∧
    (limit.toNat + 1 < 2 ^ 32 → ∃ last retrials, IsLast outcomes limit.toNat last ∧
      roundsInWords limit base outcomes 0 = some (outcomes last, retrials) ∧
      retrials.length = last ∧
      (∀ k retrial, retrials[k]? = some retrial → Announces limit base outcomes k retrial ∧
        retrial.attempt < retrial.total) ∧
      ∀ (policy : RetryPolicy) (name : String), policy.maxRetries = limit →
        1000000 * policy.baseDelay = base → ∃ trial,
          (Action.retry policy name fun _ => step outcomes).perform start =
            (outcomes last, trial) ∧
          trial.warnings = retrials.map (Retrial.warning name) ∧
          trial.waits = retrials.map fun retrial => retrial.wait / 1000000) := by
  have hzero : (0 : UInt32).toNat = 0 := rfl
  refine ⟨⟨?_, ?_⟩, ?_, ?_⟩
  · intro hnone
    by_cases hpassing : Passing (outcomes 0)
    · refine ⟨?_, hpassing⟩
      by_contra hfits
      have hlimit : limit.toNat + 1 < 2 ^ 32 := by
        have := limit.toNat_lt
        omega
      obtain ⟨retrials, hrounds, -⟩ :=
        @exists_rounds α limit 0 hlimit base outcomes limit.toNat (by omega)
      cases hnone.symm.trans hrounds
    · cases hnone.symm.trans (@rounds_of_last α limit 0 outcomes base (.inr hpassing))
  · -- a retry is left, so its warning is due
    rintro ⟨hlimit, hpassing⟩
    refine rounds_of_overflow hlimit ?_ base hpassing
    rw [UInt32.lt_iff_toNat_lt]
    omega
  · rintro policy name rfl
    exact panicked_iff policy name outcomes
  · intro hlimit
    obtain ⟨retrials, hrounds, hlength, hbefore, hlasting, hannounced⟩ :=
      @exists_rounds α limit 0 hlimit base outcomes limit.toNat (by omega)
    simp only [hzero, Nat.zero_add] at hrounds hbefore hlasting hannounced
    refine ⟨retrials.length, retrials, ⟨hlength, hbefore, hlasting⟩, hrounds, rfl, ?_, ?_⟩
    · intro k retrial hretrial
      have hannounces := hannounced k retrial hretrial
      have hk : k < retrials.length := (List.getElem?_eq_some_iff.mp hretrial).1
      refine ⟨hannounces, ?_⟩
      rw [UInt32.lt_iff_toNat_lt, hannounces.attempt_eq, hannounces.total_eq]
      omega
    · rintro policy name rfl rfl
      obtain ⟨final, hperform, hwarnings, hwaits⟩ :=
        @perform_of_rounds α 0 outcomes policy hlimit name policy.maxRetries.toNat (by omega) _ _
          hrounds start rfl
      exact ⟨final, hperform, hwarnings, hwaits⟩

theorem arithmetic_of_secondThoughts : ∃ retrials,
    roundsInWords 5 1500000000 secondThoughts 0 = some (.ok 2, retrials) ∧
    retrials.length = 2 ∧ retrials.map (Retrial.warning "publish") = [
      ⟨.warn, "publish failed (attempt 1/6): Publish error: Network error during publishing: " ++
        "down; retrying in 1.5s"⟩,
      ⟨.warn, "publish failed (attempt 2/6): Publish error: Network error during publishing: " ++
        "busy; retrying in 3.0s"⟩] := by
  obtain ⟨last, retrials, hlast, hrounds, hlength, -, hmade⟩ :=
    (arithmetic_of_retry 5 1500000000 secondThoughts).2.2 (by decide)
  obtain rfl := hlast.unique isLast_secondThoughts
  obtain ⟨trial, hperform, hwarnings, -⟩ := hmade ⟨5, 1500⟩ "publish" rfl rfl
  refine ⟨retrials, hrounds, hlength, ?_⟩
  rw [← hwarnings, ← congrArg (fun performed => performed.2.warnings) hperform]
  decide +kernel

/-- With the greatest number of retries there is no word for the attempts in all: the program panics
    where the first warning is due, and the second attempt is not made. -/
theorem total_overflows :
    roundsInWords 4294967295 1000000000 secondThoughts 0 = none ∧
    (Action.retry ⟨4294967295, 1000⟩ "publish" fun _ => step secondThoughts).perform start =
      (secondThoughts 0, ⟨[.made, .panicked], []⟩) :=
  ⟨rounds_of_overflow rfl (by decide) _ ⟨_, rfl, rfl⟩,
    perform_of_panic (by decide) "publish" ⟨_, rfl, rfl⟩⟩

end Trial

end PackageRelease
