import PackageRelease.Release.Failure

/-! # Outcomes

  How an outcome is taken apart: a sequence succeeds exactly if each of its parts does, and it fails
  with the failure of its first part that fails. So a kind of failure that none of the parts has,
  the sequence does not have either.
-/

namespace PackageRelease

section sequences
variable {ε α β : Type}

/-- A sequence succeeds exactly if both of its parts do. -/
theorem bind_eq_ok {outcome : Except ε α} {next : α → Except ε β} {result : β} :
    outcome >>= next = .ok result ↔ ∃ first, outcome = .ok first ∧ next first = .ok result := by
  cases outcome with
  | error failure =>
    refine iff_of_false (fun h => ?_) ?_
    · cases h
    · rintro ⟨_, h, _⟩
      cases h
  | ok first =>
    refine ⟨fun h => ⟨first, rfl, h⟩, ?_⟩
    rintro ⟨_, h, hnext⟩
    cases h
    exact hnext

/-- A loop that only checks passes exactly if each check does. -/
theorem forIn_eq_ok (check : α → PUnit → Except ε (ForInStep PUnit)) {P : α → Prop}
    (hcheck : ∀ a, check a ⟨⟩ = .ok (.yield ⟨⟩) ∧ P a ∨ (∃ fault, check a ⟨⟩ = .error fault) ∧ ¬ P a)
    (items : List α) : forIn items ⟨⟩ check = .ok ⟨⟩ ↔ ∀ a ∈ items, P a := by
  induction items with
  | nil => exact iff_of_true rfl fun _ h => nomatch h
  | cons a rest ih =>
    rw [List.forIn_cons, List.forall_mem_cons]
    rcases hcheck a with ⟨h, hP⟩ | ⟨⟨fault, h⟩, hP⟩
    · rw [h, and_iff_right hP]
      exact ih
    · rw [h]
      exact iff_of_false nofun fun hall => hP hall.1

end sequences

/-! ### Failures that name no stage -/

/-- If the outcome is a failure, it names no stage. -/
def BareOutcome {α : Type} (outcome : Except Failure α) : Prop :=
  ∀ failure, outcome = .error failure → failure.stage? = none

section bare_outcome
variable {α β : Type}

theorem bareOutcome_ok (result : α) : BareOutcome (.ok result : Except Failure α) := by
  intro failure h
  cases h

theorem bareOutcome_error {failure : Failure} (h : failure.stage? = none) :
    BareOutcome (.error failure : Except Failure α) := by
  intro other hother
  cases hother
  exact h

theorem bareOutcome_bind {outcome : Except Failure α} {next : α → Except Failure β}
    (h : BareOutcome outcome) (hnext : ∀ result, BareOutcome (next result)) :
    BareOutcome (outcome >>= next) := by
  cases outcome with
  | ok result => exact hnext result
  | error failure => exact bareOutcome_error (h failure rfl)

end bare_outcome

/-! ### Failures about files -/

/-- A failure is about files and what they hold. -/
inductive Failure.IsLocal : Failure → Prop where
  /-- It is about the stored manifest. -/
  | manifest (fault : ManifestFault) : IsLocal (.manifest fault)
  /-- It is about what is packed. -/
  | validation (fault : ValidationFault) : IsLocal (.validation fault)
  /-- It is one of the file system. -/
  | io (cause : IoError) : IsLocal (.io cause)

theorem Failure.IsLocal.stage?_eq {failure : Failure} (h : failure.IsLocal) :
    failure.stage? = none := by
  cases h <;> rfl

/-- Trying again does not help against a failure about files. -/
theorem Failure.IsLocal.isRetryable_eq {failure : Failure} (h : failure.IsLocal) :
    failure.isRetryable = false := by
  cases h <;> rfl

/-- If the outcome is a failure, it is about files. -/
def LocalOutcome {α : Type} (outcome : Except Failure α) : Prop :=
  ∀ failure, outcome = .error failure → failure.IsLocal

section local_outcome
variable {α β : Type}

theorem localOutcome_ok (result : α) : LocalOutcome (.ok result : Except Failure α) := by
  intro failure h
  cases h

theorem localOutcome_error {failure : Failure} (h : failure.IsLocal) :
    LocalOutcome (.error failure : Except Failure α) := by
  intro other hother
  cases hother
  exact h

theorem localOutcome_bind {outcome : Except Failure α} {next : α → Except Failure β}
    (h : LocalOutcome outcome) (hnext : ∀ result, LocalOutcome (next result)) :
    LocalOutcome (outcome >>= next) := by
  cases outcome with
  | ok result => exact hnext result
  | error failure => exact localOutcome_error (h failure rfl)

theorem LocalOutcome.bare {outcome : Except Failure α} (h : LocalOutcome outcome) :
    BareOutcome outcome :=
  fun failure hfailure => (h failure hfailure).stage?_eq

end local_outcome

end PackageRelease
