import PackageRelease.Proofs.Release.Course

/-! # Decisions about a failure

  A failure may name stages, one around the other. The key idea: every failure is a bare root with
  the stages that it names around it, and whatever is decided about the failure is read off the
  root. So it makes no difference to a decision how often and in which order stages are named:

  - naming a stage puts it around a bare failure, and leaves every other failure as it is;
  - failures with the same root are decided alike;
  - the decisions about one failure fit together.
-/

namespace PackageRelease.Failure

variable {failure cause : Failure}

/-! ### Stages around a root -/

/-- A failure with further stages around it, the first one outermost. -/
def within (stages : List Stage) (cause : Failure) : Failure := stages.foldr inStage cause

/-- The stages that a failure names, the outermost first. -/
def namedStages : Failure → List Stage
  | .inStage stage cause => stage :: cause.namedStages
  | _ => []

/-- Only the outermost stage is shown. -/
theorem stage?_eq_head? (failure : Failure) : failure.stage? = failure.namedStages.head? := by
  cases failure <;> rfl

theorem namedStages_eq_nil_iff : failure.namedStages = [] ↔ failure.stage? = none := by
  rw [stage?_eq_head?, List.head?_eq_none_iff]

theorem stage?_root (failure : Failure) : failure.root.stage? = none := by
  induction failure with
  | inStage stage cause ih => exact ih
  | _ => rfl

/-- What names no stage is not a failure in a stage. -/
theorem ne_inStage (h : cause.stage? = none) (stage : Stage) (inner : Failure) :
    cause ≠ .inStage stage inner := by
  rintro rfl
  cases h

/-- The named stages and the root make up the whole failure. -/
theorem within_root (failure : Failure) : within failure.namedStages failure.root = failure := by
  induction failure with
  | inStage stage cause ih => exact congrArg (inStage stage) ih
  | _ => rfl

theorem root_within (stages : List Stage) (cause : Failure) :
    (within stages cause).root = cause.root := by
  induction stages with
  | nil => rfl
  | cons stage rest ih => exact ih

/-! ### Naming stages -/

/-- Names stages one after the other. -/
def atStages (failure : Failure) (stages : List Stage) : Failure := stages.foldl atStage failure

theorem atStages_cons (failure : Failure) (stage : Stage) (stages : List Stage) :
    failure.atStages (stage :: stages) = (failure.atStage stage).atStages stages :=
  rfl

/-- A failure that names a stage gets no other one. -/
theorem atStage_of_stage? {first : Stage} (h : failure.stage? = some first) (stage : Stage) :
    failure.atStage stage = failure := by
  cases failure with
  | inStage => rfl
  | _ => cases h

theorem atStages_of_stage? {first : Stage} (h : failure.stage? = some first)
    (stages : List Stage) : failure.atStages stages = failure := by
  induction stages with
  | nil => rfl
  | cons stage rest ih => rw [atStages_cons, atStage_of_stage? h, ih]

/-- Of the stages that are named after one another, a bare failure keeps the first. -/
theorem atStages_of_bare (h : failure.stage? = none) (stages : List Stage) :
    failure.atStages stages = within (stages.take 1) failure := by
  cases stages with
  | nil => rfl
  | cons stage rest =>
    -- the first stage is put around the failure, which is then bare no more
    rw [atStages_cons, Run.atStage_of_bare h]
    exact atStages_of_stage? rfl rest

/-- Naming stages adds one at most, and only to a failure that names none. -/
theorem exists_added (failure : Failure) (stages : List Stage) :
    ∃ added, failure.atStages stages = within added failure ∧ added.length ≤ 1 ∧
      (added ≠ [] → failure.namedStages = []) := by
  cases h : failure.stage? with
  | none =>
    exact ⟨stages.take 1, atStages_of_bare h stages, List.length_take_le 1 stages,
      fun _ => namedStages_eq_nil_iff.mpr h⟩
  | some first => exact ⟨[], atStages_of_stage? h stages, Nat.zero_le 1, absurd rfl⟩

theorem root_atStages (failure : Failure) (stages : List Stage) :
    (failure.atStages stages).root = failure.root := by
  obtain ⟨added, hadded, -⟩ := failure.exists_added stages
  rw [hadded, root_within]

/-- The stage that is shown afterwards is the one from before, or else the first of the new ones. -/
theorem stage?_atStages (failure : Failure) (stages : List Stage) :
    (failure.atStages stages).stage? = failure.namedStages.head?.or stages.head? := by
  rw [← stage?_eq_head?]
  cases h : failure.stage? with
  | none =>
    rw [atStages_of_bare h]
    cases stages with
    | nil => exact h
    | cons stage rest => rfl
  | some first => rw [atStages_of_stage? h, h, Option.some_or]

/-! ### Decisions -/

/-- Whatever is decided about two failures is the same. -/
structure DecidedAlike (a b : Failure) : Prop where
  /-- Both are conflicts, or neither is. -/
  isConflict_eq : a.isConflict = b.isConflict
  /-- Both are tried again, or neither is. -/
  isRetryable_eq : a.isRetryable = b.isRetryable
  /-- The user can get past both, or past neither. -/
  isRecoverable_eq : a.isRecoverable = b.isRecoverable
  /-- Both end the program with the same code. -/
  exitCode_eq : a.exitCode = b.exitCode
  /-- The advice is the same. -/
  suggestions_eq : a.suggestions = b.suggestions

/-- Every decision is read off the root. -/
theorem decidedAlike_of_root_eq {a b : Failure} (h : a.root = b.root) : DecidedAlike a b := by
  have hconflict : a.isConflict = b.isConflict := by
    unfold isConflict
    rw [h]
  refine ⟨hconflict, ?_, ?_, ?_, ?_⟩
  · unfold isRetryable
    rw [h]
  · unfold isRecoverable
    rw [h]
  · unfold exitCode
    rw [hconflict]
  · unfold suggestions
    rw [h]

/-- Below all stages, the registry already has the version. -/
def IsRootedInConflict (failure : Failure) : Prop :=
  ∃ package version, failure.root = .publish (.conflict package version)

theorem isConflict_iff : failure.isConflict = true ↔ failure.IsRootedInConflict := by
  unfold isConflict IsRootedInConflict
  split
  · rename_i package version hroot
    exact iff_of_true rfl ⟨package, version, hroot⟩
  · rename_i hother
    refine iff_of_false Bool.false_ne_true ?_
    rintro ⟨package, version, hroot⟩
    exact hother package version hroot

/-- Below all stages, the registry gave no answer, or one that asks to come back later. -/
def IsRootedInNetwork (failure : Failure) : Prop :=
  ∃ reason, failure.root = .publish (.network reason)

theorem isRetryable_iff : failure.isRetryable = true ↔ failure.IsRootedInNetwork := by
  unfold isRetryable IsRootedInNetwork
  split
  · rename_i reason hroot
    exact iff_of_true rfl ⟨reason, hroot⟩
  · rename_i hother
    refine iff_of_false Bool.false_ne_true ?_
    rintro ⟨reason, hroot⟩
    exact hother reason hroot

/-- A failure has one root. -/
theorem IsRootedInConflict.not_network (h : failure.IsRootedInConflict) :
    ¬ failure.IsRootedInNetwork := by
  obtain ⟨package, version, hconflict⟩ := h
  rintro ⟨reason, hnetwork⟩
  cases hconflict.symm.trans hnetwork

theorem IsRootedInConflict.isRecoverable_eq (h : failure.IsRootedInConflict) :
    failure.isRecoverable = false := by
  obtain ⟨package, version, hroot⟩ := h
  unfold isRecoverable
  rw [hroot]

theorem IsRootedInNetwork.isRecoverable_eq (h : failure.IsRootedInNetwork) :
    failure.isRecoverable = true := by
  obtain ⟨reason, hroot⟩ := h
  unfold isRecoverable
  rw [hroot]

theorem exitCode_eq_two_iff : failure.exitCode = 2 ↔ failure.isConflict = true := by
  unfold exitCode
  split
  · next h => exact iff_of_true rfl h
  · next h => exact iff_of_false (by decide) h

/-- The decisions about one failure fit together. -/
structure Coherent (failure : Failure) : Prop where
  /-- A conflict is a version that is there already. -/
  isConflict_iff : failure.isConflict = true ↔ failure.IsRootedInConflict
  /-- What is tried again is a failure of the network. -/
  isRetryable_iff : failure.isRetryable = true ↔ failure.IsRootedInNetwork
  /-- A conflict is not tried again. -/
  not_both : ¬ (failure.isConflict = true ∧ failure.isRetryable = true)
  /-- The user can get past what is tried again. -/
  isRecoverable_of_isRetryable : failure.isRetryable = true → failure.isRecoverable = true
  /-- The user cannot get past a conflict. -/
  not_isRecoverable_of_isConflict : failure.isConflict = true → failure.isRecoverable = false
  /-- A conflict has an exit code of its own. -/
  exitCode_eq_two_iff : failure.exitCode = 2 ↔ failure.isConflict = true

theorem coherent (failure : Failure) : failure.Coherent where
  isConflict_iff := isConflict_iff
  isRetryable_iff := isRetryable_iff
  not_both := fun ⟨hconflict, hretryable⟩ =>
    (isConflict_iff.mp hconflict).not_network (isRetryable_iff.mp hretryable)
  isRecoverable_of_isRetryable h := (isRetryable_iff.mp h).isRecoverable_eq
  not_isRecoverable_of_isConflict h := (isConflict_iff.mp h).isRecoverable_eq
  exitCode_eq_two_iff := exitCode_eq_two_iff

/-- Naming stages changes nothing but the stage that is shown. A failure consists of the stages it
    names and a root that is in no stage. However many stages are named after one another, the root
    stays; one stage is added at most, and only where there was none; the stage that is shown is the
    outermost one from before, or else the first new one; and every decision about the failure
    stays, with decisions that fit together. -/
theorem decisions_of_atStages (failure : Failure) (stages : List Stage) :
    (failure = within failure.namedStages failure.root ∧
      ∀ stage cause, failure.root ≠ .inStage stage cause) ∧
    (failure.atStages stages).root = failure.root ∧
    (∃ added, failure.atStages stages = within added failure ∧ added.length ≤ 1 ∧
      (added ≠ [] → failure.namedStages = [])) ∧
    (failure.atStages stages).stage? = failure.namedStages.head?.or stages.head? ∧
    DecidedAlike failure (failure.atStages stages) ∧ failure.Coherent := by
  have hbare := ne_inStage failure.stage?_root
  have hroot := failure.root_atStages stages
  exact ⟨⟨failure.within_root.symm, hbare⟩, hroot, failure.exists_added stages,
    failure.stage?_atStages stages, decidedAlike_of_root_eq hroot.symm, failure.coherent⟩

end PackageRelease.Failure
