import PackageRelease.CommandLine.Execution
import PackageRelease.Proofs.Release.Decision

/-! # Exit codes

  What the exit code tells about a command. The key idea: the code looks at the root of a failure
  only, so the stages around it do not matter, and arguments that do not fit together never reach a
  command.
-/

namespace PackageRelease

namespace Arguments

variable {arguments : Arguments} {world : World} {failure : Failure}

/-- The command is an upload for which a version that is there already is good enough. -/
def AllowsExisting (arguments : Arguments) : Prop :=
  ∃ edits upload, arguments.command = .publish edits upload ∧ upload.allowExisting = true

theorem allowsExisting_iff : arguments.allowsExisting = true ↔ arguments.AllowsExisting := by
  unfold allowsExisting upload? AllowsExisting
  cases hcommand : arguments.command with
  | publish edits upload =>
    refine ⟨fun h => ⟨edits, upload, rfl, h⟩, ?_⟩
    rintro ⟨_, _, h, hallowed⟩
    cases h
    exact hallowed
  | transform edits => simp
  | pack out? => simp
  | status asJson => simp

/-- The arguments fit together, and this is what their command comes to. -/
def ComesTo (arguments : Arguments) (world : World) (result : Except Failure Unit) : Prop :=
  arguments.validate = .ok () ∧ ((executeCommand arguments).perform ⟨world, []⟩).1 = result

/-- A command comes to one thing at most. -/
theorem ComesTo.unique {first second : Except Failure Unit} (h : arguments.ComesTo world first)
    (hother : arguments.ComesTo world second) : first = second :=
  h.2.symm.trans hother.2

theorem exitCode_of_comesTo {result : Except Failure Unit} (h : arguments.ComesTo world result) :
    (arguments.execute world).exitCode = arguments.exitCode result := by
  obtain ⟨hvalidate, rfl⟩ := h
  unfold execute
  rw [hvalidate]

/-- Arguments that do not fit together do nothing. -/
theorem execute_of_validate {reason : String} (h : arguments.validate = .error reason)
    (world : World) :
    (arguments.execute world).exitCode = 1 ∧ (arguments.execute world).world = world := by
  unfold execute
  rw [h]
  exact ⟨rfl, rfl⟩

theorem not_comesTo_of_validate {reason : String} (h : arguments.validate = .error reason)
    (world : World) (result : Except Failure Unit) : ¬ arguments.ComesTo world result := by
  rintro ⟨hvalid, -⟩
  cases h.symm.trans hvalid

/-- The exit code of a failure. -/
theorem exitCode_error (arguments : Arguments) (failure : Failure) :
    (failure.IsRootedInConflict ∧ arguments.AllowsExisting ∧
        arguments.exitCode (.error failure) = 0) ∨
      (failure.IsRootedInConflict ∧ ¬ arguments.AllowsExisting ∧
        arguments.exitCode (.error failure) = 2) ∨
      (¬ failure.IsRootedInConflict ∧ arguments.exitCode (.error failure) = 1) := by
  rw [← Failure.isConflict_iff, ← allowsExisting_iff]
  unfold exitCode forgives Failure.exitCode
  cases hconflict : failure.isConflict <;> cases arguments.allowsExisting <;> simp [hconflict]

/-- The exit code is zero for a success, and for a version that is there already if this is allowed;
    it is two for such a version if it is not, and one for everything else. Arguments that do not
    fit together change no file and send no request. -/
theorem exitCode_execute (arguments : Arguments) (world : World) :
    ((arguments.execute world).exitCode = 0 ↔
      arguments.ComesTo world (.ok ()) ∨
        ∃ failure, arguments.ComesTo world (.error failure) ∧ failure.IsRootedInConflict ∧
          arguments.AllowsExisting) ∧
    ((arguments.execute world).exitCode = 2 ↔
      ∃ failure, arguments.ComesTo world (.error failure) ∧ failure.IsRootedInConflict ∧
        ¬ arguments.AllowsExisting) ∧
    ((arguments.execute world).exitCode = 1 ↔
      (∃ reason, arguments.validate = .error reason) ∨
        ∃ failure, arguments.ComesTo world (.error failure) ∧ ¬ failure.IsRootedInConflict) ∧
    ((arguments.execute world).exitCode = 0 ∨ (arguments.execute world).exitCode = 1 ∨
      (arguments.execute world).exitCode = 2) ∧
    ∀ reason, arguments.validate = .error reason → (arguments.execute world).world = world := by
  cases hvalidate : arguments.validate with
  | error reason =>
    -- no command is run, so it comes to nothing
    obtain ⟨hcode, hworld⟩ := execute_of_validate hvalidate world
    have hnone := not_comesTo_of_validate hvalidate world
    simp [hcode, hworld, hnone]
  | ok _ =>
    cases hresult : ((executeCommand arguments).perform ⟨world, []⟩).1 with
    | ok _ =>
      have hcomes : arguments.ComesTo world (.ok ()) := ⟨hvalidate, hresult⟩
      have hnone (failure : Failure) : ¬ arguments.ComesTo world (.error failure) :=
        fun h => nomatch hcomes.unique h
      have hcode : (arguments.execute world).exitCode = 0 := exitCode_of_comesTo hcomes
      simp [hcode, hcomes, hnone]
    | error failure =>
      -- the command fails in one way only, so its exit code is that of this failure
      have hcomes : arguments.ComesTo world (.error failure) := ⟨hvalidate, hresult⟩
      have hfailed : ¬ arguments.ComesTo world (.ok ()) := fun h => nomatch hcomes.unique h
      have hiff (other : Failure) : arguments.ComesTo world (.error other) ↔ other = failure := by
        refine ⟨fun h => Except.error.inj (h.unique hcomes), ?_⟩
        rintro rfl
        exact hcomes
      have hcode := exitCode_of_comesTo hcomes
      rcases exitCode_error arguments failure with
        ⟨hroot, hallowed, hexit⟩ | ⟨hroot, hforbidden, hexit⟩ | ⟨hroot, hexit⟩
      · simp [hcode.trans hexit, hfailed, hiff, hroot, hallowed]
      · simp [hcode.trans hexit, hfailed, hiff, hroot, hforbidden]
      · simp [hcode.trans hexit, hfailed, hiff, hroot]

end Arguments

end PackageRelease
