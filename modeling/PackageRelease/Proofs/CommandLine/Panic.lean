import PackageRelease.CommandLine.Execution
import PackageRelease.Proofs.Release.Backoff
import PackageRelease.Proofs.Release.Files

/-! # Panics

  The only number of a release that may exceed its word is that of the attempts at an upload. The
  key idea: the check of the settings allows few retries, so a release can panic only where the
  check was left out, and no command leaves it out. So everything that is said about commands is
  said about programs that run to their end.
-/

namespace PackageRelease

namespace Run

/-! ### Releases -/

theorem panicked_runLocal (run : Run) :
    (runLocal.perform run).2.world.panicked = run.world.panicked :=
  congrArg (fun view => view.2.2.2.2) (keeps_surroundings_runLocal run)

/-- The last stage can panic only with the greatest word as the number of retries. -/
theorem panicked_publish {run : Run} (h : run.settings.networkRetries.toNat + 1 < 2 ^ 32) :
    (publish.perform run).2.world.panicked = run.world.panicked := by
  refine view_publish Registry.panicked_of_background fun hnone => ?_
  exact absurd hnone (by rw [RetryPolicy.totalAttempts?_of_lt h]; exact Option.some_ne_none _)

/-- A release that goes through all stages does not panic. -/
theorem panicked_runAll (run : Run) :
    (runAll.perform run).2.world.panicked = run.world.panicked := by
  have hlocalKept := panicked_runLocal run
  rcases hlocal : runLocal.perform run with ⟨failure | m, written⟩
  · rw [hlocal] at hlocalKept
    rw [(perform_runAll_of_failed hlocal).1]
    exact hlocalKept
  · -- the stages before the last one have checked the settings and left them as they were
    have hsettings := congrArg Prod.fst (keeps_surroundings_runLocal run)
    have hlimit := networkRetries_le_of_runLocal hlocal
    rw [hlocal] at hsettings hlocalKept
    have hsettings : written.settings = run.settings := hsettings
    rw [runAll_eq, Action.perform_bind, hlocal]
    exact (panicked_publish (by rw [hsettings]; omega)).trans hlocalKept

end Run

/-! ### Commands -/

namespace Session

/-- Whether the program has panicked. -/
def panicked (session : Session) : Bool := session.world.panicked

theorem keeps_panicked_onWorld {α : Type} {action : Action World α}
    (h : Action.Keeps World.panicked action) : Action.Keeps panicked (onWorld action) :=
  fun session => h session.world

theorem keeps_panicked_release {α : Type} {settings : Settings} {action : Action Run α}
    (h : ∀ run, (action.perform run).2.world.panicked = run.world.panicked) :
    Action.Keeps panicked (release settings action) :=
  fun session => h (Run.start settings none session.world)

theorem keeps_panicked_storeBytes (path : Path) (bytes : Bytes) :
    Action.Keeps World.panicked (storeBytes path bytes) := by
  intro world
  unfold storeBytes
  rw [Action.perform_ofFunction]
  cases world.files.writeFile path bytes <;> rfl

theorem keeps_panicked_statusReport (settings : Settings) :
    Action.Keeps World.panicked (statusReport settings) := by
  unfold statusReport
  exact Action.keeps_bind (Action.keeps_reading _) fun _ =>
    Action.keeps_bind (Registry.keeps_of_background Registry.panicked_of_background
      (Registry.keeps_background_versionExists _ _ _)) fun _ => Action.keeps_pure _

/-- No command panics. -/
theorem keeps_panicked_executeCommand (arguments : Arguments) :
    Action.Keeps panicked (executeCommand arguments) := by
  have hsay (notice : Notice) : Action.Keeps panicked (say notice) := fun _ => rfl
  have hsayAll (notices : List Notice) : Action.Keeps panicked (sayAll notices) := fun _ => rfl
  unfold executeCommand
  cases arguments.command with
  | publish edits upload =>
    exact Action.keeps_bind (Action.keeps_reading _) fun s =>
      Action.keeps_bind (hsay _) fun _ => Action.keeps_bind (hsay _) fun _ =>
        Action.keeps_bind (hsayAll _) fun _ =>
          Action.keeps_bind (keeps_panicked_release Run.panicked_runAll) fun _ => hsayAll _
  | transform edits =>
    exact Action.keeps_bind (Action.keeps_reading _) fun s =>
      Action.keeps_bind (keeps_panicked_release Run.panicked_runLocal) fun _ => hsayAll _
  | pack out? =>
    exact Action.keeps_bind (Action.keeps_reading _) fun s =>
      Action.keeps_bind (keeps_panicked_onWorld (Action.keeps_reading _)) fun t =>
        Action.keeps_bind (keeps_panicked_onWorld (keeps_panicked_storeBytes _ _)) fun _ =>
          hsayAll _
  | status asJson =>
    exact Action.keeps_bind (Action.keeps_reading _) fun s =>
      Action.keeps_bind (keeps_panicked_onWorld (keeps_panicked_statusReport s)) fun _ => hsay _

end Session

/-- The program does not panic, whatever its arguments ask for. -/
theorem Arguments.panicked_execute (arguments : Arguments) (world : World) :
    (arguments.execute world).world.panicked = world.panicked := by
  unfold execute
  cases arguments.validate with
  | error reason => rfl
  | ok _ => exact Session.keeps_panicked_executeCommand arguments ⟨world, []⟩

end PackageRelease
