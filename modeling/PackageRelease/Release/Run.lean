import PackageRelease.Manifest.Store
import PackageRelease.Registry.Client
import PackageRelease.Settings.Basic

/-! # Running a release

  A run goes through the stages in their order. Each stage starts only in the state that it needs;
  called in another state it fails and changes nothing. A stage that fails ends the run: the state
  becomes `failed`, and the failure names the stage.
-/

namespace PackageRelease

/-! ### The run -/

/-- A release that is under way, and its world. -/
structure Run where
  /-- What the release was told from outside. -/
  settings : Settings
  /-- Where the release stands. -/
  state : State
  /-- All states so far, in order. -/
  history : List State
  /-- The stage that failed, if one did. -/
  failedStage? : Option Stage
  /-- A token that is used in place of the one in the environment. -/
  token? : Option Token
  /-- Files, registry, log and time. -/
  world : World

namespace Run

/-- A release of which nothing has been done. -/
def start (settings : Settings) (token? : Option Token) (world : World) : Run :=
  { settings, state := .idle, history := [.idle], failedStage? := none, token?, world }

instance : Chronicle Run where
  record entry run := { run with world := Chronicle.record entry run.world }
  wait milliseconds run := { run with world := Chronicle.wait milliseconds run.world }
  panic run := { run with world := Chronicle.panic run.world }

/-- An action on the world of a run. -/
def onWorld {α : Type} (action : Action World α) : Action Run α :=
  Action.ofFunction fun run =>
    let (outcome, world) := action.perform run.world
    (outcome, { run with world })

/-! ### One stage -/

/-- Refuses a stage in a state that it does not start in. -/
def enter (stage : Stage) : Action Run Unit :=
  Action.reading fun run =>
    if run.state = stage.requires then .ok ()
    else .error (.outOfOrder run.state stage.produces)

/-- The run after a stage has succeeded. -/
def advance (stage : Stage) (run : Run) : Run :=
  if stage.produces = run.state then run
  else { run with state := stage.produces, history := run.history ++ [stage.produces] }

/-- The log entry about a failed stage. A version that is there already is no error. -/
def failureEntry (stage : Stage) (failure : Failure) : LogEntry :=
  if failure.isConflict then ⟨.warn, stage.name ++ " stage stopped: " ++ failure.message⟩
  else ⟨.error, stage.name ++ " stage failed: " ++ failure.message⟩

/-- The run after a stage has failed. -/
def halt (stage : Stage) (failure : Failure) (run : Run) : Run :=
  { Chronicle.record (failureEntry stage failure) run with
    state := .failed
    history := run.history ++ [.failed]
    failedStage? := some stage }

/-- Does the work of a stage and moves on, or ends the run. -/
def perform {α : Type} (stage : Stage) (work : Action Run α) : Action Run α := do
  enter stage
  match ← Action.observe work with
  | .ok result =>
    modify (advance stage)
    return result
  | .error failure =>
    modify (halt stage failure)
    throw (failure.atStage stage)

/-! ### The stages -/

/-- Checks the settings and the tag. -/
def checkTrigger : Action Run Unit :=
  perform .trigger <| Action.reading fun run => do
    run.settings.validate
    discard run.settings.checkTag

/-- What is said when the tag names another version than the manifest. -/
def tagWarning? (settings : Settings) (m : Manifest) : Option String := do
  let tagVersion ← (settings.checkTag).toOption.join
  let version ← m.version?
  guard (Version.parse? version ≠ some tagVersion)
  return "Tag version " ++ tagVersion.render ++ " differs from manifest version " ++ version

/-- Reads the manifest. -/
def load : Action Run Manifest :=
  perform .load do
    let run ← get
    let manifest ← Action.reading fun run =>
      Manifest.load run.world.files run.settings.manifestPath
    match tagWarning? run.settings manifest with
    | some warning => Action.record .warn warning
    | none => pure ()
    return manifest

/-- Makes the changes to a manifest. -/
def transform (m : Manifest) : Action Run Manifest :=
  perform .transform do
    let edits := (← get).settings.edits
    let changed ← Action.reading fun _ => Edit.applyAll edits m
    Action.record .info ("Applied " ++ Text.decimal edits.length ++ " transform step(s)")
    return changed

/-- Stores a manifest. -/
def write (m : Manifest) : Action Run Unit :=
  perform .write do
    let path := (← get).settings.manifestPath
    onWorld <| Action.ofFunction fun world =>
      let (outcome, files) := m.store world.files path
      (outcome, { world with files })
    Action.record .info ("Manifest written to " ++ path.text)

/-- Fails if the registry has the version of the stored manifest already. -/
def ensureUnpublished (target : Target) : Action World Unit := do
  let m ← Action.reading fun world => Manifest.load world.files target.manifestPath
  match m.name?, m.version? with
  | some name, some version =>
    if ← Registry.versionExists target name version then
      throw (.publish (.conflict name version))
  | _, _ => return ()

/-- Packs and uploads with given settings. Without a token nothing is sent. -/
def upload (settings : Settings) (token? : Option Token) : Action World Registry.Receipt := do
  let target ← settings.target
  if settings.dryRun then return ← Registry.dryRun target
  let token ← match token? with
    | some token => pure token
    | none => Action.reading fun world =>
        Token.ofEnvironment world.environment settings.tokenVariable
  if settings.checkExisting then ensureUnpublished target
  Action.retry settings.retryPolicy "Registry publish" fun _ => Registry.publish target token

/-- Packs and uploads what is stored. A token that was given is used up. -/
def publish : Action Run Registry.Receipt :=
  perform .publish do
    let run ← get
    set { run with token? := none }
    onWorld (upload run.settings run.token?)

/-! ### Several stages -/

/-- Runs all stages that stay on this machine. -/
def runLocal : Action Run Manifest := do
  checkTrigger
  let loaded ← load
  let changed ← transform loaded
  write changed
  return changed

/-- Runs all stages. -/
def runAll : Action Run Registry.Receipt := do
  discard runLocal
  publish

end Run

end PackageRelease
