import PackageRelease.CommandLine.Session

/-! # Commands

  Each command reads its settings, does its work and says what came of it. Executing the arguments
  runs the command and turns a failure into notices and an exit code; a version that is there
  already has an exit code of its own, and no failure when the user allows for it.

  No command looks at how much is to be shown.
-/

namespace PackageRelease

open Session

/-! ### The commands -/

/-- What is said about a finished upload. -/
def uploadNotices (receipt : Registry.Receipt) : List Notice := [
  .success (if receipt.dryRun then "Dry run packed " ++ receipt.spec ++ " (not uploaded)"
    else "Published " ++ receipt.spec ++ " to " ++ receipt.registry ++ " under '" ++
      receipt.distTag ++ "'"),
  .item ("files:     " ++ Text.decimal receipt.fileCount),
  .item ("size:      " ++ Text.decimal receipt.size ++ " bytes"),
  .item ("shasum:    " ++ receipt.shasum),
  .item ("integrity: " ++ receipt.integrity)]

/-- Runs a whole release. -/
def executePublish (arguments : Arguments) : Action Session Unit := do
  let s ← settings arguments
  say (.heading "Publishing wasm package")
  say (.detail ("Artifact directory: " ++ s.artifactDirectory.text))
  sayAll (s.edits.map fun edit => .detail ("Transform: " ++ edit.describe))
  let receipt ← release s Run.runAll
  sayAll (uploadNotices receipt)

/-- What is said about a changed manifest. -/
def manifestNotices (path : Path) (m : Manifest) : List Notice :=
  .success ("Wrote " ++ path.text ++ " (" ++ m.name?.getD "<unnamed>" ++ "@" ++
    m.version?.getD "<unversioned>" ++ ")") ::
  (m.files?.toList.map fun files => .detail ("files: " ++ Text.join ", " files))

/-- Runs the stages of a release that stay on this machine. -/
def executeTransform (arguments : Arguments) : Action Session Unit := do
  let s ← settings arguments
  let m ← release s Run.runLocal
  sayAll (manifestNotices s.manifestPath m)

/-- What is said about a packed package. -/
def packNotices (out : Path) (t : Tarball) : List Notice :=
  t.names.map Notice.detail ++ [
    .success ("Packed " ++ Text.decimal t.names.length ++ " file(s) into " ++ out.text ++ " (" ++
      Text.decimal t.size ++ " bytes)"),
    .item ("shasum:    " ++ t.shasum),
    .item ("integrity: " ++ t.integrity)]

/-- Stores octets in a file. -/
def storeBytes (path : Path) (bytes : Bytes) : Action World Unit :=
  Action.ofFunction fun world =>
    match world.files.writeFile path bytes with
    | .ok files => (.ok (), { world with files })
    | .error cause => (.error (.io (.os cause)), world)

/-- Packs the directory into a file. -/
def executePack (arguments : Arguments) (out? : Option Path) : Action Session Unit := do
  let s ← settings arguments
  let t ← onWorld <| Action.reading fun world => do
    let m ← Manifest.load world.files s.manifestPath
    Tarball.pack world.files s.artifactDirectory m
  let out := out?.getD ⟨t.fileName⟩
  onWorld (storeBytes out t.bytes)
  sayAll (packNotices out t)

/-- What is known about a version on a registry. -/
structure StatusReport where
  /-- The name of the package. -/
  name : String
  /-- The version. -/
  version : String
  /-- The address of the registry. -/
  registry : String
  /-- Whether the registry has the version. -/
  published : Bool
  deriving DecidableEq, Repr

/-- A report for other programs. -/
def StatusReport.toJson (report : StatusReport) : Json :=
  .object [
    ("name", .string report.name),
    ("version", .string report.version),
    ("registry", .string report.registry),
    ("published", .bool report.published)]

/-- A report in the form that the user wants. -/
def StatusReport.notice (report : StatusReport) (asJson : Bool) : Notice :=
  let subject := report.name ++ "@" ++ report.version
  if asJson then .data report.toJson.pretty
  else if report.published then
    .warning (subject ++ " is already published on " ++ report.registry)
  else .info (subject ++ " is not yet on " ++ report.registry)

/-- The name and the version in a manifest. -/
def statusIdentity (m : Manifest) : Except Failure (String × String) := do
  let some name := m.name? | throw (.validation (.missingField "status" "name"))
  let some version := m.version? | throw (.validation (.missingField "status" "version"))
  return (name, version)

/-- Asks the registry for the version in the manifest. -/
def statusReport (s : Settings) : Action World StatusReport := do
  let (target, name, version) ← Action.reading fun world => do
    let target ← s.target
    let m ← Manifest.load world.files target.manifestPath
    return (target, ← statusIdentity m)
  let published ← Registry.versionExists target name version
  return ⟨name, version, target.registryBase, published⟩

/-- Says whether the version is published. -/
def executeStatus (arguments : Arguments) (asJson : Bool) : Action Session Unit := do
  let s ← settings arguments
  let report ← onWorld (statusReport s)
  say (report.notice asJson)

/-- The work of a command. -/
def executeCommand (arguments : Arguments) : Action Session Unit :=
  match arguments.command with
  | .publish _ _ => executePublish arguments
  | .transform _ => executeTransform arguments
  | .pack out? => executePack arguments out?
  | .status asJson => executeStatus arguments asJson

/-! ### What comes of a command -/

/-- What came of the arguments. -/
structure Outcome where
  /-- The exit code. -/
  exitCode : Nat
  /-- What was said. -/
  notices : List Notice
  /-- The world afterwards. -/
  world : World

/-- Whether a failure counts as a success. -/
def Arguments.forgives (arguments : Arguments) (failure : Failure) : Bool :=
  failure.isConflict && arguments.allowsExisting

/-- The exit code for what a command came to. -/
def Arguments.exitCode (arguments : Arguments) : Except Failure Unit → Nat
  | .ok () => 0
  | .error failure => if arguments.forgives failure then 0 else failure.exitCode

/-- What is said about a failure. -/
def Arguments.failureNotices (arguments : Arguments) (failure : Failure) : List Notice :=
  if arguments.forgives failure then
    [.warning (failure.root.message ++ "; nothing to publish")]
  else
    let verb := if failure.isConflict then "stopped" else "failed"
    [.failure ("Command '" ++ arguments.command.name ++ "' " ++ verb ++ ": " ++ failure.message),
      .advice failure.suggestions]

/-- Does what the arguments ask for. Arguments that do not fit together do nothing. -/
def Arguments.execute (arguments : Arguments) (world : World) : Outcome :=
  match arguments.validate with
  | .error reason => ⟨1, [.failure ("Invalid arguments: " ++ reason)], world⟩
  | .ok () =>
    let (result, session) := (executeCommand arguments).perform ⟨world, []⟩
    let further := match result with
      | .ok () => []
      | .error failure => arguments.failureNotices failure
    ⟨arguments.exitCode result, session.notices ++ further, session.world⟩

/-! ### What is seen of a command -/

/-- What an outcome prints to a channel. -/
def Outcome.printed (outcome : Outcome) (arguments : Arguments) (environment : Environment)
    (channel : Channel) : String :=
  Notice.printed arguments.verbosity environment.showsColours channel outcome.notices

/-- What the libraries of the program make of the variables that it is started with. -/
structure Libraries where
  /-- What the logger shows of a log. -/
  logged : Environment → List LogEntry → String
  /-- What the requests of the HTTP client meet with, in order. -/
  answers : Environment → List (Option Answer)

/-- What is seen on a channel. The log goes where failures go, and it is there before them: a
    failure is the last thing that a command says. -/
def Outcome.shown (outcome : Outcome) (libraries : Libraries) (arguments : Arguments)
    (environment : Environment) : Channel → String
  | .output => outcome.printed arguments environment .output
  | .error => libraries.logged environment outcome.world.log ++
      outcome.printed arguments environment .error

end PackageRelease
