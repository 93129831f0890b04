import PackageRelease.FileSystem.OsError
import PackageRelease.Json.Error
import PackageRelease.Path
import PackageRelease.Release.Stage

/-! # Failures

  A failure says what went wrong and may name the stage in which it did. Everything that is decided
  about a failure (whether to try again, which exit code to give, what to advise) looks only at its
  root, so naming a stage never changes a decision.
-/

namespace PackageRelease

/-! ### Causes -/

/-- What can go wrong with a stored manifest. -/
inductive ManifestFault where
  /-- There is no file. -/
  | notFound (path : Path)
  /-- The file does not hold a JSON object. -/
  | malformed (path : Path) (reason : String)
  /-- Reading or writing failed. -/
  | io (path : Path) (cause : IoError)
  deriving DecidableEq, Repr

/-- What can be wrong with what is to be changed or packed. -/
inductive ValidationFault where
  /-- A field that a step works on is missing. -/
  | missingField (step field : String)
  /-- A field has a value of the wrong kind. -/
  | fieldType (step field expected : String)
  /-- The package does not have the name that is to be replaced. -/
  | nameMismatch (expected found : String)
  /-- A value cannot be used. -/
  | invalidValue (field reason : String)
  /-- A listed file is not in the directory. -/
  | missingArtifact (entry : String) (directory : Path)
  deriving DecidableEq, Repr

/-- What can go wrong between the tool and the registry. -/
inductive PublishFault where
  /-- The token is missing or was refused. -/
  | unauthorized (reason : String)
  /-- There was no answer, or one that asks to come back later. -/
  | network (reason : String)
  /-- The registry already has the version. -/
  | conflict (package version : String)
  /-- The registry refused the request for good. -/
  | rejected (status : Nat) (reason : String)
  deriving DecidableEq, Repr

/-- What can be wrong with the settings. -/
inductive UsageFault where
  /-- An option has an unusable value. -/
  | invalidArguments (reason : String)
  /-- The tag is not one of a release. -/
  | invalidTag (tag : String)
  /-- The settings file cannot be used. -/
  | unusableFile (path : Path) (reason : String)
  deriving DecidableEq, Repr

/-- Why a release stopped. -/
inductive Failure where
  /-- A failure in a stage. -/
  | inStage (stage : Stage) (cause : Failure)
  /-- A failure around the stored manifest. -/
  | manifest (fault : ManifestFault)
  /-- A failed check before changing or packing. -/
  | validation (fault : ValidationFault)
  /-- A failure around the registry. -/
  | publish (fault : PublishFault)
  /-- A failure of the settings. -/
  | usage (fault : UsageFault)
  /-- A stage was called in a state that it does not start in. -/
  | outOfOrder (current requested : State)
  /-- Another failure of the file system. -/
  | io (cause : IoError)
  /-- Another failure of JSON. -/
  | json (cause : JsonError)
  deriving DecidableEq, Repr

/-! ### Wording -/

/-- The wording of a failure around the stored manifest. -/
def ManifestFault.message : ManifestFault → String
  | .notFound path => "Manifest not found at " ++ path.text
  | .malformed path reason => "Failed to parse manifest " ++ path.text ++ ": " ++ reason
  | .io path cause => "Manifest IO failed for " ++ path.text ++ ": " ++ cause.message

/-- The wording of a failed check. -/
def ValidationFault.message : ValidationFault → String
  | .missingField step field => step ++ ": required field '" ++ field ++ "' is missing"
  | .fieldType step field expected => step ++ ": field '" ++ field ++ "' must be " ++ expected
  | .nameMismatch expected found =>
    "rename: expected name '" ++ expected ++ "', found '" ++ found ++ "'"
  | .invalidValue field reason => "invalid value for '" ++ field ++ "': " ++ reason
  | .missingArtifact entry directory =>
    "artifact '" ++ entry ++ "' listed in files was not found in " ++ directory.text

/-- The wording of a failure around the registry. -/
def PublishFault.message : PublishFault → String
  | .unauthorized reason => "Authentication failed: " ++ reason
  | .network reason => "Network error during publishing: " ++ reason
  | .conflict package version =>
    "Package '" ++ package ++ "' version '" ++ version ++ "' is already published"
  | .rejected status reason =>
    "Registry rejected publish with status " ++ Text.decimal status ++ ": " ++ reason

/-- The wording of a failure of the settings. -/
def UsageFault.message : UsageFault → String
  | .invalidArguments reason => "Invalid arguments: " ++ reason
  | .invalidTag tag => "Tag '" ++ tag ++ "' does not match the release pattern 'v*'"
  | .unusableFile path reason => "Invalid config file " ++ path.text ++ ": " ++ reason

namespace Failure

/-- The wording of a failure. -/
def message : Failure → String
  | .inStage stage cause => stage.name ++ " stage failed: " ++ cause.message
  | .manifest fault => "Manifest error: " ++ fault.message
  | .validation fault => "Validation error: " ++ fault.message
  | .publish fault => "Publish error: " ++ fault.message
  | .usage fault => "CLI error: " ++ fault.message
  | .outOfOrder current requested =>
    "Invalid pipeline transition from " ++ current.name ++ " to " ++ requested.name
  | .io cause => "IO error: " ++ cause.message
  | .json cause => "JSON error: " ++ cause.message

/-! ### Stages -/

/-- Names the stage of a failure, unless one is named already. -/
def atStage (failure : Failure) (stage : Stage) : Failure :=
  match failure with
  | .inStage _ _ => failure
  | other => .inStage stage other

/-- The stage that a failure names. -/
def stage? : Failure → Option Stage
  | .inStage stage _ => some stage
  | _ => none

/-- What is left when all stages are taken away. -/
def root : Failure → Failure
  | .inStage _ cause => cause.root
  | other => other

/-! ### Decisions -/

/-- Whether the registry already has the version. -/
def isConflict (failure : Failure) : Bool :=
  match failure.root with
  | .publish (.conflict _ _) => true
  | _ => false

/-- Whether the same step could succeed when tried again. -/
def isRetryable (failure : Failure) : Bool :=
  match failure.root with
  | .publish (.network _) => true
  | _ => false

/-- Whether the user can get past the failure without changing the package or the settings. -/
def isRecoverable (failure : Failure) : Bool :=
  match failure.root with
  | .publish (.conflict _ _) | .publish (.unauthorized _) | .publish (.rejected _ _)
  | .validation _ | .usage _ | .outOfOrder _ _ => false
  | _ => true

/-- The exit code of the program. -/
def exitCode (failure : Failure) : Nat := if failure.isConflict then 2 else 1

/-- What the user is advised to do. -/
def suggestions (failure : Failure) : List String :=
  match failure.root with
  | .manifest (.notFound path) => [
    "Build the wasm package so that " ++ path.text ++ " exists",
    "Point --manifest or --artifact-dir at the build output"]
  | .manifest (.malformed _ _) => [
    "Check package.json for trailing commas or truncated content"]
  | .validation (.nameMismatch expected found) => [
    "Expected package '" ++ expected ++ "' but the manifest names '" ++ found ++ "'",
    "If the manifest was already renamed by an earlier run, publish without --rename-from"]
  | .validation (.missingArtifact entry _) => [
    "Ensure the build emits '" ++ entry ++ "'",
    "Remove the entry from --add-file if it is no longer produced"]
  | .publish (.unauthorized _) => [
    "Export the registry token, e.g. NPM_TOKEN, in the job environment",
    "Verify the token is an automation token with publish rights"]
  | .publish (.conflict _ version) => [
    "Version " ++ version ++ " is immutable on the registry",
    "Bump the package version and push a new tag"]
  | .publish (.network _) => [
    "Re-run the job once the registry is reachable",
    "Use --network-retries to retry transient failures in-process"]
  | .usage (.invalidTag _) => [
    "Release tags must start with 'v', e.g. v1.2.3"]
  | _ => ["Check the error message above for specific details"]

end Failure

end PackageRelease
