/-! # Stages of a release

  A release goes through five states in a fixed order, and ends early in `failed`. Each stage needs
  one state and leads to another; the trigger check needs the first state and keeps it.
-/

namespace PackageRelease

/-- Where a release stands. -/
inductive State where
  /-- Nothing has been done. -/
  | idle
  /-- The manifest has been read. -/
  | manifestLoaded
  /-- The manifest has been changed in memory. -/
  | transformed
  /-- The changed manifest has been stored. -/
  | written
  /-- The registry has accepted the package. -/
  | published
  /-- A stage has failed. -/
  | failed
  deriving DecidableEq, Repr

namespace State

/-- The name of a state. -/
def name : State → String
  | .idle => "Idle"
  | .manifestLoaded => "ManifestLoaded"
  | .transformed => "Transformed"
  | .written => "Written"
  | .published => "Published"
  | .failed => "Failed"

/-- The place of a state in the order. -/
def rank : State → Nat
  | .idle => 0
  | .manifestLoaded => 1
  | .transformed => 2
  | .written => 3
  | .published => 4
  | .failed => 5

/-- Whether no stage can follow. -/
def isTerminal : State → Bool
  | .published | .failed => true
  | _ => false

end State

/-- A step of a release. -/
inductive Stage where
  /-- The settings and the tag are checked. -/
  | trigger
  /-- The manifest is read. -/
  | load
  /-- The manifest is changed in memory. -/
  | transform
  /-- The changed manifest is stored. -/
  | write
  /-- The package is sent to the registry. -/
  | publish
  deriving DecidableEq, Repr

namespace Stage

/-- The name of a stage. -/
def name : Stage → String
  | .trigger => "trigger"
  | .load => "load"
  | .transform => "transform"
  | .write => "write"
  | .publish => "publish"

/-- The state in which a stage starts. -/
def requires : Stage → State
  | .trigger | .load => .idle
  | .transform => .manifestLoaded
  | .write => .transformed
  | .publish => .written

/-- The state to which a stage leads. -/
def produces : Stage → State
  | .trigger => .idle
  | .load => .manifestLoaded
  | .transform => .transformed
  | .write => .written
  | .publish => .published

end Stage

end PackageRelease
