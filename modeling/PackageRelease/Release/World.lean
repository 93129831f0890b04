import PackageRelease.FileSystem.Operations
import PackageRelease.Registry.Exchange
import PackageRelease.Registry.Token
import PackageRelease.Release.Failure

/-! # The world of a release

  Everything that a release reads and changes: files, the environment, the registry and how it
  behaves, the log and the time that was spent waiting. An action takes a world to a result and a
  new world; what it did before it failed stays done.
-/

namespace PackageRelease

/-! ### The log -/

/-- How weighty a log entry is. -/
inductive Level where
  | info
  | warn
  | error
  deriving DecidableEq, Repr

/-- The word for a level. -/
def Level.name : Level → String
  | .info => "INFO"
  | .warn => "WARN"
  | .error => "ERROR"

/-- An entry of the log. -/
structure LogEntry where
  /-- How weighty it is. -/
  level : Level
  /-- What it says. -/
  text : String
  deriving DecidableEq, Repr

/-- A state that keeps a log, passes time and tells whether the program has panicked. -/
class Chronicle (σ : Type) where
  /-- Adds an entry to the log. -/
  record : LogEntry → σ → σ
  /-- Lets a number of milliseconds pass. -/
  wait : Nat → σ → σ
  /-- Marks that the program has panicked. A state that has no place for the mark stays as it is. -/
  panic : σ → σ := id

/-! ### The world -/

/-- What a release reads and changes. -/
structure World where
  /-- The files. -/
  files : FileSystem
  /-- The variables that the program was started with. -/
  environment : Environment
  /-- What the next requests will meet with, in order; requests after that get no answer. -/
  answers : List (Option Answer)
  /-- The requests so far, in order. -/
  attempts : List Attempt
  /-- The log so far, in order. -/
  log : List LogEntry
  /-- The waits so far in milliseconds, in order. -/
  waits : List Nat
  /-- Whether the program has panicked. A panic ends the program: what a world tells from there on
      is void. -/
  panicked : Bool

namespace World

instance : Chronicle World where
  record entry world := { world with log := world.log ++ [entry] }
  wait milliseconds world := { world with waits := world.waits ++ [milliseconds] }
  panic world := { world with panicked := true }

/-- A world in which nothing has been done yet. -/
def start (files : FileSystem) (environment : Environment) (answers : List (Option Answer)) :
    World :=
  { files, environment, answers, attempts := [], log := [], waits := [], panicked := false }

end World

/-! ### Actions -/

/-- A computation over a state that may fail. -/
abbrev Action (σ α : Type) := ExceptT Failure (StateM σ) α

namespace Action

variable {σ α : Type}

/-- What an action comes to, and the state that it leaves. -/
def perform (action : Action σ α) (state : σ) : Except Failure α × σ := action.run.run state

/-- An action that computes its result and the next state. -/
def ofFunction (f : σ → Except Failure α × σ) : Action σ α := ExceptT.mk fun state => f state

/-- An action that only reads the state. -/
def reading (f : σ → Except Failure α) : Action σ α := ofFunction fun state => (f state, state)

/-- Turns the outcome of an action into its result. -/
def observe (action : Action σ α) : Action σ (Except Failure α) :=
  ofFunction fun state =>
    let (outcome, state) := action.perform state
    (.ok outcome, state)

/-- Adds an entry to the log. -/
def record [Chronicle σ] (level : Level) (text : String) : Action σ Unit :=
  modify (Chronicle.record ⟨level, text⟩)

/-- Lets a number of milliseconds pass. -/
def wait [Chronicle σ] (milliseconds : Nat) : Action σ Unit :=
  modify (Chronicle.wait milliseconds)

/-- Ends the program. The failure stands for a result, because there is none. -/
def panic [Chronicle σ] (failure : Failure) : Action σ α := do
  modify Chronicle.panic
  throw failure

end Action

/-- Sends a request and gives its answer, if one comes. -/
def World.send (request : Request) : Action World (Option Answer) :=
  Action.ofFunction fun world =>
    let answer? := world.answers.head?.join
    (.ok answer?, { world with
      answers := world.answers.drop 1
      attempts := world.attempts ++ [⟨request, answer?⟩] })

end PackageRelease
