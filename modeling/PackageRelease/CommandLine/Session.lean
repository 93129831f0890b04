import PackageRelease.CommandLine.Arguments
import PackageRelease.Release.Run

/-! # Sessions

  A command works in a session: the world, and what the command has said so far. What it said and
  did before it failed stays said and done.
-/

namespace PackageRelease

/-- The world, and what was said so far. -/
structure Session where
  /-- Files, registry, log and time. -/
  world : World
  /-- The notices so far, in order. -/
  notices : List Notice

namespace Session

/-- Says something. -/
def say (notice : Notice) : Action Session Unit :=
  Action.ofFunction fun session =>
    (.ok (), { session with notices := session.notices ++ [notice] })

/-- Says several things. -/
def sayAll (notices : List Notice) : Action Session Unit :=
  Action.ofFunction fun session => (.ok (), { session with notices := session.notices ++ notices })

/-- An action on the world of a session. -/
def onWorld {α : Type} (action : Action World α) : Action Session α :=
  Action.ofFunction fun session =>
    let (outcome, world) := action.perform session.world
    (outcome, { session with world })

/-- A release from its start, in the world of a session. -/
def release {α : Type} (settings : Settings) (action : Action Run α) : Action Session α :=
  Action.ofFunction fun session =>
    let (outcome, run) := action.perform (Run.start settings none session.world)
    (outcome, { session with world := run.world })

/-- The settings that arguments ask for. -/
def settings (arguments : Arguments) : Action Session Settings :=
  Action.reading fun session =>
    arguments.settings session.world.files session.world.environment

end Session

end PackageRelease
