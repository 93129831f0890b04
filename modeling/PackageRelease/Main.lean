import PackageRelease.CommandLine.Execution
import PackageRelease.CommandLine.Parser

/-! # The program

  The program loads the files below the directory in which it was started, does what its arguments
  ask for, stores what has changed and prints what there is to say. Files elsewhere are not seen,
  and links are taken for what they lead to. It is built without a logger and without an HTTP
  client: no log is shown, and no registry can be reached.
-/

namespace PackageRelease.Program

/-- The directory in which the program was started. -/
def workplace : Location := ["work"]

/-- Loads an entry of a directory and everything below it. -/
partial def load (directory : Location) (files : FileSystem) (entry : IO.FS.DirEntry) :
    IO FileSystem := do
  let location := directory ++ [entry.fileName]
  if ← entry.path.isDir then
    let children ← entry.path.readDir
    children.foldlM (load location) (files.put location .directory)
  else if ← entry.path.pathExists then
    return files.put location (.file (← IO.FS.readBinFile entry.path).toList)
  else return files

/-- Loads everything below the directory in which the program was started. -/
def loadAll : IO FileSystem := do
  let entries ← (← IO.currentDir).readDir
  entries.foldlM (load workplace) ⟨[(workplace, .directory)], workplace⟩

/-- Stores what differs between two states of the files. -/
def storeAll (before after : FileSystem) : IO Unit := do
  for (location, entry) in after.entries do
    match FileSystem.below? workplace location, entry with
    | some names, .file content =>
      if before.get? location ≠ some entry then
        IO.FS.writeBinFile (Text.join "/" names) ⟨content.toArray⟩
    | _, _ => pure ()
  for (location, _) in before.entries do
    match FileSystem.below? workplace location with
    | some names => if (after.get? location).isNone then IO.FS.removeFile (Text.join "/" names)
    | none => pure ()

/-- The variables among the given names that are set. -/
def environmentOf (names : List String) : IO Environment :=
  names.filterMapM fun name => do
    return (← IO.getEnv name).map fun value => (name, value)

/-- The names of the variables that the program knows without settings. -/
def knownVariables : List String :=
  ["TERM", "NO_COLOR", retriesVariable] ++
    (ArgumentLevel.valueOptions (.command .publish)).filterMap ValueOption.substitute?

/-- A logger that shows nothing, and a client whose requests meet with no answer. -/
def libraries : Libraries := ⟨fun _ _ => "", fun _ => []⟩

/-- Does what arguments ask for. -/
def execute (arguments : Arguments) (known : Environment) : IO UInt32 := do
  let files ← loadAll
  let tokenVariables := match arguments.settings files known with
    | .ok s => [s.tokenVariable]
    | .error _ => []
  let environment := known ++ (← environmentOf tokenVariables)
  let outcome := arguments.execute (.start files environment (libraries.answers environment))
  storeAll files outcome.world.files
  IO.print (outcome.shown libraries arguments environment .output)
  IO.eprint (outcome.shown libraries arguments environment .error)
  return UInt32.ofNat outcome.exitCode

/-- Does what words ask for. -/
def run (words : List String) : IO UInt32 := do
  let known ← environmentOf knownVariables
  match Arguments.parse known words with
  | .ok arguments => execute arguments known
  | .error fault =>
    IO.eprintln fault.message
    return UInt32.ofNat fault.exitCode

end PackageRelease.Program

/-- Runs the program. -/
def main (words : List String) : IO UInt32 := PackageRelease.Program.run words
