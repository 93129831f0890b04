import PackageRelease.Path
import PackageRelease.FileSystem.Basic

/-! # From paths to locations

  A path is resolved name by name. `stretch` goes on until the names are used up, something is
  missing, or a link has to be followed; `walk` follows a bounded number of links. A slash at the
  end of a path asks for a directory and is treated as a `.` behind it.
-/

namespace PackageRelease

namespace Path

/-- The names that a path asks for, one after the other. -/
def steps (p : Path) : List String :=
  p.pieces ++ (if p.endsInSlash then ["."] else [])

/-- The directory where a path starts, seen from `here`. -/
def origin (here : Location) (p : Path) : Location := if p.isAbsolute then [] else here

end Path

namespace FileSystem

/-- The greatest number of octets in a name. -/
def maxNameLength : Nat := 255

/-- The least number of octets that a path may not have. -/
def pathLengthLimit : Nat := 4096

/-- How many links are followed on the way to one location. -/
def maxLinks : Nat := 40

/-- Where a path leads. -/
inductive Spot where
  /-- To an entry that exists. -/
  | found (location : Location)
  /-- To a name that is free in an existing directory. -/
  | missing (directory : Location) (name : String)
  deriving DecidableEq, Repr

/-- How far one stretch without links goes. -/
inductive Stop where
  /-- All names are used up. -/
  | done (spot : Spot)
  /-- The path leads nowhere. -/
  | failed (error : OsError)
  /-- A link in a directory has to be followed before the remaining names. -/
  | follow (directory : Location) (target : String) (rest : List String)
  deriving DecidableEq, Repr

/-- Goes through names from a directory. The last name is followed through a link only if
    `through` is set. -/
def stretch (fs : FileSystem) (through : Bool) : Location → List String → Stop
  | here, [] => .done (.found here)
  | here, "." :: rest => stretch fs through here rest
  | here, ".." :: rest => stretch fs through here.dropLast rest
  | here, name :: rest =>
    if maxNameLength < name.utf8ByteSize then .failed .nameTooLong
    else match fs.get? (here ++ [name]) with
      | none => if rest.isEmpty then .done (.missing here name) else .failed .notFound
      | some .directory => stretch fs through (here ++ [name]) rest
      | some (.file _) =>
        if rest.isEmpty then .done (.found (here ++ [name])) else .failed .notADirectory
      | some (.link target) =>
        if rest.isEmpty && !through then .done (.found (here ++ [name]))
        else .follow here target rest

/-- Resolves names, following at most the given number of links. -/
def walk (fs : FileSystem) (through : Bool) :
    Nat → Location → List String → Except OsError Spot
  | links, here, names =>
    match stretch fs through here names with
    | .done spot => .ok spot
    | .failed error => .error error
    | .follow directory target rest =>
      match links with
      | 0 => .error .tooManyLinks
      | links + 1 =>
        let path : Path := ⟨target⟩
        if target.isEmpty then .error .notFound
        else walk fs through links (path.origin directory) (path.steps ++ rest)

/-- Where a path leads. -/
def locate (fs : FileSystem) (through : Bool) (p : Path) : Except OsError Spot :=
  if p.text.isEmpty then .error .notFound
  else if pathLengthLimit ≤ p.text.utf8ByteSize then .error .nameTooLong
  else walk fs through maxLinks (p.origin fs.workingDirectory) p.steps

/-- The existing entry that a path leads to. -/
def find (fs : FileSystem) (through : Bool) (p : Path) : Except OsError (Location × Entry) := do
  match ← fs.locate through p with
  | .missing _ _ => throw .notFound
  | .found location =>
    match fs.get? location with
    | some entry => return (location, entry)
    | none => throw .notFound

/-- The entry behind a path, links followed. -/
def entry (fs : FileSystem) (p : Path) : Except OsError Entry := Prod.snd <$> fs.find true p

/-- Whether something is there, links followed. -/
def isPresent (fs : FileSystem) (p : Path) : Bool := (fs.entry p).isOk

/-- Whether a directory is there, links followed. -/
def isDirectory (fs : FileSystem) (p : Path) : Bool :=
  match fs.entry p with
  | .ok .directory => true
  | _ => false

end FileSystem

end PackageRelease
