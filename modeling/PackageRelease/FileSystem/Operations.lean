import PackageRelease.FileSystem.Resolve

/-! # Reading and changing files

  The operations of the operating system that the tool needs. Reading leaves the file system as
  it is; an operation that changes it returns the new one, or an error and no change.
-/

namespace PackageRelease.FileSystem

/-! ### Reading -/

/-- The content of a file, links followed. -/
def readFile (fs : FileSystem) (p : Path) : Except IoError Bytes :=
  match fs.entry p with
  | .ok (.file content) => .ok content
  | .ok .directory => .error (.os .isADirectory)
  | .ok (.link _) => .error (.os .tooManyLinks)
  | .error e => .error (.os e)

/-- The text of a file, links followed. -/
def readText (fs : FileSystem) (p : Path) : Except IoError String := do
  match Text.decode? (← fs.readFile p) with
  | some text => return text
  | none => throw .notUtf8

/-- The names and entries in a directory. -/
def list (fs : FileSystem) (p : Path) : Except OsError (List (String × Entry)) := do
  match ← fs.find true p with
  | (location, .directory) => return fs.children location
  | _ => throw .notADirectory

/-- The names on the way from `base` to a location below it. -/
def below? : (base location : Location) → Option (List String)
  | [], [] => none
  | [], names => some names
  | _ :: _, [] => none
  | b :: base, l :: location => if b = l then below? base location else none

/-- Every regular file below a directory, by the names on the way to it. No link is followed. -/
def filesBelow (fs : FileSystem) (directory : Location) : List (List String) :=
  fs.entries.filterMap fun (location, entry) =>
    if entry.isFile then below? directory location else none

/-! ### The last name of a path -/

/-- The directory of the last name of a path, and that name. A path without a name of its own at
    the end is busy. -/
def slot (fs : FileSystem) (p : Path) : Except OsError (Location × Option String) := do
  if p.text.isEmpty then throw .notFound
  if pathLengthLimit ≤ p.text.utf8ByteSize then throw .nameTooLong
  match p.pieces.getLast? with
  | none => return (p.origin fs.workingDirectory, none)
  | some last =>
    match ← walk fs true maxLinks (p.origin fs.workingDirectory) p.pieces.dropLast with
    | .missing _ _ => throw .notFound
    | .found directory =>
      if fs.get? directory ≠ some .directory then throw .notADirectory
      return (directory, if last = "." ∨ last = ".." then none else some last)

/-! ### Writing a file -/

/-- Opens a file for writing: an existing one is emptied, a missing one is made. Returns where it
    is. A path that ends in a slash asks for a directory. -/
def create (fs : FileSystem) (p : Path) : Except OsError (FileSystem × Location) := do
  if p.endsInSlash then
    discard (fs.slot p)
    throw .isADirectory
  match ← fs.locate true p with
  | .missing directory name =>
    let location := directory ++ [name]
    return (fs.put location (.file []), location)
  | .found location =>
    match fs.get? location with
    | some (.file _) => return (fs.put location (.file []), location)
    | _ => throw .isADirectory

/-- Appends octets to the open file at a location. -/
def append (fs : FileSystem) (location : Location) (content : Bytes) : FileSystem :=
  match fs.get? location with
  | some (.file before) => fs.put location (.file (before ++ content))
  | _ => fs

/-- Writes a whole file. -/
def writeFile (fs : FileSystem) (p : Path) (content : Bytes) : Except OsError FileSystem := do
  let (fs, location) ← fs.create p
  return fs.append location content

/-! ### Renaming and removing -/

/-- Moves a file or link to another name and replaces what is there, unless that is a
    directory. -/
def rename (fs : FileSystem) (source target : Path) : Except OsError FileSystem := do
  let (fromDirectory, fromName?) ← fs.slot source
  let (toDirectory, toName?) ← fs.slot target
  match fromName?, toName? with
  | some fromName, some toName =>
    if maxNameLength < fromName.utf8ByteSize ∨ maxNameLength < toName.utf8ByteSize then
      throw .nameTooLong
    let old := fromDirectory ++ [fromName]
    let new := toDirectory ++ [toName]
    match fs.get? old with
    | none => throw .notFound
    | some .directory => throw .isADirectory
    | some entry =>
      if source.endsInSlash ∨ target.endsInSlash then throw .notADirectory
      if fs.get? new = some .directory then throw .isADirectory
      if old = new then return fs
      return (fs.erase old).put new entry
  | _, _ => throw .busy

/-- Removes a file or link. -/
def remove (fs : FileSystem) (p : Path) : Except OsError FileSystem := do
  match ← fs.find false p with
  | (_, .directory) => throw .isADirectory
  | (location, _) => return fs.erase location

/-! ### Building a tree -/

/-- Makes a directory and the missing ones on the way to it. -/
def makeDirectories (fs : FileSystem) (p : Path) : Except OsError FileSystem :=
  go fs ⟨if p.isAbsolute then "/" else ""⟩ p.pieces
where
  /-- Makes one directory after the other. -/
  go (fs : FileSystem) (done : Path) : List String → Except OsError FileSystem
    | [] => .ok fs
    | piece :: rest => do
      let next := done.join ⟨piece⟩
      match ← fs.locate true next with
      | .missing directory name => go (fs.put (directory ++ [name]) .directory) next rest
      | .found location =>
        if fs.get? location = some .directory then go fs next rest else throw ⟨17⟩

/-- Makes a symbolic link. -/
def makeLink (fs : FileSystem) (p : Path) (target : String) : Except OsError FileSystem := do
  match ← fs.locate false p with
  | .missing directory name => return fs.put (directory ++ [name]) (.link target)
  | .found _ => throw ⟨17⟩

/-- Removes a file, a link, or a directory with everything below it. -/
def removeTree (fs : FileSystem) (p : Path) : Except OsError FileSystem := do
  let (location, _) ← fs.find false p
  return { fs with entries := fs.entries.filter fun (l, _) =>
    l ≠ location ∧ (below? location l).isNone }

end PackageRelease.FileSystem
