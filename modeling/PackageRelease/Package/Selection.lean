import PackageRelease.Glob.Search
import PackageRelease.Manifest.Basic

/-! # Which files a package holds

  The manifest lists files, directories and patterns; without a list the whole directory counts.
  Files of packages installed below the directory never count. Beside what is listed, a readme and a
  licence in the directory itself always belong to the package, and the manifest is added
  separately.
-/

namespace PackageRelease.Selection

/-! ### From an entry to files -/

/-- The regular files that a path leads to: itself, or everything below it. A link is followed at
    the beginning only, and only to a directory. -/
def reach (fs : FileSystem) (path : Path) : List Path.Components :=
  let below (directory : Location) :=
    (fs.filesBelow directory).map fun names => path.components ++ names.map .name
  if fs.isPresent path then
    match fs.find false path with
    | .ok (_, .file _) => [path.components]
    | .ok (location, .directory) => below location
    | .ok (_, .link _) =>
      match fs.find true path with
      | .ok (location, .directory) => below location
      | _ => []
    | .error _ => []
  else []

/-- The directory that holds installed packages. -/
def installed : Path.Component := .name "node_modules"

/-- The files of `reach` that belong to a package, seen from its directory. -/
def collect (fs : FileSystem) (directory path : Path) : List Path.Components :=
  (reach fs path).filterMap fun components =>
    (Path.stripBase? directory.components components).filter fun relative =>
      !relative.contains installed

/-- An entry without `./` in front, however often it is repeated. -/
def withoutDots (entry : List Char) : List Char :=
  match entry with
  | '.' :: '/' :: rest => withoutDots rest
  | entry => entry

/-- The paths that an entry of the list stands for. -/
def resolve (fs : FileSystem) (directory : Path) (entry : String) : Except Failure (List Path) :=
  let trimmed := String.ofList (withoutDots entry.toList)
  if trimmed.isEmpty ∨ trimmed = "." then .ok [directory]
  else if Glob.hasWildcard trimmed then
    -- only the entry is a pattern; the directory stands for itself
    let pattern := Path.join ⟨Glob.escape directory.text⟩ ⟨trimmed⟩
    match Glob.Query.parse pattern.text with
    | .ok query => .ok (query.search fs)
    | .error fault =>
      .error (.validation (.invalidValue "files"
        ("bad pattern '" ++ entry ++ "': " ++ fault.message)))
  else .ok [directory.join ⟨trimmed⟩]

/-! ### From the list to the files -/

/-- Puts files into an ascending list. -/
def insertAll (files : List Path.Components) (set : List Path.Components) : List Path.Components :=
  files.foldl (fun set file => Path.insert file set) set

/-- The files of all entries. An entry that leads to no file ends the selection. -/
def listed (fs : FileSystem) (directory : Path) :
    List String → List Path.Components → Except Failure (List Path.Components)
  | [], set => .ok set
  | entry :: rest, set => do
    let files := (← resolve fs directory entry).flatMap (collect fs directory)
    if files.isEmpty then throw (.validation (.missingArtifact entry directory))
    listed fs directory rest (insertAll files set)

/-- The beginnings of the names of files that belong to every package. -/
def alwaysIncluded : List String := ["readme", "license", "licence"]

/-- The names in the directory itself that belong to every package. -/
def standing (entries : List (String × Entry)) : List String :=
  (entries.filter fun (name, entry) =>
    entry.isFile && alwaysIncluded.any fun start => Text.startsWith start (Text.lower name)).map
      Prod.fst

/-- The entries of the list of a manifest. -/
def entries (m : Manifest) : Except Failure (List String) :=
  match m.files?, m.get? "files" with
  | some files, _ => .ok files
  | none, some _ => .error (.validation (.fieldType "pack" "files" "an array of strings"))
  | none, none => .ok ["."]

/-- The files of a package besides its manifest, in ascending order. -/
def files (fs : FileSystem) (directory : Path) (m : Manifest) :
    Except Failure (List Path.Components) := do
  let set ← listed fs directory (← entries m) []
  match fs.list directory with
  | .error error => throw (.io (.os error))
  | .ok present =>
    let set := insertAll ((standing present).map fun name => [.name name]) set
    return set.filter (· ≠ [.name "package.json"])

end PackageRelease.Selection
