import PackageRelease.Text.Utf8
import PackageRelease.FileSystem.OsError

/-! # File systems

  A file system is a finite map from locations to entries, together with the directory in which
  relative paths start. A location is the list of names from the root and holds no `.`, no `..`
  and no link on the way; resolving a path to its location is the work of
  `PackageRelease.FileSystem.Resolve`.

  The order of the map is the order in which entries were made. Nothing that the program computes
  depends on it except the order in which a directory is listed.

  Some of what an operating system keeps is left out:

  - owners and permissions, full and failing devices: an operation fails only for what the entries,
    the paths and the bounds on their lengths are;
  - hard links: every location has a file of its own;
  - names that are not UTF-8, which would be shown with replacement characters, and names with a
    NUL, which no system has: a name is a text without either.
-/

namespace PackageRelease

/-- The names on the way from the root to an entry, each of them a text: a name whose octets are not
    UTF-8 has no location here. -/
abbrev Location := List String

/-- What stands at a location. -/
inductive Entry where
  /-- A regular file with its content. -/
  | file (content : Bytes)
  /-- A directory; its entries have longer locations. -/
  | directory
  /-- A symbolic link with the text it holds. -/
  | link (target : String)
  deriving DecidableEq, Repr

namespace Entry

/-- Whether the entry is a regular file. -/
def isFile : Entry → Bool
  | .file _ => true
  | _ => false

/-- Whether the entry is a directory. -/
def isDirectory : Entry → Bool
  | .directory => true
  | _ => false

end Entry

/-- A tree of files, directories and links, without permissions and without a second location for
    any file. -/
structure FileSystem where
  /-- Every entry except the root, by its location. -/
  entries : List (Location × Entry)
  /-- The directory where relative paths start. -/
  workingDirectory : Location
  deriving DecidableEq, Repr, Inhabited

namespace FileSystem

/-! ### Entries -/

/-- Replaces the entry at a location, or adds one at the end. -/
def putEntry (location : Location) (entry : Entry) :
    List (Location × Entry) → List (Location × Entry)
  | [] => [(location, entry)]
  | (l, e) :: rest =>
    if l = location then (l, entry) :: rest else (l, e) :: putEntry location entry rest

/-- The entry at a location. The root is a directory. -/
def get? (fs : FileSystem) (location : Location) : Option Entry :=
  if location = [] then some .directory else fs.entries.lookup location

/-- The file system with an entry put at a location. -/
def put (fs : FileSystem) (location : Location) (entry : Entry) : FileSystem :=
  { fs with entries := putEntry location entry fs.entries }

/-- The file system without the entry at a location. -/
def erase (fs : FileSystem) (location : Location) : FileSystem :=
  { fs with entries := fs.entries.filter fun (l, _) => l ≠ location }

/-- The names and entries directly below a location. -/
def children (fs : FileSystem) (location : Location) : List (String × Entry) :=
  fs.entries.filterMap fun (l, entry) =>
    match l.getLast? with
    | some name => if l.dropLast = location then some (name, entry) else none
    | none => none

/-! ### What an operation leaves alone -/

theorem lookup_putEntry (location other : Location) (entry : Entry)
    (entries : List (Location × Entry)) :
    (putEntry location entry entries).lookup other =
      if other = location then some entry else entries.lookup other := by
  induction entries with
  | nil =>
    by_cases h : other = location
    · simp [putEntry, h]
    · have hne : (other == location) = false := by simp [h]
      simp [putEntry, List.lookup_cons, hne, h]
  | cons head rest ih =>
    obtain ⟨l, e⟩ := head
    by_cases hl : l = location
    · subst hl
      by_cases h : other = l
      · simp [putEntry, h]
      · have hne : (other == l) = false := by simp [h]
        simp [putEntry, List.lookup_cons, hne, h]
    · by_cases h : other = l
      · subst h
        simp [putEntry, hl]
      · have hne : (other == l) = false := by simp [h]
        simp only [putEntry, hl, if_false, List.lookup_cons, hne, ih]

theorem lookup_filter_ne (location other : Location) (entries : List (Location × Entry)) :
    (entries.filter fun (l, _) => l ≠ location).lookup other =
      if other = location then none else entries.lookup other := by
  induction entries with
  | nil => simp
  | cons head rest ih =>
    obtain ⟨l, e⟩ := head
    by_cases hl : l = location
    · subst hl
      by_cases h : other = l
      · simp only [h, if_true] at ih ⊢
        simpa using ih
      · have hne : (other == l) = false := by simp [h]
        simp only [h, if_false] at ih
        simp only [h, if_false, List.lookup_cons, hne, ← ih]
        simp
    · by_cases h : other = l
      · subst h
        simp [hl]
      · have hne : (other == l) = false := by simp [h]
        simp only [List.filter_cons, hl, ne_eq, not_false_eq_true, decide_true, if_true,
          List.lookup_cons, hne, ih]

/-- Putting an entry is seen at its location and nowhere else. -/
theorem get?_put {location : Location} (hl : location ≠ []) (fs : FileSystem) (entry : Entry)
    (other : Location) :
    (fs.put location entry).get? other = if other = location then some entry else fs.get? other := by
  by_cases h : other = []
  · subst h
    simp [get?, Ne.symm hl]
  · simp [get?, put, h, lookup_putEntry]

/-- Erasing an entry is seen at its location and nowhere else. -/
theorem get?_erase {location : Location} (hl : location ≠ []) (fs : FileSystem)
    (other : Location) :
    (fs.erase location).get? other = if other = location then none else fs.get? other := by
  by_cases h : other = []
  · subst h
    simp [get?, Ne.symm hl]
  · simpa [get?, erase, h] using lookup_filter_ne location other fs.entries

end FileSystem

end PackageRelease
