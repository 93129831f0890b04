import PackageRelease.Archive.Gzip
import PackageRelease.Archive.Tar
import PackageRelease.Digest.Sha1
import PackageRelease.Digest.Sha512
import PackageRelease.Encoding.Base64
import PackageRelease.Encoding.Hex
import PackageRelease.Package.Selection

/-! # Packed packages

  A package is packed into one archive: the manifest first, then the selected files in ascending
  order, all below `package/`. The same files and the same manifest always give the same octets.
-/

namespace PackageRelease

/-- A packed package. -/
structure Tarball where
  /-- The names and contents in the archive, in order. -/
  entries : List (String × Bytes)
  /-- The archive before compression. -/
  archive : Bytes
  /-- The name of the file that holds the package. -/
  fileName : String
  deriving DecidableEq, Repr

namespace Tarball

/-- The octets that are sent and stored. -/
def bytes (t : Tarball) : Bytes := Gzip.compress t.archive

/-- The number of octets. -/
def size (t : Tarball) : Nat := t.bytes.length

/-- The short digest of the octets. -/
def shasum (t : Tarball) : String := Hex.encode (Sha1.digest t.bytes)

/-- The long digest of the octets. -/
def integrity (t : Tarball) : String := "sha512-" ++ Base64.encode (Sha512.digest t.bytes)

/-- The names in the archive. -/
def names (t : Tarball) : List String := t.entries.map Prod.fst

/-- What follows the last slash of a package name. -/
def baseName (name : String) : String := (Text.split '/' name).getLastD name

/-- The name of the file that holds a version of a package. A scope is left out. -/
def fileNameOf (name version : String) : String := baseName name ++ "-" ++ version ++ ".tgz"

/-- The directory of everything in the archive. -/
def root : String := "package/"

/-- The files of a package with their contents, and their part of the archive. -/
def addFiles (fs : FileSystem) (directory : Path) :
    List Path.Components → Except Failure (List (String × Bytes) × Bytes)
  | [] => .ok ([], Tar.finish)
  | file :: rest => do
    let content ← match fs.readFile (directory.join ⟨Path.slashed file⟩) with
      | .ok content => pure content
      | .error cause => throw (.io cause)
    let name := root ++ Path.slashed file
    let first ← match Tar.entry name content with
      | .ok first => pure first
      | .error cause => throw (.io cause)
    let (entries, archive) ← addFiles fs directory rest
    return ((name, content) :: entries, first ++ archive)

/-- The manifest as it goes into the archive. -/
def manifestEntry (m : Manifest) : String × Bytes := (root ++ "package.json", Text.encode m.render)

/-- Packs a directory. The manifest in the archive is the given one, not a file. -/
def pack (fs : FileSystem) (directory : Path) (m : Manifest) : Except Failure Tarball := do
  let some name := m.name? | throw (.validation (.missingField "pack" "name"))
  let some version := m.version? | throw (.validation (.missingField "pack" "version"))
  let files ← Selection.files fs directory m
  let (manifestName, manifestText) := manifestEntry m
  let first := Tar.fileSection (Text.encode manifestName) manifestText
  let (entries, archive) ← addFiles fs directory files
  return {
    entries := (manifestName, manifestText) :: entries
    archive := first ++ archive
    fileName := fileNameOf name version }

end Tarball

end PackageRelease
