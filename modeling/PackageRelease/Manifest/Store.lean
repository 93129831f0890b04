import PackageRelease.FileSystem.Operations
import PackageRelease.Manifest.Basic

/-! # Stored manifests

  A manifest is stored by writing a file beside the target and moving it there, so that at every
  moment the target holds either the old or the new text as a whole.
-/

namespace PackageRelease.Manifest

/-! ### Loading -/

/-- What a failed reading of the file says about the manifest. -/
def loadFault (path : Path) : IoError → ManifestFault
  | .os error => if error = .notFound then .notFound path else .io path (.os error)
  | .notUtf8 => .malformed path IoError.notUtf8.message
  | .other reason => .io path (.other reason)

/-- The manifest in a file. -/
def load (fs : FileSystem) (path : Path) : Except Failure Manifest :=
  match fs.readText path with
  | .ok text => parse text path
  | .error cause => .error (.manifest (loadFault path cause))

/-! ### Storing -/

/-- The file beside the target that is written first. -/
def temporaryPath (path : Path) : Path :=
  path.withFileName ("." ++ path.fileName?.getD "package.json" ++ ".tmp")

/-- Stores octets through a file beside the target. A failure returns the file system as it is at
    that point, with the file beside the target still there. -/
def replaceFile (fs : FileSystem) (temporary path : Path) (content : Bytes) :
    Except OsError Unit × FileSystem :=
  match fs.create temporary with
  | .error error => (.error error, fs)
  | .ok (opened, location) =>
    let filled := opened.append location content
    match filled.rename temporary path with
    | .error error => (.error error, filled)
    | .ok moved => (.ok (), moved)

/-- Stores a manifest. After a failure the file beside the target is removed. -/
def store (m : Manifest) (fs : FileSystem) (path : Path) : Except Failure Unit × FileSystem :=
  let temporary := temporaryPath path
  match replaceFile fs temporary path (Text.encode m.render) with
  | (.ok (), stored) => (.ok (), stored)
  | (.error error, left) =>
    (.error (.manifest (.io path (.os error))),
      match left.remove temporary with
      | .ok cleaned => cleaned
      | .error _ => left)

end PackageRelease.Manifest
