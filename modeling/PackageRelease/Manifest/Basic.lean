import PackageRelease.Json.Printer
import PackageRelease.Json.Reader
import PackageRelease.Release.Failure

/-! # Package manifests

  A manifest is a JSON object that keeps the order of its fields, so that reading and writing one
  preserves everything in it.
-/

namespace PackageRelease

/-- The description of a package. -/
structure Manifest where
  /-- The fields in their order. -/
  fields : Fields Json
  deriving DecidableEq, Repr, Inhabited

namespace Manifest

/-- The manifest without any field. -/
def empty : Manifest := ⟨[]⟩

/-- The manifest in a text. `path` is named when the text is refused. -/
def parse (text : String) (path : Path) : Except Failure Manifest :=
  match Json.parse text with
  | .error fault => .error (.manifest (.malformed path fault.message))
  | .ok (.object fields) => .ok ⟨fields⟩
  | .ok other =>
    .error (.manifest (.malformed path
      ("top-level value must be an object, found " ++ other.kindName)))

/-- The value of a field. -/
def get? (m : Manifest) (key : String) : Option Json := m.fields.get? key

/-- The text of a field that holds a string. -/
def text? (m : Manifest) (key : String) : Option String := (m.get? key).bind Json.string?

/-- The name of the package. -/
def name? (m : Manifest) : Option String := m.text? "name"

/-- The version of the package. -/
def version? (m : Manifest) : Option String := m.text? "version"

/-- The texts of an array that holds only strings. -/
def texts? (value : Json) : Option (List String) :=
  value.array?.bind fun items => items.mapM Json.string?

/-- The listed files: nothing without a list of strings. -/
def files? (m : Manifest) : Option (List String) := (m.get? "files").bind texts?

/-- The names of the fields in order. -/
def keys (m : Manifest) : List String := m.fields.keys

/-- The manifest with a field set. -/
def set (m : Manifest) (key : String) (value : Json) : Manifest := ⟨m.fields.set key value⟩

/-- The manifest as a JSON value. -/
def toJson (m : Manifest) : Json := .object m.fields

/-- The text of a manifest, ending in a line break. -/
def render (m : Manifest) : String := m.toJson.pretty ++ "\n"

end Manifest

end PackageRelease
