import PackageRelease.Manifest.Basic

/-! # Changes to a manifest

  A change either applies or says why it cannot. Several changes apply one after the other; the
  first that cannot ends them.
-/

namespace PackageRelease

/-- A change to a manifest. -/
inductive Edit where
  /-- Gives the package another name, if it has the expected one. -/
  | rename (source target : String)
  /-- Lists further files. -/
  | addFiles (entries : List String)
  /-- Sets a field to a string. -/
  | setField (key value : String)
  deriving DecidableEq, Repr

namespace Edit

/-- The name of a kind of change. -/
def name : Edit → String
  | .rename _ _ => "rename"
  | .addFiles _ => "augment-files"
  | .setField _ _ => "set-field"

/-- A change in words. -/
def describe : Edit → String
  | .rename source target => "rename '" ++ source ++ "' -> '" ++ target ++ "'"
  | .addFiles entries => "augment files with [" ++ Text.join ", " entries ++ "]"
  | .setField key value => "set " ++ key ++ " = '" ++ value ++ "'"

/-- Adds an entry at the end, unless it is there. -/
def addOnce (files : List String) (entry : String) : List String :=
  if entry ∈ files then files else files ++ [entry]

/-- The manifest after a change. -/
def apply (edit : Edit) (m : Manifest) : Except Failure Manifest :=
  match edit with
  | .rename source target =>
    match m.get? "name" with
    | none => .error (.validation (.missingField edit.name "name"))
    | some (.string current) =>
      if current = source then .ok (m.set "name" (.string target))
      else .error (.validation (.nameMismatch source current))
    | some _ => .error (.validation (.fieldType edit.name "name" "a string"))
  | .addFiles entries =>
    match m.get? "files" with
    | none => .error (.validation (.missingField edit.name "files"))
    | some value =>
      match Manifest.texts? value with
      | none => .error (.validation (.fieldType edit.name "files" "an array of strings"))
      | some files =>
        .ok (m.set "files" (.array ((entries.foldl addOnce files).map Json.string)))
  | .setField key value =>
    if Text.isBlankText key then
      .error (.validation (.invalidValue "set-field key" "field name must not be empty"))
    else .ok (m.set key (.string value))

/-- The manifest after all changes. -/
def applyAll : List Edit → Manifest → Except Failure Manifest
  | [], m => .ok m
  | edit :: rest, m => do applyAll rest (← edit.apply m)

end Edit

end PackageRelease
