import PackageRelease.Release.Failure
import PackageRelease.Url.Parser

/-! # Where a package goes

  A target is a registry together with the directory that is packed for it and the manifest that
  describes the package.
-/

namespace PackageRelease

/-- Who may install a package. -/
inductive Access where
  /-- Everybody. -/
  | everyone
  /-- The members of the organisation that owns the scope. -/
  | restricted
  deriving DecidableEq, Repr

namespace Access

/-- The word for an access level. -/
def name : Access → String
  | .everyone => "public"
  | .restricted => "restricted"

/-- The access level that a word stands for. -/
def ofName? : String → Option Access
  | "public" => some .everyone
  | "restricted" => some .restricted
  | _ => none

end Access

/-- A registry and what is sent to it. -/
structure Target where
  /-- The address of the registry. -/
  registry : Url
  /-- The directory that is packed. -/
  artifactDirectory : Path
  /-- The manifest that is read when the package is packed. -/
  manifestPath : Path
  /-- Who may install the package. -/
  access : Access
  /-- The tag that will lead to the version. -/
  distTag : String
  deriving DecidableEq, Repr

/-- The registry that is used when none is given. -/
def defaultRegistry : String := "https://registry.npmjs.org"

/-- The name of the manifest in its directory. -/
def manifestName : Path := ⟨"package.json"⟩

namespace Target

/-- The failure for a registry whose address cannot be used. -/
def registryFault (registry : String) : UrlFault → Failure
  | .unsupportedScheme scheme =>
    .validation (.invalidValue "registry" (UrlFault.unsupportedScheme scheme).message)
  | fault =>
    .validation (.invalidValue "registry"
      ("'" ++ registry ++ "' is not a valid URL: " ++ fault.message))

/-- The target with the usual manifest, for everybody and under the usual tag. -/
def ofRegistry (registry : String) (directory : Path) : Except Failure Target :=
  match Url.parse registry with
  | .error fault => .error (registryFault registry fault)
  | .ok url => .ok {
      registry := url
      artifactDirectory := directory
      manifestPath := directory.join manifestName
      access := .everyone
      distTag := "latest" }

/-- The address of the registry without slashes at the end. -/
def registryBase (target : Target) : String := Text.trimEnd '/' target.registry.render

end Target

end PackageRelease
