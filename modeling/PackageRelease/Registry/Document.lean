import PackageRelease.Encoding.Base64
import PackageRelease.Package.Tarball
import PackageRelease.Registry.Target

/-! # The upload document

  A version is uploaded as one JSON document: the manifest under its version, the tag that leads to
  it, and the packed package in base 64.
-/

namespace PackageRelease.Registry

/-- A package name in an address: the slash behind a scope does not separate. -/
def escapeName (name : String) : String := Text.replaceChar '/' "%2f" name

/-- The address of a package at a registry. -/
def packageAddress (target : Target) (name : String) : String :=
  target.registryBase ++ "/" ++ escapeName name

/-- The name of a version of a package. -/
def specOf (name version : String) : String := name ++ "@" ++ version

/-- Where a package can be fetched and what it has to look like. -/
def distribution (target : Target) (t : Tarball) (name : String) : Json :=
  .object [
    ("shasum", .string t.shasum),
    ("integrity", .string t.integrity),
    ("tarball", .string (target.registryBase ++ "/" ++ name ++ "/-/" ++ t.fileName))]

/-- The manifest as the registry keeps it. -/
def versionEntry (target : Target) (m : Manifest) (t : Tarball) (name version : String) : Json :=
  ((m.set "_id" (.string (specOf name version))).set "dist" (distribution target t name)).toJson

/-- The packed package as a part of the document. -/
def attachment (t : Tarball) : Json :=
  .object [
    ("content_type", .string "application/octet-stream"),
    ("data", .string (Base64.encode t.bytes)),
    ("length", .number (.integer t.size))]

/-- The document that uploads a version. -/
def uploadDocument (target : Target) (m : Manifest) (t : Tarball) (name version : String) : Json :=
  .object [
    ("_id", .string name),
    ("name", .string name),
    ("description", .string ((m.text? "description").getD "")),
    ("dist-tags", .object [(target.distTag, .string version)]),
    ("versions", .object [(version, versionEntry target m t name version)]),
    ("access", .string target.access.name),
    ("_attachments", .object [(t.fileName, attachment t)])]

end PackageRelease.Registry
