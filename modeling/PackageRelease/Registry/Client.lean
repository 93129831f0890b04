import PackageRelease.Manifest.Store
import PackageRelease.Registry.Document
import PackageRelease.Registry.Verdict
import PackageRelease.Release.World
import PackageRelease.Version

/-! # Talking to a registry

  `publish` packs a directory and uploads it with one request, `dryRun` does everything but the
  request, and `versionExists` asks whether a version is there. Reading the manifest and packing
  come before any request, and so does every check of what was read.
-/

namespace PackageRelease.Registry

/-! ### Requests -/

/-- How the program introduces itself. -/
def userAgent : String := "kodegen_wasm_publish/0.1.1"

/-- Whether a character may stand in the value of a header. -/
def isHeaderChar (c : Char) : Bool := (0x20 ≤ c.toNat && c.toNat ≠ 0x7F) || c = '\t'

/-- Whether a character of a host may stand in a request. -/
def isHostChar (c : Char) : Bool := c ∉ ['"', '`', '{', '}']

/-- The header for the user name and password in an address, when they are valid UTF-8. -/
def basicHeader? (url : Url) : Option String := do
  let user ← Text.decode? (Percent.decode url.userName.toList)
  let password? := url.password?.bind fun p => Text.decode? (Percent.decode p.toList)
  guard (!user.isEmpty || password?.isSome)
  return "Basic " ++ Base64.encode (Text.encode (user ++ ":" ++ password?.getD ""))

/-- A request to an address, with the user of the address moved into a header. -/
def request (method : Method) (url : Url) (headers : List (String × String)) (body? : Option Json) :
    Request :=
  let closing := [("user-agent", userAgent)]
  match basicHeader? url with
  | some basic => ⟨method, url.withoutUser, ("authorization", basic) :: headers ++ closing, body?⟩
  | none => ⟨method, url, headers ++ closing, body?⟩

/-- The request that asks for all versions of a package. -/
def lookupRequest (url : Url) : Request :=
  request .get url [("accept", "application/json")] none

/-- The request that uploads a version. -/
def uploadRequest (url : Url) (token : Token) (document : Json) : Request :=
  request .put url [("authorization", token.header), ("npm-command", "publish"),
    ("content-type", "application/json"), ("accept", "*/*")] (some document)

/-- Why a request cannot be sent at all. -/
def unsendable? (request : Request) : Option String :=
  if !request.headers.all fun (_, value) => value.toList.all isHeaderChar then
    some "builder error"
  else if !request.url.host.render.toList.all isHostChar then
    some ("builder error for url (" ++ request.url.render ++ ")")
  else none

/-- Sends a request. Without an answer it fails, and the failure names `peer`. -/
def exchange (peer : String) (request : Request) : Action World Answer := do
  let failed (reason : String) :=
    Failure.publish (.network ("request to " ++ peer ++ " failed: " ++ reason))
  match unsendable? request with
  | some reason => throw (failed reason)
  | none =>
    match ← World.send request with
    | some answer => return answer
    | none => throw (failed ("error sending request for url (" ++ request.url.render ++ ")"))

/-- The address in a text that was made from a valid one. -/
def addressOf (peer text : String) : Except Failure Url :=
  match Url.parse text with
  | .ok url => .ok url
  | .error _ => .error (.publish (.network ("request to " ++ peer ++ " failed: builder error")))

/-! ### What is published -/

/-- The confirmation of a published version, or of one that could be. -/
structure Receipt where
  /-- The name of the package. -/
  name : String
  /-- The version. -/
  version : String
  /-- The address of the registry. -/
  registry : String
  /-- The tag that leads to the version. -/
  distTag : String
  /-- The short digest of the packed package. -/
  shasum : String
  /-- The long digest of the packed package. -/
  integrity : String
  /-- The number of octets of the packed package. -/
  size : Nat
  /-- The number of files in the packed package. -/
  fileCount : Nat
  /-- Whether nothing was uploaded. -/
  dryRun : Bool
  deriving DecidableEq, Repr

/-- The name of the version that a receipt is for. -/
def Receipt.spec (receipt : Receipt) : String := specOf receipt.name receipt.version

/-- A package that is ready for its upload. -/
structure Parcel where
  /-- The manifest. -/
  manifest : Manifest
  /-- The packed package. -/
  tarball : Tarball
  /-- The name of the package. -/
  name : String
  /-- The version. -/
  version : String
  deriving DecidableEq, Repr

/-- The name and the version in a manifest; the version has to be a semantic one. -/
def identity (m : Manifest) : Except Failure (String × String) := do
  let some name := m.name? | throw (.validation (.missingField "publish" "name"))
  let some version := m.version? | throw (.validation (.missingField "publish" "version"))
  match Version.parse version with
  | .ok _ => return (name, version)
  | .error fault =>
    throw (.validation (.invalidValue "version"
      ("'" ++ version ++ "' is not a semantic version: " ++ fault.message)))

/-- Reads the manifest of a target and packs its directory. -/
def prepare (fs : FileSystem) (target : Target) : Except Failure Parcel := do
  let manifest ← Manifest.load fs target.manifestPath
  let tarball ← Tarball.pack fs target.artifactDirectory manifest
  let (name, version) ← identity manifest
  return ⟨manifest, tarball, name, version⟩

/-- The receipt for a parcel. -/
def receipt (target : Target) (parcel : Parcel) (dryRun : Bool) : Receipt := {
  name := parcel.name
  version := parcel.version
  registry := target.registryBase
  distTag := target.distTag
  shasum := parcel.tarball.shasum
  integrity := parcel.tarball.integrity
  size := parcel.tarball.size
  fileCount := parcel.tarball.entries.length
  dryRun }

/-! ### Operations -/

/-- Packs the directory of a target and uploads it. -/
def publish (target : Target) (token : Token) : Action World Receipt := do
  let parcel ← Action.reading fun world => prepare world.files target
  let spec := specOf parcel.name parcel.version
  Action.record .info ("Publishing " ++ spec ++ " to " ++ target.registryBase ++ " (" ++
    Text.decimal parcel.tarball.size ++ " bytes)")
  let url ← addressOf target.registryBase (packageAddress target parcel.name)
  let document :=
    uploadDocument target parcel.manifest parcel.tarball parcel.name parcel.version
  let answer ← exchange target.registryBase (uploadRequest url token document)
  Verdict.ofAnswer answer.status answer.text parcel.name parcel.version
  Action.record .info ("Registry accepted " ++ spec ++ " (" ++ answer.status.message ++ ")")
  return receipt target parcel false

/-- Packs the directory of a target without uploading it. -/
def dryRun (target : Target) : Action World Receipt := do
  let parcel ← Action.reading fun world => prepare world.files target
  Action.record .info
    ("Dry run: skipping upload of " ++ specOf parcel.name parcel.version)
  return receipt target parcel true

/-- Whether a document about a package lists a version. -/
def lists (document : Json) (version : String) : Bool :=
  ((document.field? "versions").bind Json.object?).any fun versions =>
    (versions.get? version).isSome

/-- The document in the body of an answer. -/
def documentOf (address : String) (answer : Answer) : Except Failure Json :=
  match answer.body?.map Json.parse with
  | some (.ok document) => .ok document
  | _ =>
    .error (.publish (.network
      ("invalid packument from " ++ address ++ ": error decoding response body")))

/-- Whether the registry of a target has a version of a package. -/
def versionExists (target : Target) (name version : String) : Action World Bool := do
  let address := packageAddress target name
  let answer ← exchange address (lookupRequest (← addressOf address address))
  if answer.status.code = 404 then return false
  if answer.status.isSuccess then return lists (← documentOf address answer) version
  Verdict.ofAnswer answer.status answer.text name version
  return false

end PackageRelease.Registry
