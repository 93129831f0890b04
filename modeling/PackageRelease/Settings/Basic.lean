import PackageRelease.Manifest.Edit
import PackageRelease.Registry.Target
import PackageRelease.Release.Backoff
import PackageRelease.Version

/-! # Settings

  Everything that a release is told from outside. Settings come in layers, of which a later one
  wins: the built-in ones, a file, and the command line.
-/

namespace PackageRelease

/-- A change of name that is made only if the package has the expected name. -/
structure RenameRule where
  /-- The name that the package must have. -/
  source : String
  /-- The name that it gets. -/
  target : String
  deriving DecidableEq, Repr

/-- What a release is told from outside. -/
structure Settings where
  /-- The directory that is packed. -/
  artifactDirectory : Path
  /-- The manifest, if it is not the usual one in the directory. -/
  manifestPath? : Option Path
  /-- The address of the registry. -/
  registry : String
  /-- The variable that holds the token. -/
  tokenVariable : String
  /-- The change of name, if there is one. -/
  rename? : Option RenameRule
  /-- Files that have to be listed. -/
  addFiles : List String
  /-- Fields to set, in order. -/
  setFields : List (String × String)
  /-- Who may install the package. -/
  access : Access
  /-- The tag that will lead to the version. -/
  distTag : String
  /-- The tag that started the release, if it is known. -/
  tag? : Option String
  /-- Whether nothing is uploaded. -/
  dryRun : Bool
  /-- Whether the registry is asked for the version before an upload. -/
  checkExisting : Bool
  /-- How often an upload is tried again. -/
  networkRetries : UInt32
  deriving DecidableEq, Repr

namespace Settings

/-- The built-in settings. -/
def builtIn : Settings where
  artifactDirectory := ⟨"pkg"⟩
  manifestPath? := none
  registry := defaultRegistry
  tokenVariable := "NPM_TOKEN"
  rename? := none
  addFiles := []
  setFields := []
  access := .everyone
  distTag := "latest"
  tag? := none
  dryRun := false
  checkExisting := false
  networkRetries := 0

/-! ### What follows from settings -/

/-- The manifest that is read and changed. -/
def manifestPath (s : Settings) : Path :=
  s.manifestPath?.getD (s.artifactDirectory.join manifestName)

/-- The changes to the manifest: the name, then the list of files, then single fields. -/
def edits (s : Settings) : List Edit :=
  (s.rename?.toList.map fun rule => .rename rule.source rule.target) ++
    (if s.addFiles.isEmpty then [] else [.addFiles s.addFiles]) ++
    s.setFields.map fun (key, value) => .setField key value

/-- Where the package goes. -/
def target (s : Settings) : Except Failure Target := do
  let target ← Target.ofRegistry s.registry s.artifactDirectory
  return { target with manifestPath := s.manifestPath, access := s.access, distTag := s.distTag }

/-- How an upload is tried again. -/
def retryPolicy (s : Settings) : RetryPolicy := .withRetries s.networkRetries

/-! ### Checks -/

/-- The greatest number of further attempts at an upload. -/
def maxNetworkRetries : UInt32 := 10

/-- Checks the settings that have to fit together or stay in a range. -/
def validate (s : Settings) : Except Failure Unit := do
  let invalid (reason : String) : Except Failure Unit :=
    throw (.usage (.invalidArguments reason))
  if Text.isBlankText s.tokenVariable then
    invalid "token environment variable name must not be empty"
  if Text.isBlankText s.distTag then invalid "dist-tag must not be empty"
  if (Version.parse? s.distTag).isSome then
    invalid ("dist-tag '" ++ s.distTag ++ "' looks like a version")
  if s.rename?.any fun rule => rule.source.isEmpty || rule.target.isEmpty then
    invalid "rename requires non-empty 'from' and 'to'"
  if maxNetworkRetries < s.networkRetries then
    invalid ("network retries too high: " ++ Text.decimal s.networkRetries.toNat ++ " (max: " ++
      Text.decimal maxNetworkRetries.toNat ++ ")")

/-- Checks that the tag is one of a release, and gives the version it names, if it names one. -/
def checkTag (s : Settings) : Except Failure (Option Version) :=
  match s.tag? with
  | none => .ok none
  | some tag =>
    match tag.toList with
    | 'v' :: rest => .ok (Version.parse? (String.ofList rest))
    | _ => .error (.usage (.invalidTag tag))

end Settings

end PackageRelease
