import PackageRelease.Number.Word
import PackageRelease.Settings.File
import PackageRelease.Terminal.Notice

/-! # Arguments

  What the user asks for on the command line: a command with its options, and options that every
  command has. They are the last layer of the settings, above the file and the built-in ones;
  options that a command does not have leave the layers below as they are.
-/

namespace PackageRelease

/-! ### What can be asked for -/

/-- Options for changing the manifest. -/
structure EditOptions where
  /-- The name that the package must have. -/
  renameFrom? : Option String
  /-- The name that it gets. -/
  renameTo? : Option String
  /-- Files that have to be listed. -/
  addFiles : List String
  /-- Fields to set, in order. -/
  setFields : List (String × String)
  deriving DecidableEq, Repr

/-- Options for an upload. -/
structure UploadOptions where
  /-- The variable that holds the token. -/
  tokenVariable? : Option String
  /-- Who may install the package. -/
  access? : Option Access
  /-- The tag that will lead to the version. -/
  distTag? : Option String
  /-- The tag that started the release. -/
  tag? : Option String
  /-- Whether nothing is uploaded. -/
  dryRun : Bool
  /-- Whether the registry is asked for the version before an upload. -/
  checkExisting : Bool
  /-- Whether a version that is there already counts as a success. -/
  allowExisting : Bool
  /-- How often an upload is tried again. -/
  networkRetries? : Option UInt32
  deriving DecidableEq, Repr

/-- A command with its options. -/
inductive Command where
  /-- Changes the manifest, packs the directory and uploads it. -/
  | publish (edits : EditOptions) (upload : UploadOptions)
  /-- Changes the manifest. -/
  | transform (edits : EditOptions)
  /-- Packs the directory into a file. -/
  | pack (out? : Option Path)
  /-- Asks whether the version is published. -/
  | status (asJson : Bool)
  deriving DecidableEq, Repr

/-- The word for a command. -/
def Command.name : Command → String
  | .publish _ _ => "publish"
  | .transform _ => "transform"
  | .pack _ => "pack"
  | .status _ => "status"

/-- Everything on the command line. -/
structure Arguments where
  /-- The settings file. -/
  configFile? : Option Path
  /-- The directory that is packed. -/
  artifactDirectory? : Option Path
  /-- The manifest. -/
  manifestPath? : Option Path
  /-- The address of the registry. -/
  registryAddress? : Option String
  /-- How much is to be shown. -/
  verbosity : Verbosity
  /-- The command. -/
  command : Command
  deriving DecidableEq, Repr

namespace Arguments

/-- The options for an upload, if the command makes one. -/
def upload? (a : Arguments) : Option UploadOptions :=
  match a.command with
  | .publish _ upload => some upload
  | _ => none

/-- The options for changing the manifest, if the command changes it. -/
def edits? (a : Arguments) : Option EditOptions :=
  match a.command with
  | .publish edits _ | .transform edits => some edits
  | _ => none

/-- Whether a version that is there already counts as a success. -/
def allowsExisting (a : Arguments) : Bool := a.upload?.any (·.allowExisting)

/-- Checks what has to fit together. -/
def validate (a : Arguments) : Except String Unit := do
  if a.artifactDirectory?.any (·.text.isEmpty) then throw "--artifact-dir must not be empty"
  if a.upload?.any fun upload => upload.allowExisting && upload.dryRun then
    throw "--allow-existing has no effect with --dry-run"

end Arguments

/-! ### Layers -/

/-- The variable that allows further attempts at an upload. -/
def retriesVariable : String := "KODEGEN_WASM_PUBLISH_RETRY_NETWORK"

/-- The number of further attempts that the environment allows: never more than the greatest
    one, and none if the variable is not a number. -/
def Environment.networkRetries (environment : Environment) : UInt32 :=
  match (environment.value? retriesVariable).map fun text =>
      Text.readInteger 0 (Word.greatest 32) (Text.trim text) with
  | some (.ok n) => min (UInt32.ofNat n.toNat) Settings.maxNetworkRetries
  | _ => 0

/-- Sets a field behind all others. -/
def setLast (fields : List (String × String)) (field : String × String) : List (String × String) :=
  fields.filter (·.1 ≠ field.1) ++ [field]

namespace Settings

/-- Settings with the options for changing the manifest on top. -/
def withEdits (s : Settings) (edits : EditOptions) : Except Failure Settings := do
  let rename? ← match edits.renameFrom?, edits.renameTo? with
    | some source, some target => pure (some ⟨source, target⟩)
    | none, none => pure s.rename?
    | _, _ => throw (.usage (.invalidArguments
        "--rename-from and --rename-to must be given together"))
  return { s with
    rename?
    addFiles := edits.addFiles.foldl Edit.addOnce s.addFiles
    setFields := edits.setFields.foldl setLast s.setFields }

/-- Settings with the options for an upload on top. -/
def withUpload (s : Settings) (upload : UploadOptions) : Settings :=
  { s with
    tokenVariable := upload.tokenVariable?.getD s.tokenVariable
    access := upload.access?.getD s.access
    distTag := upload.distTag?.getD s.distTag
    tag? := upload.tag?.or s.tag?
    networkRetries := upload.networkRetries?.getD s.networkRetries
    dryRun := s.dryRun || upload.dryRun
    checkExisting := s.checkExisting || upload.checkExisting }

end Settings

namespace Arguments

/-- The settings above which the command line is laid: the built-in ones, the environment and
    the settings file. -/
def below (environment : Environment) (file : FileSettings) : Settings :=
  { Settings.builtIn with networkRetries := environment.networkRetries }.overlay file

/-- All layers of settings. -/
def layer (a : Arguments) (environment : Environment) (file : FileSettings) :
    Except Failure Settings := do
  let s := below environment file
  let s := { s with
    artifactDirectory := a.artifactDirectory?.getD s.artifactDirectory
    manifestPath? := a.manifestPath?.or s.manifestPath?
    registry := a.registryAddress?.getD s.registry }
  let s ← match a.edits? with
    | some edits => s.withEdits edits
    | none => pure s
  return match a.upload? with
    | some upload => s.withUpload upload
    | none => s

/-- The settings file that the arguments name; without one it says nothing. -/
def readFile (a : Arguments) (files : FileSystem) : Except Failure FileSettings :=
  match a.configFile? with
  | some path => FileSettings.load files path
  | none => .ok {}

/-- The settings that the arguments ask for. -/
def settings (a : Arguments) (files : FileSystem) (environment : Environment) :
    Except Failure Settings := do
  a.layer environment (← a.readFile files)

end Arguments

end PackageRelease
