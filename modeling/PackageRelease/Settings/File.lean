import PackageRelease.FileSystem.Operations
import PackageRelease.Settings.Basic
import PackageRelease.Toml.Decode
import PackageRelease.Toml.Reader

/-! # Settings in a file

  A settings file is a TOML document whose fields stand for some of the settings. What it does not
  say stays as it was. Some fields have a second name.
-/

namespace PackageRelease

/-- What a settings file says. -/
structure FileSettings where
  /-- The directory that is packed. -/
  artifactDirectory? : Option Path := none
  /-- The manifest. -/
  manifestPath? : Option Path := none
  /-- The address of the registry. -/
  registryAddress? : Option String := none
  /-- The variable that holds the token. -/
  tokenVariable? : Option String := none
  /-- The change of name. -/
  rename? : Option RenameRule := none
  /-- Files that have to be listed. -/
  addFiles? : Option (List String) := none
  /-- Fields to set, in order. -/
  setFields? : Option (List (String × String)) := none
  /-- Who may install the package. -/
  access? : Option Access := none
  /-- The tag that will lead to the version. -/
  distTag? : Option String := none
  /-- Whether the registry is asked for the version before an upload. -/
  checkExisting? : Option Bool := none
  /-- How often an upload is tried again. -/
  networkRetries? : Option UInt32 := none
  deriving DecidableEq, Repr

/-! ### Values -/

/-- A change of name: a table with two strings, or an array that begins with two. -/
def RenameRule.ofToml (value : Toml) : Except TomlFault RenameRule := do
  match value, value.fields? with
  | .array items _, _ =>
    let pair := "struct RenameRule with 2 elements"
    match items with
    | [] => throw (.wrongLength 0 pair)
    | [source] =>
      discard source.text
      throw (.wrongLength 1 pair)
    | source :: target :: _ => return ⟨← source.text, ← target.text⟩
  | _, some fields =>
    let (source?, target?) ← fields.foldlM (fun (source?, target?) (key, value) => do
      match key with
      | "from" => return (some (← value.text), target?)
      | "to" => return (source?, some (← value.text))
      | _ =>
        value.forLeaves Toml.checkReadable
        return (source?, target?)) ((none, none) : Option String × Option String)
    match source?, target? with
    | none, _ => throw (.missingField "from")
    | some _, none => throw (.missingField "to")
    | some source, some target => return ⟨source, target⟩
  | value, none => value.refuse "struct RenameRule"

/-- The access level that a word stands for. -/
def Access.ofWord (word : String) : Except TomlFault Access :=
  match Access.ofName? word with
  | some access => .ok access
  | none => .error (.unknownChoice word [Access.everyone.name, Access.restricted.name])

/-- An access level: a word, or a table with the word as the key of something empty. -/
def Access.ofToml : Toml → Except TomlFault Access
  | .string word => Access.ofWord word
  | .table [(word, content)] _ => do
    let access ← Access.ofWord word
    match content with
    | .array [] _ | .table [] _ => return access
    | _ => throw .choiceNotEmpty
  | .table _ _ => throw .notOneChoice
  | _ => throw .noChoice

/-! ### Fields -/

namespace FileSettings

/-- A field of a settings file. -/
structure Field where
  /-- Its name. -/
  name : String
  /-- Its other names. -/
  otherNames : List String
  /-- Whether it has been read already. -/
  isSet : FileSettings → Bool
  /-- Reads its value. -/
  read : FileSettings → Toml → Except TomlFault FileSettings

/-- The fields of a settings file, in the order in which they are listed to the user. -/
def fields : List Field := [
  ⟨"artifact-dir", ["artifact_dir"], (·.artifactDirectory?.isSome),
    fun s v => return { s with artifactDirectory? := some ⟨← v.pathText⟩ }⟩,
  ⟨"manifest", [], (·.manifestPath?.isSome),
    fun s v => return { s with manifestPath? := some ⟨← v.pathText⟩ }⟩,
  ⟨"registry", [], (·.registryAddress?.isSome),
    fun s v => return { s with registryAddress? := some (← v.text) }⟩,
  ⟨"token-env", ["token_env"], (·.tokenVariable?.isSome),
    fun s v => return { s with tokenVariable? := some (← v.text) }⟩,
  ⟨"rename", [], (·.rename?.isSome),
    fun s v => return { s with rename? := some (← RenameRule.ofToml v) }⟩,
  ⟨"files", [], (·.addFiles?.isSome),
    fun s v => return { s with addFiles? := some (← v.texts) }⟩,
  ⟨"set", [], (·.setFields?.isSome),
    fun s v => return { s with setFields? := some (← v.namedTexts) }⟩,
  ⟨"access", [], (·.access?.isSome),
    fun s v => return { s with access? := some (← Access.ofToml v) }⟩,
  ⟨"dist-tag", ["dist_tag"], (·.distTag?.isSome),
    fun s v => return { s with distTag? := some (← v.text) }⟩,
  ⟨"check-existing", ["check_existing"], (·.checkExisting?.isSome),
    fun s v => return { s with checkExisting? := some (← v.truth) }⟩,
  ⟨"network-retries", ["network_retries"], (·.networkRetries?.isSome),
    fun s v => return { s with networkRetries? := some (← v.count32) }⟩]

/-- All names of a field. -/
def Field.names (field : Field) : List String := field.name :: field.otherNames

/-- Reads one field. -/
def take (s : FileSettings) (key : String) (value : Toml) : Except TomlFault FileSettings :=
  match fields.find? (key ∈ ·.names) with
  | none => .error (.unknownField key (fields.flatMap Field.names))
  | some field =>
    if field.isSet s then .error (.duplicateField field.name) else field.read s value

/-- What the fields of a document say. -/
def ofFields (document : Fields Toml) : Except TomlFault FileSettings :=
  document.foldlM (fun s (key, value) => s.take key value) {}

/-- What a text says. -/
def parse (text : String) : Except TomlFault FileSettings :=
  match Toml.parse? text with
  | none => .error .malformed
  | some document => ofFields document

/-- What a file says. -/
def load (files : FileSystem) (path : Path) : Except Failure FileSettings :=
  match files.readText path with
  | .error cause => .error (.usage (.unusableFile path cause.message))
  | .ok text =>
    match parse text with
    | .error fault => .error (.usage (.unusableFile path fault.report))
    | .ok s => .ok s

end FileSettings

/-- Settings with what a file says in place of their own values. -/
def Settings.overlay (s : Settings) (file : FileSettings) : Settings :=
  { s with
    artifactDirectory := file.artifactDirectory?.getD s.artifactDirectory
    manifestPath? := file.manifestPath?.or s.manifestPath?
    registry := file.registryAddress?.getD s.registry
    tokenVariable := file.tokenVariable?.getD s.tokenVariable
    rename? := file.rename?.or s.rename?
    addFiles := file.addFiles?.getD s.addFiles
    setFields := file.setFields?.getD s.setFields
    access := file.access?.getD s.access
    distTag := file.distTag?.getD s.distTag
    checkExisting := file.checkExisting?.getD s.checkExisting
    networkRetries := file.networkRetries?.getD s.networkRetries }

end PackageRelease
