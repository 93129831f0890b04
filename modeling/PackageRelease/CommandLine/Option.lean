import PackageRelease.CommandLine.Arguments
import PackageRelease.Number.Word

/-! # Options

  Which options there are, on which level of the command line they may stand, and which values
  they take. The options of the program may also stand behind a command.
-/

namespace PackageRelease

/-! ### What can go wrong -/

/-- Why a command line cannot be followed. Asking for help or for the version ends it too. -/
inductive ArgumentFault where
  /-- Help is asked for. -/
  | helpWanted
  /-- The version is asked for. -/
  | versionWanted
  /-- Nothing is asked for at all. -/
  | nothingWanted
  /-- No command is given. -/
  | commandMissing
  /-- A word in the place of a command is none. -/
  | commandUnknown (word : String)
  /-- A word has no meaning where it stands. -/
  | wordUnexpected (word : String)
  /-- An option that takes no value has one. -/
  | valueUnexpected (option : String)
  /-- An option is given twice, or together with one that excludes it. -/
  | conflict (option : String)
  /-- An option has no value or an empty one. -/
  | valueMissing (option : String)
  /-- A value is none of the choices. -/
  | valueUnknown (option value : String)
  /-- A value cannot be read. -/
  | valueRefused (option reason : String)
  /-- An option needs another one. -/
  | partnerMissing (option : String)
  deriving DecidableEq, Repr

namespace ArgumentFault

/-- The wording of a fault. -/
def message : ArgumentFault → String
  | .helpWanted => "help was asked for"
  | .versionWanted => "the version was asked for"
  | .nothingWanted | .commandMissing => "a command is needed"
  | .commandUnknown word => "unrecognized command '" ++ word ++ "'"
  | .wordUnexpected word => "unexpected argument '" ++ word ++ "'"
  | .valueUnexpected option => "option --" ++ option ++ " takes no value"
  | .conflict option => "option --" ++ option ++ " cannot be used here"
  | .valueMissing option => "option --" ++ option ++ " needs a value"
  | .valueUnknown option value => "invalid value '" ++ value ++ "' for option --" ++ option
  | .valueRefused option reason => "invalid value for option --" ++ option ++ ": " ++ reason
  | .partnerMissing option => "option --" ++ option ++ " is missing"

/-- What a value parser had to say. -/
def reason? : ArgumentFault → Option String
  | .valueRefused _ reason => some reason
  | _ => none

/-- The exit code of the program: asking for help or for the version is no error. -/
def exitCode : ArgumentFault → Nat
  | .helpWanted | .versionWanted => 0
  | _ => 2

end ArgumentFault

/-! ### Options with a value -/

/-- An option that takes a value. -/
inductive ValueOption where
  | config
  | artifactDirectory
  | manifest
  | registry
  | renameFrom
  | renameTo
  | addFile
  | set
  | tokenVariable
  | access
  | distTag
  | tag
  | networkRetries
  | out
  deriving DecidableEq, Repr

namespace ValueOption

/-- The name of an option behind its dashes. -/
def name : ValueOption → String
  | .config => "config"
  | .artifactDirectory => "artifact-dir"
  | .manifest => "manifest"
  | .registry => "registry"
  | .renameFrom => "rename-from"
  | .renameTo => "rename-to"
  | .addFile => "add-file"
  | .set => "set"
  | .tokenVariable => "token-env"
  | .access => "access"
  | .distTag => "dist-tag"
  | .tag => "tag"
  | .networkRetries => "network-retries"
  | .out => "out"

/-- Whether an option may be given several times. -/
def isRepeatable : ValueOption → Bool
  | .addFile | .set => true
  | _ => false

/-- The variable that gives the value of an option when the command line does not. -/
def substitute? : ValueOption → Option String
  | .config => some "KODEGEN_WASM_PUBLISH_CONFIG"
  | .tag => some "KODEGEN_WASM_PUBLISH_TAG"
  | _ => none

/-- The option that an option needs. -/
def partner? : ValueOption → Option ValueOption
  | .renameFrom => some .renameTo
  | .renameTo => some .renameFrom
  | _ => none

end ValueOption

/-- A key and a value with an equals sign between them. White space around the key is left out. -/
def readField (text : String) : Except String (String × String) :=
  match Text.splitOnce? '=' text.toList with
  | none => .error ("expected KEY=VALUE, got '" ++ text ++ "'")
  | some (key, value) =>
    let key := Text.trim (String.ofList key)
    if key.isEmpty then .error ("empty key in '" ++ text ++ "'")
    else .ok (key, String.ofList value)

/-- A number of further attempts: read with 64 bits, then kept to 32 without a sign. -/
def readRetries (text : String) : Except String UInt32 :=
  match Text.readInteger (Word.leastSigned 64) (Word.greatestSigned 64) text with
  | .error fault => .error fault.message
  | .ok n =>
    if Word.holds 32 n then .ok (UInt32.ofNat n.toNat)
    else .error (Text.decimalInt n ++ " is not in 0..=4294967295")

/-- Checks the value of an option. -/
def ValueOption.check (option : ValueOption) (value : String) : Except ArgumentFault Unit :=
  match option with
  | .config | .artifactDirectory | .manifest | .out =>
    if value.isEmpty then .error (.valueMissing option.name) else .ok ()
  | .access =>
    if (Access.ofName? value).isSome then .ok () else .error (.valueUnknown option.name value)
  | .set =>
    match readField value with
    | .ok _ => .ok ()
    | .error reason => .error (.valueRefused option.name reason)
  | .networkRetries =>
    match readRetries value with
    | .ok _ => .ok ()
    | .error reason => .error (.valueRefused option.name reason)
  | .registry | .renameFrom | .renameTo | .addFile | .tokenVariable | .distTag | .tag => .ok ()

/-! ### Options without a value -/

/-- An option that takes no value. -/
inductive Switch where
  | verbose
  | quiet
  | dryRun
  | checkExisting
  | allowExisting
  | json
  | help
  | version
  deriving DecidableEq, Repr

namespace Switch

/-- The name of an option behind its dashes. -/
def name : Switch → String
  | .verbose => "verbose"
  | .quiet => "quiet"
  | .dryRun => "dry-run"
  | .checkExisting => "check-existing"
  | .allowExisting => "allow-existing"
  | .json => "json"
  | .help => "help"
  | .version => "version"

/-- The letter of an option behind a single dash. -/
def letter? : Switch → Option Char
  | .verbose => some 'v'
  | .quiet => some 'q'
  | .help => some 'h'
  | .version => some 'V'
  | _ => none

end Switch

/-! ### Levels -/

/-- A command without its options. -/
inductive CommandName where
  | publish
  | transform
  | pack
  | status
  deriving DecidableEq, Repr

namespace CommandName

/-- All commands. -/
def all : List CommandName := [.publish, .transform, .pack, .status]

/-- The word for a command. -/
def word : CommandName → String
  | .publish => "publish"
  | .transform => "transform"
  | .pack => "pack"
  | .status => "status"

/-- The command that a word stands for. -/
def ofWord? (text : String) : Option CommandName := all.find? (·.word = text)

end CommandName

/-- The word that asks for help in the place of a command. -/
def helpWord : String := "help"

/-- A part of the command line: up to the command, or behind it. -/
inductive ArgumentLevel where
  | program
  | command (name : CommandName)
  deriving DecidableEq, Repr

namespace ArgumentLevel

/-- The options with a value that may stand on every level. -/
def sharedOptions : List ValueOption := [.config, .artifactDirectory, .manifest, .registry]

/-- The options for changing the manifest. -/
def editOptions : List ValueOption := [.renameFrom, .renameTo, .addFile, .set]

/-- The options with a value on a level. -/
def valueOptions : ArgumentLevel → List ValueOption
  | .program => sharedOptions
  | .command .publish => editOptions ++
    [.tokenVariable, .access, .distTag, .tag, .networkRetries] ++ sharedOptions
  | .command .transform => editOptions ++ sharedOptions
  | .command .pack => .out :: sharedOptions
  | .command .status => sharedOptions

/-- The options without a value on a level. -/
def switches : ArgumentLevel → List Switch
  | .program => [.verbose, .quiet, .help, .version]
  | .command .publish =>
    [.dryRun, .checkExisting, .allowExisting, .verbose, .quiet, .help]
  | .command .status => [.json, .verbose, .quiet, .help]
  | .command _ => [.verbose, .quiet, .help]

/-- The option with a value that a name stands for. -/
def valueOption? (level : ArgumentLevel) (name : String) : Option ValueOption :=
  level.valueOptions.find? (·.name = name)

/-- The option without a value that a name stands for. -/
def switch? (level : ArgumentLevel) (name : String) : Option Switch :=
  level.switches.find? (·.name = name)

/-- The option without a value that a letter stands for. -/
def letter? (level : ArgumentLevel) (letter : Char) : Option Switch :=
  level.switches.find? (·.letter? = some letter)

end ArgumentLevel

end PackageRelease
