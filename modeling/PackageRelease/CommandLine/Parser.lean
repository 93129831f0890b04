import PackageRelease.CommandLine.Option

/-! # Reading the command line

  A level of the command line is read word by word. An option with a value stays open until the
  next option begins or the words end; only then its value is checked. Behind the words of a level
  come the variables that stand in for missing options, and then the checks between options.

  The words behind a command are read and checked completely before the level of the program is
  finished. An option that stands on both levels has the value behind the command, unless only the
  other one was really given and not taken from a variable.
-/

namespace PackageRelease

/-! ### Words -/

/-- What a word of the command line looks like. -/
inductive Word where
  /-- Two dashes: nothing behind them is an option. -/
  | dashes
  /-- An option with its name, and a value behind an equals sign. -/
  | long (name : String) (value? : Option String)
  /-- Letters behind a single dash. -/
  | letters (cs : List Char)
  /-- Anything else. -/
  | plain
  deriving DecidableEq, Repr

/-- What a word looks like. -/
def Word.ofText (text : String) : Word :=
  match text.toList with
  | ['-', '-'] => .dashes
  | '-' :: '-' :: rest =>
    match Text.splitOnce? '=' rest with
    | some (name, value) => .long (String.ofList name) (some (String.ofList value))
    | none => .long (String.ofList rest) none
  | '-' :: c :: rest => .letters (c :: rest)
  | _ => .plain

/-! ### What was given -/

/-- Where the value of an option comes from; the command line is stronger. -/
inductive Origin where
  | environment
  | commandLine
  deriving DecidableEq, Repr

/-- The value of an option. -/
structure Given where
  /-- The option. -/
  option : ValueOption
  /-- Where its value comes from. -/
  origin : Origin
  /-- The value. -/
  value : String
  deriving DecidableEq, Repr

/-- What was given on one level. -/
structure LevelContent where
  /-- The options without a value. -/
  switches : List Switch := []
  /-- The options with a value, in order. -/
  values : List Given := []
  deriving DecidableEq, Repr

namespace LevelContent

/-- What was given for an option. -/
def find? (content : LevelContent) (option : ValueOption) : Option Given :=
  content.values.find? (·.option = option)

/-- The value of an option. -/
def value? (content : LevelContent) (option : ValueOption) : Option String :=
  (content.find? option).map (·.value)

/-- All values of an option, in order. -/
def allValues (content : LevelContent) (option : ValueOption) : List String :=
  (content.values.filter (·.option = option)).map (·.value)

/-- Whether an option without a value was given. -/
def has (content : LevelContent) (switch : Switch) : Bool := switch ∈ content.switches

/-- Adds a value of an option. -/
def addValue (content : LevelContent) (origin : Origin) (option : ValueOption) (value : String) :
    Except ArgumentFault LevelContent := do
  if (content.find? option).isSome && !option.isRepeatable then throw (.conflict option.name)
  option.check value
  return { content with values := content.values ++ [⟨option, origin, value⟩] }

/-- Adds an option without a value. -/
def addSwitch (content : LevelContent) (switch : Switch) : Except ArgumentFault LevelContent :=
  match switch with
  | .help => .error .helpWanted
  | .version => .error .versionWanted
  | switch =>
    if content.has switch then .error (.conflict switch.name)
    else .ok { content with switches := content.switches ++ [switch] }

end LevelContent

/-! ### Reading one level -/

/-- The state of reading a level. -/
structure LevelReader where
  /-- The level. -/
  level : ArgumentLevel
  /-- What was given so far. -/
  content : LevelContent
  /-- The option that is open, with its value once it has come. -/
  open? : Option (ValueOption × Option String)
  /-- Whether two dashes have come. -/
  behindDashes : Bool

namespace LevelReader

/-- Nothing is read yet. -/
def start (level : ArgumentLevel) : LevelReader := ⟨level, {}, none, false⟩

/-- Whether the next word would be the value of the open option. -/
def awaitsValue (reader : LevelReader) : Bool := reader.open?.any (·.2.isNone)

/-- Closes the open option. -/
def close (reader : LevelReader) : Except ArgumentFault LevelReader :=
  match reader.open? with
  | none => .ok reader
  | some (option, none) => .error (.valueMissing option.name)
  | some (option, some value) => do
    let content ← reader.content.addValue .commandLine option value
    return { reader with content, open? := none }

/-- Takes an option with its name. -/
def takeLong (reader : LevelReader) (name : String) (value? : Option String) :
    Except ArgumentFault LevelReader :=
  match reader.level.valueOption? name, reader.level.switch? name, value? with
  | some option, _, some value => do
    let reader ← reader.close
    return { reader with content := ← reader.content.addValue .commandLine option value }
  | some option, _, none => do return { ← reader.close with open? := some (option, none) }
  | none, some switch, some _ => .error (.valueUnexpected switch.name)
  | none, some switch, none => do
    let reader ← reader.close
    return { reader with content := ← reader.content.addSwitch switch }
  | none, none, _ => .error (.wordUnexpected ("--" ++ name))

/-- Takes letters behind a single dash one after the other. -/
def takeLetters (reader : LevelReader) : List Char → Except ArgumentFault LevelReader
  | [] => .ok reader
  | c :: cs =>
    match reader.level.letter? c with
    | none => .error (.wordUnexpected ("-" ++ String.ofList [c]))
    | some switch => do
      let reader ← reader.close
      let content ← reader.content.addSwitch switch
      takeLetters { reader with content } cs

/-- The fault for a word that has no place. -/
def stray (reader : LevelReader) (word : String) : ArgumentFault :=
  match reader.level with
  | .command _ => .wordUnexpected word
  | .program =>
    if reader.behindDashes && (word = helpWord || (CommandName.ofWord? word).isSome) then
      .wordUnexpected word
    else .commandUnknown word

/-- Takes a word that is no command. -/
def take (reader : LevelReader) (word : String) : Except ArgumentFault LevelReader :=
  if reader.behindDashes then .error (reader.stray word)
  else match Word.ofText word with
    | .dashes => .ok { reader with behindDashes := true }
    | .long name value? => reader.takeLong name value?
    | .letters cs => reader.takeLetters cs
    | .plain =>
      match reader.open? with
      | some (option, none) => .ok { reader with open? := some (option, some word) }
      | _ => .error (reader.stray word)

/-- Fills in the variables that stand for options which are not given. -/
def addVariables (environment : Environment) :
    List ValueOption → LevelContent → Except ArgumentFault LevelContent
  | [], content => .ok content
  | option :: rest, content => do
    match option.substitute?.bind environment.value?, content.find? option with
    | some value, none => addVariables environment rest (← content.addValue .environment option value)
    | _, _ => addVariables environment rest content

/-- Checks what has to fit together on a level. -/
def checkTogether (content : LevelContent) : Except ArgumentFault Unit := do
  if content.has .verbose && content.has .quiet then throw (.conflict Switch.quiet.name)
  for given in content.values do
    match given.option.partner? with
    | some partner =>
      if (content.find? partner).isNone then throw (.partnerMissing partner.name)
    | none => pure ()

/-- Everything that was given on a level, when its words are over. -/
def finish (reader : LevelReader) (environment : Environment) :
    Except ArgumentFault LevelContent := do
  let reader ← reader.close
  addVariables environment reader.level.valueOptions reader.content

end LevelReader

/-! ### Both levels -/

/-- What was given behind a command. -/
def readCommandWords (environment : Environment) (name : CommandName) (words : List String) :
    Except ArgumentFault LevelContent := do
  let reader ← words.foldlM LevelReader.take (LevelReader.start (.command name))
  let content ← reader.finish environment
  LevelReader.checkTogether content
  return content

/-- The fault that stands for a request for help with the given words behind it. -/
def helpFault : List String → ArgumentFault
  | [] => .helpWanted
  | [word] =>
    if word = helpWord || (CommandName.ofWord? word).isSome then .helpWanted
    else .commandUnknown word
  | word :: next :: _ =>
    if word = helpWord || (CommandName.ofWord? word).isSome then .commandUnknown next
    else .commandUnknown word

/-- The words of the program up to the command, and the words behind it. -/
def readProgramWords : List String → LevelReader →
    Except ArgumentFault (LevelReader × Option (CommandName × List String))
  | [], reader => .ok (reader, none)
  | word :: rest, reader =>
    if reader.behindDashes || reader.awaitsValue then do
      readProgramWords rest (← reader.take word)
    else if word = helpWord then .error (helpFault rest)
    else match CommandName.ofWord? word with
      | some name => .ok (reader, some (name, rest))
      | none => do readProgramWords rest (← reader.take word)

/-- The value of an option that may stand on both levels. -/
def sharedValue? (program command : LevelContent) (option : ValueOption) : Option String :=
  match program.find? option, command.find? option with
  | some outer, some inner =>
    if outer.origin = .commandLine ∧ inner.origin = .environment then some outer.value
    else some inner.value
  | outer?, inner? => (inner?.or outer?).map (·.value)

/-- The options for changing the manifest. -/
def EditOptions.ofContent (content : LevelContent) : EditOptions where
  renameFrom? := content.value? .renameFrom
  renameTo? := content.value? .renameTo
  addFiles := content.allValues .addFile
  setFields := (content.allValues .set).filterMap fun value => (readField value).toOption

/-- The options for an upload. -/
def UploadOptions.ofContent (content : LevelContent) : UploadOptions where
  tokenVariable? := content.value? .tokenVariable
  access? := (content.value? .access).bind Access.ofName?
  distTag? := content.value? .distTag
  tag? := content.value? .tag
  dryRun := content.has .dryRun
  checkExisting := content.has .checkExisting
  allowExisting := content.has .allowExisting
  networkRetries? := (content.value? .networkRetries).bind fun value => (readRetries value).toOption

/-- A command with what was given behind it. -/
def Command.ofContent (name : CommandName) (content : LevelContent) : Command :=
  match name with
  | .publish => .publish (.ofContent content) (.ofContent content)
  | .transform => .transform (.ofContent content)
  | .pack => .pack ((content.value? .out).map Path.mk)
  | .status => .status (content.has .json)

/-- The arguments that were given on both levels. -/
def Arguments.ofContents (name : CommandName) (program command : LevelContent) : Arguments where
  configFile? := (sharedValue? program command .config).map Path.mk
  artifactDirectory? := (sharedValue? program command .artifactDirectory).map Path.mk
  manifestPath? := (sharedValue? program command .manifest).map Path.mk
  registryAddress? := sharedValue? program command .registry
  verbosity := ⟨program.has .verbose || command.has .verbose,
    program.has .quiet || command.has .quiet⟩
  command := .ofContent name command

/-- The arguments that words ask for. -/
def Arguments.parse (environment : Environment) (words : List String) :
    Except ArgumentFault Arguments := do
  let (reader, command?) ← readProgramWords words (LevelReader.start .program)
  match command? with
  | some (name, rest) =>
    let command ← readCommandWords environment name rest
    let program ← reader.finish environment
    LevelReader.checkTogether program
    return .ofContents name program command
  | none =>
    let program ← reader.finish environment
    throw (if program = {} then .nothingWanted else .commandMissing)

end PackageRelease
