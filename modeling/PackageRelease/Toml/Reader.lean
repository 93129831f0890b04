import PackageRelease.Toml.Scalar
import PackageRelease.Toml.Table
import PackageRelease.Toml.Token

/-! # Reading TOML

  The reader is an automaton over tokens. Its state is the list of values that are under way, the
  innermost first, what may come next, and the statements so far: headers and assignments. One
  token is one step, so reading a text is a fold over its tokens. The statements then build the
  table of the document.
-/

namespace PackageRelease.Toml

/-- How many arrays and inline tables may be open at once. -/
def maxDepth : Nat := 80

/-! ### Statements -/

/-- A key: the parts in front of the last dot, and the last part. -/
structure Key where
  /-- The parts in front of the last dot. -/
  path : List String
  /-- The last part. -/
  last : String
  deriving DecidableEq, Repr

/-- What a line of a document says. -/
inductive Statement where
  /-- The following assignments go into a table. -/
  | header (key : Key)
  /-- The following assignments go into a further item of an array. -/
  | itemHeader (key : Key)
  /-- A value for a key. -/
  | assignment (key : Key) (value : Toml)
  deriving Repr

/-! ### The automaton -/

/-- What a key is for. -/
inductive KeyUse where
  /-- A header. -/
  | header
  /-- A header with two brackets. -/
  | itemHeader
  /-- An assignment on a line of its own. -/
  | line
  /-- A field of an inline table, behind those so far. -/
  | member (done : Fields Toml)
  deriving Repr

/-- Something that waits for a value. -/
inductive Frame where
  /-- An assignment on a line of its own. -/
  | line (key : Key)
  /-- An array with the items so far, the last one first. -/
  | items (done : List Toml)
  /-- An inline table with the fields so far and the key of the value that is due. -/
  | member (done : Fields Toml) (key : Key)
  deriving Repr

/-- What may come next. -/
inductive Expect where
  /-- A statement or the end of the line. -/
  | statement
  /-- A second bracket directly, or the first part of the key of a header. -/
  | header
  /-- A part of a key; the parts so far, the last one first. -/
  | keyPart (use : KeyUse) (parts : List String)
  /-- A dot or what ends a key; the parts so far, the last one first. -/
  | keyEnd (use : KeyUse) (path : List String) (last : String)
  /-- The second bracket directly behind the first. -/
  | headerClose (key : Key)
  /-- The end of the line. -/
  | lineEnd
  /-- A value. -/
  | value
  /-- An item of an array, or its end. -/
  | item (done : List Toml)
  /-- A comma or the end of an array. -/
  | itemEnd (done : List Toml)
  /-- A key of an inline table, or its end. -/
  | member (done : Fields Toml)
  /-- A comma or the end of an inline table. -/
  | memberEnd (done : Fields Toml)
  /-- More of a value without quotes. -/
  | word (letters : List Char)
  /-- A time behind a date and a space. -/
  | gap (letters : List Char)
  deriving Repr

/-- The state of the reader. -/
structure Reader where
  /-- What waits for a value, the innermost first. -/
  frames : List Frame
  /-- What may come next. -/
  expect : Expect
  /-- The statements so far, the last one first. -/
  statements : List Statement
  deriving Repr

namespace Reader

/-- Nothing is read yet. -/
def start : Reader := ⟨[], .statement, []⟩

/-- Goes on with something else. -/
def await (reader : Reader) (expect : Expect) : Option Reader := some { reader with expect }

/-- Takes a statement down. -/
def state (reader : Reader) (statement : Statement) : Option Reader :=
  some ⟨[], .lineEnd, statement :: reader.statements⟩

/-- Hands a finished value to what waits for it. -/
def deliver (reader : Reader) (value : Toml) : Option Reader :=
  match reader.frames with
  | [] => none
  | .line key :: _ => reader.state (.assignment key value)
  | .items done :: rest => some { reader with frames := rest, expect := .itemEnd (value :: done) }
  | .member done key :: rest => do
    let (done, _) ← assign key.path key.last value (done, .braced)
    return { reader with frames := rest, expect := .memberEnd done }

/-! ### Keys -/

/-- The part of a key that a token is. -/
def keyPart? : TomlToken → Option String
  | .text s => some s
  | .word letters => if isBareKey letters then some (String.ofList letters) else none
  | _ => none

/-- Takes a part of a key. -/
def takeKeyPart (reader : Reader) (use : KeyUse) (parts : List String) (token : TomlToken) :
    Option Reader := do
  reader.await (.keyEnd use parts (← keyPart? token))

/-- Takes what follows a key. -/
def endKey (reader : Reader) (use : KeyUse) (key : Key) (token : TomlToken) : Option Reader :=
  match use, token with
  | .header, .bracketClose => reader.state (.header key)
  | .itemHeader, .bracketClose => reader.await (.headerClose key)
  | .line, .equals => some { reader with frames := [.line key], expect := .value }
  | .member done, .equals =>
    some { reader with frames := .member done key :: reader.frames, expect := .value }
  | _, _ => none

/-! ### Values -/

/-- Whether a further array or inline table may be opened. -/
def canOpen (reader : Reader) : Bool := reader.frames.length ≤ maxDepth

/-- Takes the first token of a value. -/
def begin (reader : Reader) : TomlToken → Option Reader
  | .text s | .longText s => reader.deliver (.string s)
  | .word letters => reader.await (.word letters)
  | .bracketOpen => if reader.canOpen then reader.await (.item []) else none
  | .braceOpen => if reader.canOpen then reader.await (.member []) else none
  | _ => none

/-- Whether a token is nothing but a blank. -/
def isBlank : TomlToken → Bool
  | .space | .blank => true
  | _ => false

/-- One token behind a finished value or in a place without one. -/
def stepOutside (reader : Reader) (token : TomlToken) : Option Reader :=
  match reader.expect with
  | .statement =>
    match token with
    | .lineEnd | .space | .blank => some reader
    | .bracketOpen => reader.await .header
    | _ => reader.takeKeyPart .line [] token
  | .header =>
    match token with
    | .bracketOpen => reader.await (.keyPart .itemHeader [])
    | .space | .blank => reader.await (.keyPart .header [])
    | _ => reader.takeKeyPart .header [] token
  | .keyPart use parts => if isBlank token then some reader else reader.takeKeyPart use parts token
  | .keyEnd use path last =>
    match token with
    | .space | .blank => some reader
    | .dot => reader.await (.keyPart use (path ++ [last]))
    | _ => reader.endKey use ⟨path, last⟩ token
  | .headerClose key =>
    match token with
    | .bracketClose => reader.state (.itemHeader key)
    | _ => none
  | .lineEnd =>
    match token with
    | .space | .blank => some reader
    | .lineEnd => reader.await .statement
    | _ => none
  | .value => if isBlank token then some reader else reader.begin token
  | .item done =>
    match token with
    | .space | .blank | .lineEnd => some reader
    | .bracketClose => reader.deliver (.array done.reverse false)
    | _ => { reader with frames := .items done :: reader.frames }.begin token
  | .itemEnd done =>
    match token with
    | .space | .blank | .lineEnd => some reader
    | .comma => reader.await (.item done)
    | .bracketClose => reader.deliver (.array done.reverse false)
    | _ => none
  | .member done =>
    match token with
    | .space | .blank | .lineEnd => some reader
    | .braceClose => reader.deliver (.table done .braced)
    | _ => reader.takeKeyPart (.member done) [] token
  | .memberEnd done =>
    match token with
    | .space | .blank | .lineEnd => some reader
    | .comma => reader.await (.member done)
    | .braceClose => reader.deliver (.table done .braced)
    | _ => none
  | .word _ | .gap _ => none

/-- Ends a value without quotes. -/
def endWord (reader : Reader) (letters : List Char) : Option Reader := do
  reader.deliver (← ofWord? letters)

/-- One token moves the reader on or is a fault. -/
def step (reader : Reader) (token : TomlToken) : Option Reader :=
  match reader.expect, token with
  | .word letters, .word more => reader.await (.word (letters ++ more))
  | .word letters, .dot => reader.await (.word (letters ++ ['.']))
  | .word letters, .space =>
    if isDate letters then reader.await (.gap letters)
    else reader.endWord letters
  | .gap letters, .word more =>
    if more.head?.any Text.isDigit then reader.await (.word (letters ++ ' ' :: more)) else none
  | .word letters, token | .gap letters, token => do
    (← reader.endWord letters).stepOutside token
  | _, token => reader.stepOutside token

/-- Takes tokens one after the other. -/
def run (reader : Reader) (tokens : List TomlToken) : Option Reader := tokens.foldlM step reader

/-- The statements, if the text may end here. -/
def finish (reader : Reader) : Option (List Statement) := do
  let reader ← reader.step .lineEnd
  match reader.expect with
  | .statement => some reader.statements.reverse
  | _ => none

end Reader

/-! ### The whole text -/

/-- Fills a table with the assignments up to the next header, and gives the statements behind
    them. -/
def fill : List Statement → Place → Option Place
  | .assignment key value :: rest, place => do fill rest (← assign key.path key.last value place)
  | _, place => some place

/-- The table that statements describe, given what stands above their first header. A statement
    that is no header belongs to the header before it. -/
def build : List Statement → Place → Option Place
  | [], place => some place
  | .header key :: rest, place => do
    build rest (← modifyAt false (fillTable key.last (fill rest)) key.path place)
  | .itemHeader key :: rest, place => do
    build rest (← modifyAt false (fillItem key.last (fill rest)) key.path place)
  | .assignment _ _ :: rest, place => build rest place

/-- The fields of a document; nothing if the text is no TOML. -/
def parse? (text : String) : Option (Fields Toml) := do
  let reader ← Reader.start.run (TomlToken.tokens text.toList)
  let statements ← reader.finish
  let (fields, _) ← build statements (← fill statements ([], .headed))
  return fields

end PackageRelease.Toml
