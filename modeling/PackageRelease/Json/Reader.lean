import PackageRelease.Json.Token

/-! # Reading JSON

  The reader is an automaton over tokens. Its state is the list of containers that are open, the
  innermost first, and what may come next. One token is one step, so reading a text is a fold over
  its tokens, and a fault is found at the first token that does not fit.
-/

namespace PackageRelease.Json

/-- How many arrays and objects may be open at once. -/
def maxDepth : Nat := 127

/-! ### The automaton -/

/-- An open container that waits for a value. -/
inductive Frame where
  /-- An array with the items so far, the last one first. -/
  | items (done : List Json)
  /-- An object with the fields so far and the key of the value that is due. -/
  | member (done : Fields Json) (key : String)
  deriving Repr

/-- What may come next. -/
inductive Expect where
  /-- A value. -/
  | value
  /-- The first item of an array, or its end. -/
  | firstItem
  /-- A further item of an array. -/
  | item (done : List Json)
  /-- A comma or the end of an array. -/
  | itemEnd (done : List Json)
  /-- The first key of an object, or its end. -/
  | firstKey
  /-- A further key of an object. -/
  | key (done : Fields Json)
  /-- The colon behind a key. -/
  | colon (done : Fields Json) (key : String)
  /-- A comma or the end of an object. -/
  | fieldEnd (done : Fields Json)
  /-- Nothing: the value is complete. -/
  | nothing (result : Json)
  deriving Repr

/-- The state of the reader. -/
structure Reader where
  /-- The containers that wait for a value, the innermost first. -/
  frames : List Frame
  /-- What may come next. -/
  expect : Expect
  deriving Repr

namespace Reader

/-- Nothing is read yet. -/
def start : Reader := ⟨[], .value⟩

/-- Hands a finished value to the innermost container. -/
def deliver (frames : List Frame) (value : Json) : Reader :=
  match frames with
  | [] => ⟨[], .nothing value⟩
  | .items done :: rest => ⟨rest, .itemEnd (value :: done)⟩
  | .member done key :: rest => ⟨rest, .fieldEnd (done.set key value)⟩

/-- Takes the first token of a value. -/
def begin (frames : List Frame) : JsonToken → Except JsonError Reader
  | .scalar value => .ok (deliver frames value)
  | .text s => .ok (deliver frames (.string s))
  | .arrayOpen =>
    if frames.length < maxDepth then .ok ⟨frames, .firstItem⟩ else .error .nestedTooDeeply
  | .objectOpen =>
    if frames.length < maxDepth then .ok ⟨frames, .firstKey⟩ else .error .nestedTooDeeply
  | .badText fault => .error fault
  | .bad fault => .error fault
  | .arrayClose | .objectClose | .comma | .colon => .error .valueExpected

/-- One token moves the reader on or is a fault. -/
def step (reader : Reader) (token : JsonToken) : Except JsonError Reader :=
  let frames := reader.frames
  match reader.expect with
  | .value => begin frames token
  | .firstItem =>
    match token with
    | .arrayClose => .ok (deliver frames (.array []))
    | _ => begin (.items [] :: frames) token
  | .item done =>
    match token with
    | .arrayClose => .error .trailingComma
    | _ => begin (.items done :: frames) token
  | .itemEnd done =>
    match token with
    | .comma => .ok ⟨frames, .item done⟩
    | .arrayClose => .ok (deliver frames (.array done.reverse))
    | _ => .error .itemEndExpected
  | .firstKey =>
    match token with
    | .text key => .ok ⟨frames, .colon [] key⟩
    | .objectClose => .ok (deliver frames (.object []))
    | .badText fault => .error fault
    | _ => .error .keyNotString
  | .key done =>
    match token with
    | .text key => .ok ⟨frames, .colon done key⟩
    | .objectClose => .error .trailingComma
    | .badText fault => .error fault
    | _ => .error .keyNotString
  | .colon done key =>
    match token with
    | .colon => .ok ⟨.member done key :: frames, .value⟩
    | _ => .error .colonExpected
  | .fieldEnd done =>
    match token with
    | .comma => .ok ⟨frames, .key done⟩
    | .objectClose => .ok (deliver frames (.object done))
    | _ => .error .fieldEndExpected
  | .nothing _ => .error .trailingCharacters

/-- The value, if the text may end here. -/
def finish (reader : Reader) : Except JsonError Json :=
  match reader.expect with
  | .nothing result => .ok result
  | .value | .item _ | .key _ => .error .endInValue
  | .firstItem | .itemEnd _ => .error .endInArray
  | .firstKey | .colon _ _ | .fieldEnd _ => .error .endInObject

/-- Takes tokens one after the other. -/
def run (reader : Reader) (tokens : List JsonToken) : Except JsonError Reader :=
  tokens.foldlM step reader

end Reader

/-! ### The whole text -/

/-- The value that a list of characters denotes. -/
def parseChars (cs : List Char) : Except JsonError Json := do
  (← Reader.start.run (JsonToken.tokens cs)).finish

/-- The value that a text denotes. -/
def parse (text : String) : Except JsonError Json := parseChars text.toList

end PackageRelease.Json
