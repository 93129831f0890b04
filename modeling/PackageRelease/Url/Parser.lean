import PackageRelease.Url.Basic

/-! # Reading a web address

  Control characters and blanks around an address, and tabs and line breaks inside it, do not
  count. Any number of slashes may stand behind the scheme, and a backslash is as good as a slash.
  `.` and `..` in the path are resolved.

  Addresses under other schemes are read as far as to tell whether they are well formed.
-/

namespace PackageRelease.Url

/-! ### Pieces -/

/-- Whether a character is dropped at both ends. -/
def isPadding (c : Char) : Bool := c.toNat ≤ 0x20

/-- Whether a character is dropped everywhere. -/
def isIgnored (c : Char) : Bool := c = '\t' || c = '\n' || c = '\r'

/-- The characters that count. -/
def significant (text : String) : List Char :=
  (Text.stripWhere isPadding text.toList).filter fun c => !isIgnored c

/-- Whether a character may stand in a scheme behind its first letter. -/
def isSchemeChar (c : Char) : Bool :=
  Text.isLetter c || Text.isDigit c || c = '+' || c = '-' || c = '.'

/-- The scheme in small letters, and what follows its colon. -/
def splitScheme? (cs : List Char) : Option (String × List Char) := do
  let (scheme, rest) ← Text.splitOnce? ':' cs
  guard (scheme.head?.any Text.isLetter && scheme.all isSchemeChar)
  return (Text.lower (String.ofList scheme), rest)

/-- Whether a character ends the part with user, host and port. Under a special scheme a backslash
    does so too. -/
def endsAuthority (special : Bool) (c : Char) : Bool :=
  c = '/' || c = '?' || c = '#' || (special && c = '\\')

/-- Splits at the last `@`. -/
def splitUserInfo? (authority : List Char) : Option (List Char × List Char) :=
  (Text.splitOnce? '@' authority.reverse).map fun (after, before) => (before.reverse, after.reverse)

/-- The host, up to a colon that does not stand in brackets, and what follows it. -/
def splitHost : (inBrackets : Bool) → List Char → List Char × List Char
  | _, [] => ([], [])
  | inBrackets, c :: cs =>
    if c = ':' ∧ !inBrackets then ([], c :: cs)
    else
      let (host, rest) := splitHost (c = '[' || (inBrackets && c ≠ ']')) cs
      (c :: host, rest)

/-- The port behind a colon: nothing if no digit is there. -/
def parsePort (digits : List Char) : Except UrlFault (Option Nat) :=
  if digits.isEmpty then .ok none
  else if digits.all Text.isDigit ∧ Text.digitsValue digits < 65536 then
    .ok (some (Text.digitsValue digits))
  else .error .invalidPort

/-! ### Paths -/

/-- Whether a segment means the directory itself. -/
def isCurrent (segment : List Char) : Bool :=
  [['.'], ['%', '2', 'e']].contains (segment.map Text.lowerChar)

/-- Whether a segment means the directory above. -/
def isParent (segment : List Char) : Bool :=
  [['.', '.'], ['%', '2', 'e', '.'], ['.', '%', '2', 'e'], ['%', '2', 'e', '%', '2', 'e']].contains
    (segment.map Text.lowerChar)

/-- Whether a segment is a drive letter, which is never left again. -/
def isDrive : List Char → Bool
  | [c, ':'] | [c, '|'] => Text.isLetter c
  | _ => false

/-- The directories without the last one. -/
def leave (directories : List (List Char)) : List (List Char) :=
  if directories.getLast?.any isDrive then directories else directories.dropLast

/-- Resolves encoded segments behind the directories seen so far. The last segment is empty if the
    path ends in a directory. -/
def resolve (directories : List (List Char)) : List (List Char) → List (List Char)
  | [] => directories ++ [[]]
  | [last] =>
    if isParent last then leave directories ++ [[]]
    else if isCurrent last then directories ++ [[]]
    else directories ++ [last]
  | segment :: rest =>
    if isParent segment then resolve (leave directories) rest
    else if isCurrent segment then resolve directories rest
    else resolve (directories ++ [segment]) rest

/-- The normal form of a path. -/
def normalPath (cs : List Char) : String :=
  let cs := match cs with
    | '/' :: rest | '\\' :: rest => rest
    | cs => cs
  let segments := (Text.splitWhere (fun c => c = '/' || c = '\\') cs).map
    (Percent.encode Percent.inPath)
  String.ofList ((resolve [] segments).flatMap fun segment => '/' :: segment)

/-! ### The whole address -/

/-- The parts in front of the path. -/
structure Authority where
  /-- The user name, encoded. -/
  userName : String
  /-- The password, encoded. -/
  password? : Option String
  /-- The characters of the host. -/
  host : List Char
  /-- The characters behind the colon of the port, if there is one. -/
  port? : Option (List Char)
  deriving DecidableEq, Repr

/-- Takes the part in front of the path apart. A sign for a user with nothing on either side leaves
    no host. -/
def readAuthority (cs : List Char) : Except UrlFault Authority := do
  let (user, rest) := (splitUserInfo? cs).getD ([], cs)
  let (name, password?) := match Text.splitOnce? ':' user with
    | some (name, password) => (name, if password.isEmpty then none else some password)
    | none => (user, none)
  let encode (part : List Char) := String.ofList (Percent.encode Percent.inUserInfo part)
  let (host, port) := splitHost false rest
  return ⟨encode name, password?.map encode, host, port.head?.map fun _ => port.drop 1⟩

/-- Reads what follows the colon of a scheme of the web. -/
def parseWeb (scheme : Scheme) (cs : List Char) : Except UrlFault Url := do
  let cs := cs.dropWhile fun c => c = '/' || c = '\\'
  let authority ← readAuthority (cs.takeWhile fun c => !endsAuthority true c)
  let rest := cs.dropWhile fun c => !endsAuthority true c
  if authority.host.isEmpty then throw .emptyHost
  let host ← Host.parse authority.host
  let port? ← match authority.port? with
    | some digits => parsePort digits
    | none => pure none
  let path := rest.takeWhile fun c => c ≠ '?' && c ≠ '#'
  let rest := rest.dropWhile fun c => c ≠ '?' && c ≠ '#'
  let query := rest.takeWhile (· ≠ '#')
  let fragment := rest.dropWhile (· ≠ '#')
  return {
    scheme
    userName := authority.userName
    password? := authority.password?
    host
    port? := port?.filter (· ≠ scheme.port)
    path := normalPath path
    query? := query.head?.map fun _ =>
      String.ofList (Percent.encode Percent.inQuery (query.drop 1))
    fragment? := fragment.head?.map fun _ =>
      String.ofList (Percent.encode Percent.inFragment (fragment.drop 1)) }

/-- Whether a host under a scheme of no special kind may hold a character. -/
def isOpaqueHostChar (c : Char) : Bool :=
  c ∉ ['\x00', '\t', '\n', '\r', ' ', '#', '/', ':', '<', '>', '?', '@', '[', '\\', ']', '^', '|']

/-- Checks what follows the two slashes of a scheme of no special kind. -/
def checkOther (cs : List Char) : Except UrlFault Unit := do
  let hasUser := (splitUserInfo? (cs.takeWhile fun c => !endsAuthority false c)).isSome
  let authority ← readAuthority (cs.takeWhile fun c => !endsAuthority false c)
  if authority.host.head? = some '[' then discard (Host.parseBracketed authority.host)
  else if !authority.host.all isOpaqueHostChar then throw .forbiddenHostCharacter
  if authority.host.isEmpty ∧ (authority.port?.isSome ∨ hasUser) then throw .emptyHost
  match authority.port? with
  | some digits => discard (parsePort (digits.takeWhile (· ≠ '\\')))
  | none => return ()

/-- Checks what follows the colon of the scheme of files. -/
def checkFile (cs : List Char) : Except UrlFault Unit := do
  match cs with
  | a :: b :: rest =>
    if (a = '/' ∨ a = '\\') ∧ (b = '/' ∨ b = '\\') then
      let host := rest.takeWhile fun c => !endsAuthority true c
      if !host.isEmpty ∧ !isDrive host then discard (Host.parse host)
  | _ => return ()

/-- The special schemes besides those of the web and of files, with their usual ports. -/
def otherServers : List String := ["ftp", "ws", "wss"]

/-- The web address that a text denotes. -/
def parse (text : String) : Except UrlFault Url := do
  match splitScheme? (significant text) with
  | none => throw .noScheme
  | some ("http", rest) => parseWeb .http rest
  | some ("https", rest) => parseWeb .https rest
  | some (scheme, rest) =>
    if otherServers.contains scheme then discard (parseWeb .http rest)
    else if scheme = "file" then checkFile rest
    else match rest with
      | '/' :: '/' :: rest => checkOther rest
      | _ => pure ()
    throw (.unsupportedScheme scheme)

end PackageRelease.Url
