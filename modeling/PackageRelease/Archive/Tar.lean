import PackageRelease.Digest.Block
import PackageRelease.FileSystem.OsError
import PackageRelease.Path

/-! # Tar archives

  An archive is a sequence of records of 512 octets: for each file a header and its content, filled
  up with zeros, and two records of zeros at the end. A name of more than 100 octets goes in front
  of its file as the content of a header of its own, and the header of the file itself keeps what
  fits.

  An archive is made by putting the results of `entry` one after the other in front of `finish`.
  `records?` takes an archive apart and checks sizes and checksums; `entries?` gives every file its
  full name.
-/

namespace PackageRelease.Tar

/-! ### Headers -/

/-- The number of octets in a record. -/
def recordSize : Nat := 512

/-- What a header announces. -/
inductive Kind where
  /-- A regular file. -/
  | file
  /-- The name of the file behind it. -/
  | longName
  deriving DecidableEq, Repr

/-- The octet that stands for a kind. -/
def Kind.flag : Kind → UInt8
  | .file => 0x30
  | .longName => 0x4C

/-- The place of a value in a header. -/
structure Field where
  /-- The number of octets in front. -/
  offset : Nat
  /-- The number of octets. -/
  width : Nat
  deriving DecidableEq, Repr

namespace Field

/-- The name, filled up with zeros. -/
def name : Field := ⟨0, 100⟩
/-- The permissions. -/
def mode : Field := ⟨100, 8⟩
/-- The owner. -/
def owner : Field := ⟨108, 8⟩
/-- The group. -/
def group : Field := ⟨116, 8⟩
/-- The length of the content. -/
def size : Field := ⟨124, 12⟩
/-- The time of the last change. -/
def time : Field := ⟨136, 12⟩
/-- The sum of all octets of the header, this field taken as blanks. -/
def checksum : Field := ⟨148, 8⟩
/-- The kind. -/
def kind : Field := ⟨156, 1⟩
/-- The mark of the format. -/
def magic : Field := ⟨257, 8⟩

end Field

/-- The octets of a field. -/
def Field.of (field : Field) (header : Bytes) : Bytes :=
  (header.drop field.offset).take field.width

/-- Octets filled up with zeros at the end. -/
def fill (width : Nat) (bytes : Bytes) : Bytes :=
  bytes ++ List.replicate (width - bytes.length) 0

/-- A number in octal digits with a zero octet behind them. A number that needs more digits than
    there are is written in binary, with the highest bit of the field set. -/
def octal (width n : Nat) : Bytes :=
  if n < Nat.pow 8 (width - 1) then
    (Text.padLeft (width - 1) (Nat.toDigits 8 n)).map (fun c => UInt8.ofNat c.toNat) ++ [0]
  else 0x80 :: Digest.bigEndian (width - 1) n

/-- What a header says. -/
structure Header where
  /-- At most 100 octets of name. -/
  name : Bytes
  /-- Owner and group, which may be left out. -/
  owner? : Option Nat
  /-- The length of the content. -/
  size : Nat
  /-- The time of the last change in seconds. -/
  time : Nat
  /-- What the header announces. -/
  kind : Kind
  deriving DecidableEq, Repr

namespace Header

/-- The permissions: its owner may write a file and all may read it. -/
def permissions : Nat := 0o644

/-- The octets in front of the checksum. -/
def front (h : Header) : Bytes :=
  let owner := match h.owner? with
    | some n => octal 8 n
    | none => fill 8 []
  fill 100 h.name ++ octal 8 permissions ++ owner ++ owner ++ octal 12 h.size ++ octal 12 h.time

/-- The octets behind the checksum. -/
def back (h : Header) : Bytes :=
  h.kind.flag :: fill 100 [] ++ Text.encode "ustar  " ++ [0] ++ fill 247 []

/-- The sum of octets. -/
def sum (bytes : Bytes) : Nat := bytes.foldl (fun n b => n + b.toNat) 0

/-- The record of a header. -/
def record (h : Header) : Bytes :=
  h.front ++ octal 8 (sum h.front + 8 * 0x20 + sum h.back) ++ h.back

end Header

/-! ### Names -/

/-- What becomes of the name of a file when it is put into a header. -/
inductive Placed where
  /-- The whole name fits. -/
  | fits (name : Bytes)
  /-- A part of the name is refused after these octets were written. -/
  | refused (written : Bytes) (reason : String)
  deriving DecidableEq, Repr

/-- Puts the components of a name one after the other. A `..` is refused, except as the last
    component of a name that is known to be `cut`. -/
def place (cut : Bool) (room : Nat) (written : Bytes) : Path.Components → Placed
  | [] =>
    if written.isEmpty then .refused [] "paths in archives must have at least one component"
    else .fits written
  | .root :: _ => .refused written "paths in archives must be relative"
  | .current :: rest =>
    if written.isEmpty ∧ rest.isEmpty then .fits [0x2E] else place cut room written rest
  | component :: rest =>
    if component = .parent ∧ !(cut && rest.isEmpty) then
      .refused written "paths in archives must not have `..`"
    else
      let text := Text.encode component.text
      let slash : Bytes := if written.isEmpty then [] else [0x2F]
      if room < (written ++ slash).length then .refused written "provided value is too long"
      else if room < (written ++ slash ++ text).length then
        .refused (written ++ slash) "provided value is too long"
      else place cut room (written ++ slash ++ text) rest

/-- The error of a refused name, with what was written of it. -/
def refusal (written : Bytes) (reason : String) : IoError :=
  .other (reason ++ " when setting path for " ++ (Text.decode? written).getD "")

/-! ### Writing -/

/-- The time that every file carries: 1985-10-26T08:15:00Z. -/
def fixedTime : Nat := 499162500

/-- The number of zeros behind a content. -/
def gap (size : Nat) : Nat := (recordSize - size % recordSize) % recordSize

/-- A header with its content. -/
def framed (header : Header) (content : Bytes) : Bytes :=
  header.record ++ content ++ List.replicate (gap content.length) 0

/-- The header and content that announce a long name. -/
def longNameSection (name : Bytes) : Bytes :=
  framed { name := Text.encode "././@LongLink", owner? := some 0, size := name.length + 1,
             time := 0, kind := .longName } (name ++ [0])

/-- The header and content of a file whose short name is known. -/
def fileSection (name content : Bytes) : Bytes :=
  framed { name, owner? := none, size := content.length, time := fixedTime, kind := .file }
    content

/-- One file of an archive. -/
def entry (name : String) (content : Bytes) : Except IoError Bytes :=
  let room := Field.name.width
  match place false room [] (Path.components ⟨name⟩) with
  | .fits short => .ok (fileSection short content)
  | .refused written reason =>
    let full := Text.encode name
    if full.length < room then .error (refusal written reason)
    else
      let kept := String.ofList (Text.takeUtf8 room name.toList)
      match place true room [] (Path.components ⟨kept⟩) with
      | .fits short =>
        let slash : Bytes := if kept.toList.getLast? = some '/' then [0x2F] else []
        .ok (longNameSection full ++ fileSection (short ++ slash) content)
      | .refused written reason => .error (refusal written reason)

/-- The end of an archive. -/
def finish : Bytes := List.replicate (2 * recordSize) 0

/-! ### Reading -/

/-- A header with its content. -/
structure Record where
  /-- The 512 octets of the header. -/
  header : Bytes
  /-- The content that the header announces. -/
  content : Bytes
  deriving DecidableEq, Repr

/-- The number in a field. -/
def number? (bytes : Bytes) : Option Nat :=
  match bytes with
  | first :: rest =>
    if first = 0x80 then some (Digest.ofBigEndian rest)
    else
      let digits := bytes.takeWhile (· ≠ 0)
      if digits.all fun b => 0x30 ≤ b && b ≤ 0x37 then
        some (digits.foldl (fun n b => 8 * n + (b.toNat - 0x30)) 0)
      else none
  | [] => none

/-- The text of a field up to its first zero. -/
def text (bytes : Bytes) : Bytes := bytes.takeWhile (· ≠ 0)

/-- Whether the checksum of a header is right. -/
def checks (header : Bytes) : Bool :=
  number? (Field.checksum.of header) =
    some (Header.sum (header.take 148) + 8 * 0x20 + Header.sum (header.drop 156))

/-- Reads records until two records of zeros that end the archive. -/
def readRecords? : (fuel : Nat) → Bytes → Option (List Record)
  | 0, _ => none
  | fuel + 1, bytes =>
    if bytes = finish then some []
    else do
      let header := bytes.take recordSize
      guard (header.length = recordSize ∧ checks header)
      let size ← number? (Field.size.of header)
      let rest := bytes.drop recordSize
      guard (size + gap size ≤ rest.length)
      return ⟨header, rest.take size⟩ :: (← readRecords? fuel (rest.drop (size + gap size)))

/-- The records of an archive. -/
def records? (archive : Bytes) : Option (List Record) :=
  readRecords? (archive.length / recordSize) archive

/-- The files behind records. A record with a long name gives it to the file behind it. -/
def files? : Option Bytes → List Record → Option (List (Bytes × Bytes))
  | none, [] => some []
  | some _, [] => none
  | long?, record :: rest =>
    if Field.kind.of record.header = [Kind.longName.flag] then
      match long? with
      | none => files? (some (text record.content)) rest
      | some _ => none
    else if Field.kind.of record.header = [Kind.file.flag] then do
      let name := long?.getD (text (Field.name.of record.header))
      return (name, record.content) :: (← files? none rest)
    else none

/-- The files of an archive by their names. -/
def entries? (archive : Bytes) : Option (List (Bytes × Bytes)) := do
  files? none (← records? archive)

end PackageRelease.Tar
