import Mathlib.Data.List.Flatten
import PackageRelease.Proofs.Archive.Records
import PackageRelease.Proofs.Path.Components
import PackageRelease.Proofs.Text.Octets

/-! # Names in an archive read back

  A name that fits into its field is put there whole, and a longer one goes in front of its file.
  The key idea: whatever is put into the field is a selection of the octets of the name, in their
  order, so it never takes more room than the name that it is made from; and of a name made of
  steps nothing is left out.
-/

namespace PackageRelease.Tar

/-! ### What is put into the field -/

/-- The octets of components, each behind a slash. -/
def trail (components : Path.Components) : Bytes :=
  components.flatMap fun c => 0x2F :: Text.encode c.text

/-- The octets that were written, behind a slash if there are any. -/
def opened (written : Bytes) : Bytes := if written.isEmpty then [] else 0x2F :: written

theorem opened_cons (b : UInt8) (written : Bytes) : opened (b :: written) = 0x2F :: b :: written := rfl

/-- A component that is put into the field is written behind the others, with a slash between. -/
theorem place_cons {cut : Bool} {room : Nat} {written short : Bytes} {c : Path.Component}
    {rest : Path.Components} (h : place cut room written (c :: rest) = .fits short)
    (hroot : c ≠ .root) (hcurrent : c ≠ .current) : ∃ next,
      0x2F :: next = opened written ++ 0x2F :: Text.encode c.text ∧ next.length ≤ room ∧
        place cut room next rest = .fits short := by
  have hnext : ∀ slash : Bytes, slash = (if written.isEmpty then [] else [0x2F]) →
      0x2F :: (written ++ slash ++ Text.encode c.text) =
        opened written ++ 0x2F :: Text.encode c.text := by
    rintro slash rfl
    cases written <;> simp [opened]
  rw [place] at h
  · split at h
    · cases h
    · dsimp only at h
      generalize hslash : (if written.isEmpty = true then [] else [0x2F] : Bytes) = slash at h
      split at h
      · cases h
      split at h
      · cases h
      · next hroom => exact ⟨_, hnext slash hslash.symm, Nat.not_lt.mp hroom, h⟩
  · exact hroot
  · exact hcurrent

/-- What fits takes at most the octets of its components, each behind a slash. -/
theorem sublist_of_fits {cut : Bool} {room : Nat} {written short : Bytes}
    {components : Path.Components} (h : place cut room written components = .fits short) :
    (0x2F :: short).Sublist (opened written ++ trail components) := by
  induction components generalizing written with
  | nil =>
    rw [place] at h
    cases written with
    | nil => cases h
    | cons b written =>
      cases h
      rw [opened_cons]
      exact List.sublist_append_left _ _
  | cons c rest ih =>
    unfold trail
    rw [List.flatMap_cons]
    cases c with
    | root => cases h
    | current =>
      rw [place] at h
      split at h
      · next hlast =>
        -- a single `.` stands for itself
        cases h
        obtain rfl := List.isEmpty_iff.mp hlast.1
        obtain rfl := List.isEmpty_iff.mp hlast.2
        exact List.Sublist.refl _
      · refine (ih h).trans (List.Sublist.append_left ?_ _)
        exact List.sublist_append_right _ _
    | parent | name text =>
      obtain ⟨next, hnext, -, hrest⟩ := place_cons h nofun nofun
      have hsublist := ih hrest
      have hopened : (opened next).Sublist (0x2F :: next) := by
        cases next with
        | nil => exact List.nil_sublist _
        | cons b next => exact List.Sublist.refl _
      rw [hnext] at hopened
      have hwhole := hsublist.trans (List.Sublist.append_right hopened (trail rest))
      rwa [List.append_assoc] at hwhole

/-- What fits is not longer than the field. -/
theorem length_le_of_fits {cut : Bool} {room : Nat} {written short : Bytes}
    {components : Path.Components} (hroom : 0 < room) (hwritten : written.length ≤ room)
    (h : place cut room written components = .fits short) : short.length ≤ room := by
  induction components generalizing written with
  | nil =>
    rw [place] at h
    split at h
    · cases h
    · cases h
      exact hwritten
  | cons c rest ih =>
    cases c with
    | root => cases h
    | current =>
      rw [place] at h
      split at h
      · cases h
        exact hroom
      · exact ih hwritten h
    | parent | name text =>
      obtain ⟨next, -, hnext, hrest⟩ := place_cons h nofun nofun
      exact ih hnext hrest

/-- Of steps that fit nothing is left out. -/
theorem eq_of_fits {cut : Bool} {room : Nat} {written short : Bytes} {steps : Path.Components}
    (hsteps : ∀ c ∈ steps, c.IsStep) (h : place cut room written steps = .fits short) :
    0x2F :: short = opened written ++ trail steps := by
  induction steps generalizing written with
  | nil =>
    rw [place] at h
    cases written with
    | nil => cases h
    | cons b written =>
      cases h
      exact (List.append_nil _).symm
  | cons c rest ih =>
    have hc := hsteps c List.mem_cons_self
    have hroot : c ≠ .root := by
      rintro rfl
      exact hc
    have hcurrent : c ≠ .current := by
      rintro rfl
      exact hc
    obtain ⟨next, hnext, -, hrest⟩ := place_cons h hroot hcurrent
    have hfits := ih (fun d hd => hsteps d (List.mem_cons_of_mem c hd)) hrest
    -- the text of a step is not empty, so something has been written
    have hopened : opened next = 0x2F :: next := by
      cases next with
      | cons b next => rfl
      | nil =>
        have htext := List.length_pos_iff.mpr (Text.encode_ne_nil (Path.text_of_isStep hc).1)
        have hlength := congrArg List.length hnext
        rw [List.length_append, List.length_cons, List.length_cons, List.length_nil] at hlength
        omega
    rw [hopened, hnext, List.append_assoc] at hfits
    exact hfits

/-! ### The octets of a name -/

/-- The pieces between slashes, each behind a slash, are the text behind a slash. -/
theorem flatMap_splitWhere (cs : List Char) :
    ((Text.splitWhere (· == '/') cs).flatMap fun piece => '/' :: piece) = '/' :: cs := by
  induction cs with
  | nil => rfl
  | cons c cs ih =>
    cases hc : c == '/' with
    | true =>
      rw [@Text.splitWhere_cons_of_pos (· == '/') c hc, List.flatMap_cons, ih, eq_of_beq hc]
      rfl
    | false =>
      obtain ⟨first, rest, hcs, hcons⟩ := @Text.splitWhere_cons_of_neg (· == '/') c hc cs
      rw [hcs, List.flatMap_cons, List.cons_append] at ih
      rw [hcons, List.flatMap_cons, List.cons_append, List.cons_append, (List.cons.inj ih).2]

theorem map_text_filterMap_ofPiece? (pieces : List String) :
    (pieces.filterMap Path.Component.ofPiece?).map Path.Component.text =
      pieces.filter (· ≠ ".") := by
  induction pieces with
  | nil => rfl
  | cons piece rest ih =>
    unfold Path.Component.ofPiece? at ih ⊢
    by_cases hdot : piece = "."
    · simpa [hdot] using ih
    · by_cases hparent : piece = ".."
      · simpa [hparent, Path.Component.text] using ih
      · simpa [hdot, hparent, Path.Component.text] using ih

/-- The texts of components are pieces of the path. -/
theorem texts_sublist_pieces {p : Path} (h : p.isAbsolute = false) :
    (p.components.map Path.Component.text).Sublist p.pieces := by
  rcases Path.components_of_relative h with ⟨rest, hpieces, hcomponents⟩ | ⟨-, hcomponents⟩
  · rw [hcomponents, hpieces, List.map_cons, map_text_filterMap_ofPiece?]
    exact List.filter_sublist.cons_cons "."
  · rw [hcomponents, map_text_filterMap_ofPiece?]
    exact List.filter_sublist

/-- The components of a relative path have their octets from its text. -/
theorem trail_sublist {p : Path} (h : p.isAbsolute = false) :
    (trail p.components).Sublist (0x2F :: Text.encode p.text) := by
  have htexts : trail p.components =
      (p.components.map Path.Component.text).flatMap fun s => 0x2F :: Text.encode s := by
    unfold trail
    rw [List.flatMap_map]
  have hwhole : (((Text.splitWhere (· == '/') p.text.toList).map String.ofList).flatMap fun s =>
      0x2F :: Text.encode s) = 0x2F :: Text.encode p.text := by
    calc (((Text.splitWhere (· == '/') p.text.toList).map String.ofList).flatMap fun s =>
          0x2F :: Text.encode s)
      _ = (Text.splitWhere (· == '/') p.text.toList).flatMap fun piece =>
            ('/' :: piece).flatMap String.utf8EncodeChar := by
          rw [List.flatMap_map]
          refine List.flatMap_congr fun piece _ => ?_
          rw [Text.encode_ofList]
          rfl
      _ = ('/' :: p.text.toList).flatMap String.utf8EncodeChar := by
          rw [← List.flatMap_assoc, flatMap_splitWhere]
      _ = 0x2F :: Text.encode p.text := by
          rw [Text.encode_eq]
          rfl
  rw [htexts, ← hwhole]
  exact ((texts_sublist_pieces h).trans List.filter_sublist).flatMap _

/-- What fits of a name, and the slash at its end, are not longer than the name. -/
theorem length_of_fits {cut : Bool} {room : Nat} {name : String} {short : Bytes}
    (h : place cut room [] (Path.components ⟨name⟩) = .fits short) :
    short.length + (if name.toList.getLast? = some '/' then 1 else 0) ≤ (Text.encode name).length := by
  have hrelative : (⟨name⟩ : Path).isAbsolute = false := by
    -- a root is refused
    cases habsolute : (⟨name⟩ : Path).isAbsolute with
    | false => rfl
    | true =>
      rw [Path.components_of_isAbsolute habsolute] at h
      cases h
  have hfits : ∀ other : String, (⟨other⟩ : Path).isAbsolute = false →
      (⟨other⟩ : Path).components = (⟨name⟩ : Path).components →
      short.length ≤ (Text.encode other).length := by
    intro other hother hsame
    have hsublist := sublist_of_fits h
    rw [← hsame] at hsublist
    exact Nat.le_of_succ_le_succ (hsublist.trans (trail_sublist hother)).length_le
  split
  · next hslash =>
    -- without the slash at its end the name has the same components
    obtain ⟨front, hfront⟩ := List.getLast?_eq_some_iff.mp hslash
    have hpieces : (⟨String.ofList front⟩ : Path).pieces = (⟨name⟩ : Path).pieces := by
      have hnothing : Path.piecesOf [] = [] := rfl
      rw [Path.pieces_eq, Path.pieces_eq, hfront, Path.piecesOf_append_slash, hnothing,
        List.append_nil, String.toList_ofList]
    have habsolute : (⟨String.ofList front⟩ : Path).isAbsolute = false := by
      unfold Path.isAbsolute at hrelative ⊢
      rw [hfront] at hrelative
      rw [String.toList_ofList]
      cases front with
      | nil => rfl
      | cons c front => exact hrelative
    have hlength := hfits (String.ofList front) habsolute (by
      unfold Path.components
      rw [habsolute, hrelative, hpieces])
    have hname : Text.encode name = Text.encode (String.ofList front) ++ [0x2F] := by
      rw [Text.encode_eq, hfront, List.flatMap_append, Text.encode_ofList]
      rfl
    rw [hname, List.length_append, List.length_singleton]
    omega
  · exact hfits name hrelative rfl

/-- Steps that fit have their whole text in the field. -/
theorem eq_encode_of_fits {cut : Bool} {room : Nat} {short : Bytes} {steps : Path.Components}
    (hsteps : ∀ c ∈ steps, c.IsStep) (hne : steps ≠ [])
    (h : place cut room [] steps = .fits short) : short = Text.encode (Path.slashed steps) := by
  have htrail : ∀ (c : Path.Component) (rest : Path.Components),
      trail (c :: rest) = 0x2F :: Text.encode (Path.slashed (c :: rest)) := by
    intro c rest
    induction rest generalizing c with
    | nil => exact List.append_nil _
    | cons d rest ih =>
      have hslashed : Path.slashed (c :: d :: rest) = c.text ++ "/" ++ Path.slashed (d :: rest) := rfl
      have hfirst : trail (c :: d :: rest) = 0x2F :: Text.encode c.text ++ trail (d :: rest) := rfl
      rw [hfirst, ih, hslashed, Text.encode_append, Text.encode_append, List.append_assoc]
      rfl
  cases steps with
  | nil => exact absurd rfl hne
  | cons c rest =>
    have hwhole := eq_of_fits hsteps h
    rw [htrail] at hwhole
    exact (List.cons.inj hwhole).2

/-! ### The records of a file -/

/-- The record of a file whose short name is known. -/
def filePart (short content : Bytes) (hshort : short.length ≤ 100)
    (hcontent : content.length < Nat.pow 256 11) : Part where
  header := { name := short, owner? := none, size := content.length, time := fixedTime, kind := .file }
  content := content
  length_name := hshort
  size_eq := rfl
  size_lt := hcontent

/-- The record that announces a long name. -/
def longNamePart (name : Bytes) (hname : name.length + 1 < Nat.pow 256 11) : Part where
  header := { name := Text.encode "././@LongLink", owner? := some 0, size := name.length + 1,
              time := 0, kind := .longName }
  content := name ++ [0]
  length_name := (by decide : (Text.encode "././@LongLink").length ≤ 100)
  size_eq := (@List.length_append _ name [0]).symm
  size_lt := by rwa [List.length_append]

/-- A text is read up to the zeros behind it. -/
theorem text_append_zeros {bytes : Bytes} (h : 0 ∉ bytes) (count : Nat) :
    text (bytes ++ List.replicate count 0) = bytes := by
  have hbytes : ∀ b ∈ bytes, decide (b ≠ 0) = true := by
    intro b hb
    rw [decide_eq_true_eq]
    rintro rfl
    exact h hb
  have hzeros : (List.replicate count (0 : UInt8)).takeWhile (· ≠ 0) = [] := by
    cases count with
    | zero => rfl
    | succ count => rfl
  unfold text
  rw [List.takeWhile_append_of_pos hbytes, hzeros, List.append_nil]

/-- The record of a file gives it the name that was announced, or else its own. -/
theorem files?_file {record : Record} (hkind : Field.kind.of record.header = [Kind.file.flag])
    (long? : Option Bytes) (rest : List Record) :
    files? long? (record :: rest) = (files? none rest).map
      ((long?.getD (text (Field.name.of record.header)), record.content) :: ·) := by
  have hnotlong : Field.kind.of record.header ≠ [Kind.longName.flag] := by
    rw [hkind]
    decide
  cases long? with
  | none =>
    rw [files?, if_neg hnotlong, if_pos hkind]
    cases files? none rest <;> rfl
  | some long =>
    rw [files?, if_neg hnotlong, if_pos hkind]
    cases files? none rest <;> rfl

/-- The record of a long name announces it for the file behind it. -/
theorem files?_longName {record : Record}
    (hkind : Field.kind.of record.header = [Kind.longName.flag]) (rest : List Record) :
    files? none (record :: rest) = files? (some (text record.content)) rest := by
  rw [files?, if_pos hkind]

/-- Records of which a file is read, whatever comes behind them. -/
def Reads (parts : List Part) (name content : Bytes) : Prop :=
  ∀ rest, files? none (parts.map Part.record ++ rest) =
    (files? none rest).map ((name, content) :: ·)

theorem reads_file {name content : Bytes} (hzero : 0 ∉ name) (hname : name.length ≤ 100)
    (hcontent : content.length < Nat.pow 256 11) :
    Reads [filePart name content hname hcontent] name content := by
  intro rest
  have hkind : Field.kind.of (filePart name content hname hcontent).record.header =
      [Kind.file.flag] := Header.of_kind hname
  have hfield : Field.name.of (filePart name content hname hcontent).record.header =
      fill 100 name := Header.of_name hname
  have htext : text (fill 100 name) = name := text_append_zeros hzero _
  have hfile := files?_file hkind none rest
  rw [hfield, htext] at hfile
  exact hfile

theorem reads_long {name short content : Bytes} (hzero : 0 ∉ name)
    (hname : name.length + 1 < Nat.pow 256 11) (hshort : short.length ≤ 100)
    (hcontent : content.length < Nat.pow 256 11) :
    Reads [longNamePart name hname, filePart short content hshort hcontent] name content := by
  intro rest
  have hlong : Field.kind.of (longNamePart name hname).record.header = [Kind.longName.flag] :=
    Header.of_kind (longNamePart name hname).length_name
  have hkind : Field.kind.of (filePart short content hshort hcontent).record.header =
      [Kind.file.flag] := Header.of_kind hshort
  have hannounced : text (longNamePart name hname).record.content = name :=
    text_append_zeros hzero 1
  have hfile := files?_longName hlong ((filePart short content hshort hcontent).record :: rest)
  rw [hannounced, files?_file hkind] at hfile
  exact hfile

/-- One file of an archive is written as records of which it is read. -/
theorem exists_parts_of_entry {steps : Path.Components} (hsteps : ∀ c ∈ steps, c.IsStep)
    (hne : steps ≠ []) (hzero : 0 ∉ Text.encode (Path.slashed steps))
    (hname : (Text.encode (Path.slashed steps)).length + 1 < Nat.pow 256 11) {content bytes : Bytes}
    (hcontent : content.length < Nat.pow 256 11)
    (h : entry (Path.slashed steps) content = .ok bytes) : ∃ parts : List Part,
      bytes = parts.flatMap Part.bytes ∧ Reads parts (Text.encode (Path.slashed steps)) content := by
  unfold entry at h
  dsimp only at h
  rw [Path.components_slashed hsteps] at h
  cases hplace : place false Field.name.width [] steps with
  | fits short =>
    rw [hplace] at h
    cases h
    have hshort := length_le_of_fits (by decide) (Nat.zero_le _) hplace
    obtain rfl := eq_encode_of_fits hsteps hne hplace
    exact ⟨[filePart _ content hshort hcontent], (List.append_nil _).symm,
      reads_file hzero hshort hcontent⟩
  | refused written reason =>
    rw [hplace] at h
    dsimp only at h
    split at h
    · cases h
    split at h
    · next short hkept =>
      -- what is kept of the name is not longer than the field, with the slash at its end
      have hlength := length_of_fits hkept
      have htaken := Text.utf8Length_takeUtf8 Field.name.width (Path.slashed steps).toList
      rw [Text.length_encode_ofList] at hlength
      rw [String.toList_ofList] at h hlength
      generalize hslash : (if (Text.takeUtf8 Field.name.width
        (Path.slashed steps).toList).getLast? = some '/' then [0x2F] else [] : Bytes) = slash at h
      have hshort : (short ++ slash).length ≤ 100 := by
        rw [List.length_append, ← hslash]
        refine Nat.le_trans ?_ (hlength.trans htaken)
        split <;> exact Nat.le_refl _
      cases h
      refine ⟨[longNamePart _ hname, filePart _ content hshort hcontent], ?_,
        reads_long hzero hname hshort hcontent⟩
      exact congrArg (longNameSection _ ++ ·) (List.append_nil _).symm
    · cases h

end PackageRelease.Tar
