import PackageRelease.Proofs.Archive.Names
import PackageRelease.Proofs.FileSystem.Tree
import PackageRelease.Proofs.Package.Contents

/-! # Packages read back

  The archive of a package says what the package contains. The key idea: a file was found by the
  names on its way, and an operating system has neither names with a zero in them nor paths without
  end, so the name of every file can be written in an archive and read from it again.
-/

namespace PackageRelease

/-! ### Names on the way -/

namespace FileSystem

/-- No name holds the character zero. -/
def ZeroFree (fs : FileSystem) : Prop :=
  ∀ found ∈ fs.entries, ∀ name ∈ found.1, '\x00' ∉ name.toList

instance (fs : FileSystem) : Decidable fs.ZeroFree :=
  inferInstanceAs (Decidable (∀ found ∈ fs.entries, ∀ name ∈ found.1, '\x00' ∉ name.toList))

variable {fs : FileSystem}

theorem ZeroFree.of_get? (h : fs.ZeroFree) {directory : Location} {name : String} {entry : Entry}
    (hentry : fs.get? (directory ++ [name]) = some entry) : '\x00' ∉ name.toList := by
  unfold get? at hentry
  split at hentry
  · next hnil => simp at hnil
  · exact h _ (mem_of_lookup hentry) name (List.mem_append_right _ List.mem_cons_self)

/-- Names that lead somewhere hold no zero: each is a dot, two dots or the name of an entry. -/
theorem Leads.zero_notMem (h : fs.ZeroFree) {links : Nat} {here goal : Location}
    {names : List String} (hleads : Leads fs links here names goal) :
    ∀ name ∈ names, '\x00' ∉ name.toList := by
  induction hleads with
  | here => exact nofun
  | dot hname _ ih =>
    intro other hother
    rcases List.mem_cons.mp hother with rfl | hother
    · rw [hname]
      decide
    · exact ih other hother
  | parent hname _ ih =>
    intro other hother
    rcases List.mem_cons.mp hother with rfl | hother
    · rw [hname]
      decide
    · exact ih other hother
  | directory _ _ _ hentry _ ih =>
    intro other hother
    rcases List.mem_cons.mp hother with rfl | hother
    · exact h.of_get? hentry
    · exact ih other hother
  | file _ _ _ hentry =>
    intro other hother
    obtain rfl := List.mem_singleton.mp hother
    exact h.of_get? hentry
  | link _ _ _ hentry _ _ ih =>
    intro other hother
    rcases List.mem_cons.mp hother with rfl | hother
    · exact h.of_get? hentry
    · exact ih other (List.mem_append_right _ hother)

end FileSystem

/-! ### Names in an archive -/

namespace Path

theorem utf8ByteSize_le_join {base other : Path} :
    other.text.utf8ByteSize ≤ (base.join other).text.utf8ByteSize := by
  unfold join
  split
  · exact Nat.le_refl _
  split
  · rw [String.utf8ByteSize_append]
    omega
  · rw [String.utf8ByteSize_append]
    omega

end Path

namespace Tarball

open Selection

variable {fs : FileSystem} {directory : Path} {m : Manifest}

/-- Whether an archive can hold the components of a file as its name. -/
structure Nameable (file : Path.Components) : Prop where
  /-- There are some. -/
  ne_nil : file ≠ []
  /-- They are steps. -/
  isStep : ∀ c ∈ file, c.IsStep
  /-- They hold no zero. -/
  zero : ∀ c ∈ file, '\x00' ∉ c.text.toList
  /-- Their text is shorter than a path may be. -/
  length : (Path.slashed file).utf8ByteSize < FileSystem.pathLengthLimit

/-- A file that was found and read can be named in an archive. -/
theorem nameable_of_reaches (htree : fs.IsTree) (hzero : fs.ZeroFree) {home : Location}
    (hhome : fs.find true directory = .ok (home, .directory)) {start : Path}
    {relative : Path.Components} {content read : Bytes}
    (h : Reaches fs start (directory.components ++ relative) content)
    (hread : fs.readFile (directory.join ⟨Path.slashed relative⟩) = .ok read) :
    Nameable relative := by
  have hdirectory := (FileSystem.leads_of_find hhome).1
  have hstep := h.isStep htree hdirectory
  obtain ⟨location, hleads, hentry⟩ := h.leads htree
  refine ⟨?_, hstep, fun c hc => ?_, ?_⟩
  · -- the directory is no file
    rintro rfl
    have hhome' := leads_steps_components hhome
    rw [List.append_nil, origin_eq_of_head? (h.head?_eq htree hdirectory)] at hleads
    obtain rfl := hhome'.unique hleads
    have hdir := (FileSystem.leads_of_find hhome).2.2
    rw [hentry] at hdir
    cases hdir
  · rw [Path.steps_append] at hleads
    refine hleads.zero_notMem hzero c.text (List.mem_append_right _ ?_)
    rw [Path.steps_eq_map_text hstep]
    exact List.mem_map_of_mem hc
  · obtain ⟨found, hfind⟩ := FileSystem.readFile_eq_ok_iff.mp hread
    obtain ⟨hlocate, -⟩ := FileSystem.find_eq_ok_iff.mp hfind
    obtain ⟨-, hlength, -⟩ := FileSystem.locate_eq_ok_iff.mp hlocate
    exact Nat.lt_of_le_of_lt Path.utf8ByteSize_le_join hlength

/-- One file of a package is read from its part of the archive. -/
theorem Nameable.exists_parts {file : Path.Components} (h : Nameable file) {content bytes : Bytes}
    (hcontent : content.length < Nat.pow 256 11)
    (hentry : Tar.entry (root ++ Path.slashed file) content = .ok bytes) : ∃ parts : List Tar.Part,
      bytes = parts.flatMap Tar.Part.bytes ∧
        Tar.Reads parts (Text.encode (root ++ Path.slashed file)) content := by
  have hpackage : (Path.Component.name "package").IsStep := by
    refine ⟨?_, ?_, ?_, ?_⟩ <;> decide
  have hname : root ++ Path.slashed file = Path.slashed (.name "package" :: file) := by
    cases hfile : file with
    | nil => exact absurd hfile h.ne_nil
    | cons c rest => rfl
  have hsteps : ∀ c ∈ (.name "package" :: file : Path.Components), c.IsStep := by
    intro c hc
    rcases List.mem_cons.mp hc with rfl | hc
    · exact hpackage
    · exact h.isStep c hc
  have hzero : '\x00' ∉ (root ++ Path.slashed file).toList := by
    intro hmem
    rw [String.toList_append] at hmem
    rcases List.mem_append.mp hmem with hroot | hfile
    · revert hroot
      decide
    · rcases Text.mem_toList_join hfile with hslash | ⟨s, hs, hc⟩
      · cases List.mem_singleton.mp hslash
      · obtain ⟨c, hcomponent, rfl⟩ := List.mem_map.mp hs
        exact h.zero c hcomponent hc
  have hlength : (Text.encode (root ++ Path.slashed file)).length + 1 < Nat.pow 256 11 := by
    have hfile : (Text.encode (Path.slashed file)).length < 4096 := h.length
    have hroot : (Text.encode root).length = 8 := by decide
    rw [Text.encode_append, List.length_append, hroot]
    refine Nat.lt_of_lt_of_le ?_ (by decide : 5000 ≤ Nat.pow 256 11)
    omega
  have hencoded := Text.zero_notMem_encode hzero
  rw [hname] at hentry hencoded hlength ⊢
  exact Tar.exists_parts_of_entry hsteps nofun hencoded hlength hcontent hentry

/-! ### The whole archive -/

/-- The names and contents as they are read in an archive. -/
def readings (entries : List (String × Bytes)) : List (Bytes × Bytes) :=
  entries.map fun (name, content) => (Text.encode name, content)

/-- The files of a package are read from their part of the archive. -/
theorem exists_parts_of_addFiles {files : List Path.Components} {entries : List (String × Bytes)}
    {archive : Bytes} (h : addFiles fs directory files = .ok (entries, archive))
    (hnames : ∀ file ∈ files, Nameable file)
    (hsizes : ∀ entry ∈ entries, entry.2.length < Nat.pow 256 11) : ∃ parts : List Tar.Part,
      archive = parts.flatMap Tar.Part.bytes ++ Tar.finish ∧
        Tar.files? none (parts.map Tar.Part.record) = some (readings entries) := by
  induction files generalizing entries archive with
  | nil =>
    cases h
    exact ⟨[], rfl, rfl⟩
  | cons file files ih =>
    obtain ⟨content, first, others, tail, -, hfirst, hrest, rfl, rfl⟩ := addFiles_cons_eq_ok h
    obtain ⟨front, rfl, hfront⟩ := (hnames file List.mem_cons_self).exists_parts
      (hsizes _ List.mem_cons_self) hfirst
    obtain ⟨back, rfl, hback⟩ := ih hrest (fun other hother =>
      hnames other (List.mem_cons_of_mem file hother)) fun entry hentry =>
        hsizes entry (List.mem_cons_of_mem _ hentry)
    refine ⟨front ++ back, ?_, ?_⟩
    · rw [List.flatMap_append, List.append_assoc]
    · rw [List.map_append, hfront, hback]
      rfl

/-- The archive of a package is read up to its end as the list of its entries, each a regular file
    with its full name: the manifest first, and then files with just the octets that they hold. Of
    the contents is assumed that the field for a length can hold theirs, which no machine exceeds.
    -/
theorem entries?_of_pack (htree : fs.IsTree) (hzero : fs.ZeroFree) {t : Tarball}
    (h : pack fs directory m = .ok t)
    (hsizes : ∀ entry ∈ t.entries, entry.2.length < Nat.pow 256 11) :
    Tar.entries? t.archive = some (readings t.entries) ∧
      ∃ selected : List (Path.Components × Bytes),
        t.entries = manifestEntry m :: selected.map member ∧
        ∀ file ∈ selected, fs.readFile (directory.join ⟨Path.slashed file.1⟩) = .ok file.2 := by
  obtain ⟨files, entries, archive, hfiles, hentries, ht, harchive⟩ := exists_of_pack h
  obtain ⟨selected, hselected, hmembers, hread⟩ := exists_of_addFiles hentries
  obtain ⟨_, _, home, -, -, hhome, -⟩ := files_eq_ok_iff.mp hfiles
  refine ⟨?_, selected, by rw [ht, hmembers], hread⟩
  -- every file was found, so it can be named
  have hnames : ∀ file ∈ files, Nameable file := by
    intro file hfile
    rw [← hselected] at hfile
    obtain ⟨⟨relative, read⟩, hmem, rfl⟩ := List.mem_map.mp hfile
    have hbelongs := ((mem_iff_belongs htree hfiles hselected hread).mp hmem).2
    obtain ⟨start, hreaches⟩ := hbelongs.reaches
    exact nameable_of_reaches htree hzero hhome hreaches (hread _ hmem)
  rw [ht] at hsizes ⊢
  obtain ⟨parts, rfl, hparts⟩ := exists_parts_of_addFiles hentries hnames fun entry hentry =>
    hsizes entry (List.mem_cons_of_mem _ hentry)
  -- the manifest has a short name
  have hmanifest : 0 ∉ Text.encode (manifestEntry m).1 :=
    Text.zero_notMem_encode (by decide : '\x00' ∉ (root ++ "package.json").toList)
  have hshort : (Text.encode (manifestEntry m).1).length ≤ 100 :=
    (by decide : (Text.encode (root ++ "package.json")).length ≤ 100)
  have hfirst := Tar.reads_file hmanifest hshort (hsizes _ List.mem_cons_self)
  have hwhole : t.archive = ((Tar.filePart _ _ hshort (hsizes _ List.mem_cons_self) ::
      parts).flatMap Tar.Part.bytes) ++ Tar.finish := by
    rw [harchive, List.flatMap_cons, List.append_assoc]
    rfl
  have hall := hfirst (parts.map Tar.Part.record)
  rw [hparts, Option.map_some] at hall
  unfold Tar.entries?
  rw [hwhole, Tar.records?_parts, Option.bind_eq_bind, Option.bind_some, List.map_cons]
  exact hall

/-- A directory with an empty file, whose name is cut within a character when it is put into a
    header, and another file. -/
def packedFiles : FileSystem where
  entries := [(["p"], .directory), (["p", "a.js"], .file [0x61]),
    (["p", String.ofList ('a' :: List.replicate 24 '📦')], .file [])]
  workingDirectory := []

/-- The names of its files. -/
def packedNames : List String := ["a.js", String.ofList ('a' :: List.replicate 24 '📦')]

theorem entries?_of_packedFiles : ∃ t, pack packedFiles ⟨"p"⟩ (sampleManifest packedNames) = .ok t ∧
    t.names = ["package/package.json", "package/a.js",
      String.ofList ("package/a".toList ++ List.replicate 24 '📦')] ∧
    Tar.entries? t.archive = some (readings t.entries) := by
  have hok : ((pack packedFiles ⟨"p"⟩ (sampleManifest packedNames)).toOption.any fun t =>
      t.names = ["package/package.json", "package/a.js",
        String.ofList ("package/a".toList ++ List.replicate 24 '📦')] ∧
      ∀ entry ∈ t.entries, entry.2.length < Nat.pow 256 11) = true := by
    decide +kernel
  cases ht : pack packedFiles ⟨"p"⟩ (sampleManifest packedNames) with
  | error failure =>
    rw [ht] at hok
    cases hok
  | ok t =>
    rw [ht] at hok
    obtain ⟨hnames, hsizes⟩ := of_decide_eq_true hok
    have htree : packedFiles.IsTree := by decide +kernel
    have hzero : packedFiles.ZeroFree := by decide +kernel
    exact ⟨t, rfl, hnames, (entries?_of_pack htree hzero ht hsizes).1⟩

end Tarball

end PackageRelease
