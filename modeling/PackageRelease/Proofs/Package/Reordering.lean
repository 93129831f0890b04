import PackageRelease.Proofs.FileSystem.Reordering
import PackageRelease.Proofs.Manifest.Changes
import PackageRelease.Proofs.Package.Spelling

/-! # Packing regardless of order

  What is packed depends neither on the order in which the manifest lists entries, nor on how often
  it does, nor on the order in which the files were made. The key idea: the files that are found go
  into an ascending list, and such a list is given by its members. So every step up to that list may
  find the same files in any order, and every step behind it starts from the same list.
-/

namespace PackageRelease

open FileSystem

namespace Selection

variable {fs other : FileSystem} {directory : Path}

/-! ### Files in another order -/

/-- The same files in another order lead to the same ascending list. -/
theorem insertAll_eq_of_perm {files others set : List Path.Components} (hperm : others.Perm files)
    (hset : Path.Ascending set) : insertAll others set = insertAll files set := by
  refine eq_of_ascending (ascending_insertAll _ hset) (ascending_insertAll _ hset) fun p => ?_
  rw [mem_insertAll, mem_insertAll, hperm.mem_iff]

section reordered
variable (h : Reordered fs other)
include h

theorem perm_reach (path : Path) : (reach other path).Perm (reach fs path) := by
  have hbelow (location : Location) :
      ((other.filesBelow location).map fun names => path.components ++ names.map .name).Perm
        ((fs.filesBelow location).map fun names => path.components ++ names.map .name) :=
    (h.perm_filesBelow location).map _
  unfold reach
  rw [h.isPresent_eq, h.find_eq, h.find_eq]
  split
  · split
    · exact .refl _
    · exact hbelow _
    · split
      · exact hbelow _
      · exact .refl _
    · exact .refl _
  · exact .refl _

theorem perm_collect (directory path : Path) :
    (collect other directory path).Perm (collect fs directory path) :=
  (perm_reach h path).filterMap _

/-- An entry stands for the same paths, or cannot be read for the same reason. -/
theorem resolve_cases (directory : Path) (entry : String) :
    (∃ paths others, resolve fs directory entry = .ok paths ∧
        resolve other directory entry = .ok others ∧ others.Perm paths) ∨
      ∃ failure, resolve fs directory entry = .error failure ∧
        resolve other directory entry = .error failure := by
  unfold resolve
  dsimp only
  split
  · exact .inl ⟨_, _, rfl, rfl, .refl _⟩
  · split
    · split
      · exact .inl ⟨_, _, rfl, rfl, Glob.perm_search h _⟩
      · exact .inr ⟨_, rfl, rfl⟩
    · exact .inl ⟨_, _, rfl, rfl, .refl _⟩

theorem listed_eq_of_reordered (entries : List String) {set : List Path.Components}
    (hset : Path.Ascending set) :
    listed other directory entries set = listed fs directory entries set := by
  induction entries generalizing set with
  | nil => rfl
  | cons entry rest ih =>
    unfold listed
    rcases resolve_cases h directory entry with
      ⟨paths, others, hpaths, hothers, hperm⟩ | ⟨failure, hpaths, hothers⟩
    · have hfiles : (others.flatMap (collect other directory)).Perm
          (paths.flatMap (collect fs directory)) :=
        List.Perm.flatMap hperm fun path _ => perm_collect h directory path
      rw [hpaths, hothers]
      dsimp only [bind, Except.bind]
      rw [hfiles.isEmpty_eq, insertAll_eq_of_perm hfiles hset, ih (ascending_insertAll _ hset)]
    · rw [hpaths, hothers]
      rfl

theorem files_eq_of_reordered (m : Manifest) : files other directory m = files fs directory m := by
  unfold files
  cases entries m with
  | error failure => rfl
  | ok entries =>
    dsimp only [bind, Except.bind]
    rw [listed_eq_of_reordered h entries List.Pairwise.nil]
    cases hlisted : listed fs directory entries [] with
    | error failure => rfl
    | ok set =>
      dsimp only
      rcases h.list_cases directory with
        ⟨present, others, hlist, hother, hperm⟩ | ⟨error, hlist, hother⟩
      · have hstanding : ((standing others).map fun name => [Path.Component.name name]).Perm
            ((standing present).map fun name => [Path.Component.name name]) :=
          ((hperm.filter _).map _).map _
        rw [hlist, hother]
        dsimp only
        rw [insertAll_eq_of_perm hstanding (ascending_listed hlisted List.Pairwise.nil)]
      · rw [hlist, hother]

end reordered

/-! ### Entries in another order -/

section members
variable {entries others : List String} {set result : List Path.Components}

/-- An entry leads to some file. -/
def Yields (fs : FileSystem) (directory : Path) (entry : String) : Prop :=
  ∃ paths, resolve fs directory entry = .ok paths ∧ paths.flatMap (collect fs directory) ≠ []

/-- A list can be gone through exactly if each entry leads to some file. -/
theorem exists_listed_iff : (∃ result, listed fs directory entries set = .ok result) ↔
    ∀ entry ∈ entries, Yields fs directory entry := by
  induction entries generalizing set with
  | nil => exact iff_of_true ⟨set, rfl⟩ nofun
  | cons entry rest ih =>
    rw [List.forall_mem_cons]
    constructor
    · rintro ⟨result, hresult⟩
      obtain ⟨paths, hpaths, hfiles, hrest⟩ := listed_cons_eq_ok_iff.mp hresult
      exact ⟨⟨paths, hpaths, hfiles⟩, ih.mp ⟨result, hrest⟩⟩
    · rintro ⟨⟨paths, hpaths, hfiles⟩, hrest⟩
      obtain ⟨result, hresult⟩ := (@ih (insertAll (paths.flatMap (collect fs directory)) set)).mpr
        hrest
      exact ⟨result, listed_cons_eq_ok_iff.mpr ⟨paths, hpaths, hfiles, hresult⟩⟩

/-- The same entries in another order, or more often, lead to the same files. -/
theorem listed_of_members (htree : fs.IsTree) (hmem : ∀ entry, entry ∈ others ↔ entry ∈ entries)
    (h : listed fs directory entries [] = .ok result) :
    listed fs directory others [] = .ok result := by
  have hyields := exists_listed_iff.mp ⟨result, h⟩
  obtain ⟨again, hagain⟩ := (@exists_listed_iff fs directory others []).mpr fun entry hentry =>
    hyields entry ((hmem entry).mp hentry)
  rw [hagain, eq_of_ascending (ascending_listed hagain List.Pairwise.nil)
    (ascending_listed h List.Pairwise.nil) fun p => ?_]
  rw [mem_listed_iff htree hagain, mem_listed_iff htree h]
  simp only [hmem]

theorem files_of_members (htree : fs.IsTree) {m changed : Manifest} (hlists : Lists m entries)
    (hothers : Lists changed others) (hmem : ∀ entry, entry ∈ others ↔ entry ∈ entries)
    (h : files fs directory m = .ok result) : files fs directory changed = .ok result := by
  obtain ⟨own, set, location, hown, hset, hfind, rfl⟩ := files_eq_ok_iff.mp h
  obtain rfl := hlists.unique hown
  exact files_eq_ok_iff.mpr
    ⟨others, set, location, hothers, listed_of_members htree hmem hset, hfind, rfl⟩

end members

end Selection

/-! ### The list of a manifest -/

namespace Manifest

variable {m : Manifest} {items others : List Json}

/-- A manifest with another list of files. -/
def withFiles (m : Manifest) (items : List Json) : Manifest := m.set "files" (.array items)

theorem text?_withFiles (m : Manifest) (items : List Json) {key : String} (hkey : key ≠ "files") :
    (m.withFiles items).text? key = m.text? key := by
  unfold text? get? withFiles set
  rw [Fields.get?_set_of_ne hkey]

theorem get?_withFiles (m : Manifest) (items : List Json) :
    (m.withFiles items).get? "files" = some (.array items) :=
  Fields.get?_set_self _ _ _

/-- The list that was there can be put back. -/
theorem withFiles_withFiles (hget : m.get? "files" = some (.array items)) (others : List Json) :
    (m.withFiles others).withFiles items = m := by
  have hset : (m.fields.set "files" (.array others)).set "files" (.array items) =
      m.fields.set "files" (.array items) := by
    induction m.fields with
    | nil => rfl
    | cons field rest ih =>
      obtain ⟨key, value⟩ := field
      by_cases hkey : key = "files"
      · rw [Fields.set, if_pos hkey, Fields.set, if_pos hkey, Fields.set, if_pos hkey]
      · rw [Fields.set, if_neg hkey, Fields.set, if_neg hkey, Fields.set, if_neg hkey, ih]
  exact congrArg Manifest.mk (hset.trans (Fields.set_of_get? hget))

theorem exists_strings {items : List Json} (h : ∀ item ∈ items, ∃ text, item = .string text) :
    ∃ texts : List String, items = texts.map .string := by
  induction items with
  | nil => exact ⟨[], rfl⟩
  | cons item items ih =>
    obtain ⟨⟨text, rfl⟩, hrest⟩ := List.forall_mem_cons.mp h
    obtain ⟨texts, rfl⟩ := ih hrest
    exact ⟨text :: texts, rfl⟩

/-- The same items in another order, or more often, list the same entries. -/
theorem lists_withFiles (hget : m.get? "files" = some (.array items))
    (hmem : ∀ item, item ∈ others ↔ item ∈ items) {entries : List String}
    (h : Selection.Lists m entries) : ∃ listed, Selection.Lists (m.withFiles others) listed ∧
      ∀ entry, entry ∈ listed ↔ entry ∈ entries := by
  cases h with
  | absent habsent => cases hget.symm.trans habsent
  | given hfiles =>
    unfold files? at hfiles
    rw [hget] at hfiles
    obtain rfl := Json.array.inj (texts?_eq_some_iff.mp hfiles)
    obtain ⟨listed, rfl⟩ : ∃ listed : List String, others = listed.map .string := by
      refine exists_strings fun item hitem => ?_
      obtain ⟨text, -, rfl⟩ := List.mem_map.mp ((hmem item).mp hitem)
      exact ⟨text, rfl⟩
    refine ⟨listed, .given ?_, fun entry => ?_⟩
    · unfold files?
      rw [get?_withFiles]
      exact texts?_eq_some_iff.mpr rfl
    · have hentry := hmem (.string entry)
      rw [List.mem_map_of_injective fun _ _ => Json.string.inj,
        List.mem_map_of_injective fun _ _ => Json.string.inj] at hentry
      exact hentry

end Manifest

/-! ### The package -/

namespace Tarball

variable {fs other : FileSystem} {directory : Path} {m : Manifest} {items others : List Json}

theorem addFiles_eq_of_reordered (h : Reordered fs other) (directory : Path)
    (files : List Path.Components) :
    addFiles other directory files = addFiles fs directory files := by
  induction files with
  | nil => rfl
  | cons file files ih => rw [addFiles, addFiles, h.readFile_eq, ih]

/-- Two packages differ in the text of the manifest at most. -/
structure SameBehind (t t' : Tarball) (m m' : Manifest) : Prop where
  /-- Behind the manifest there are the same names with the same contents, in the same order. -/
  entries : ∃ rest, t.entries = manifestEntry m :: rest ∧ t'.entries = manifestEntry m' :: rest
  /-- So are the octets of the archive. -/
  archive : ∃ tail,
    t.archive = Tar.fileSection (Text.encode (manifestEntry m).1) (manifestEntry m).2 ++ tail ∧
    t'.archive = Tar.fileSection (Text.encode (manifestEntry m').1) (manifestEntry m').2 ++ tail
  /-- The file has the same name. -/
  fileName : t'.fileName = t.fileName

/-- What can be packed can be packed with the same entries in another order. -/
theorem exists_pack_withFiles (htree : fs.IsTree) (hget : m.get? "files" = some (.array items))
    (hmem : ∀ item, item ∈ others ↔ item ∈ items) {t : Tarball} (h : pack fs directory m = .ok t) :
    ∃ t', pack fs directory (m.withFiles others) = .ok t' ∧
      SameBehind t t' m (m.withFiles others) := by
  obtain ⟨name, version, files, entries, archive, hname, hversion, hfiles, hentries, rfl⟩ :=
    pack_eq_ok_iff.mp h
  obtain ⟨_, _, _, hlists, -⟩ := Selection.files_eq_ok_iff.mp hfiles
  obtain ⟨listed, hlisted, hsame⟩ := Manifest.lists_withFiles hget hmem hlists
  have hagain := Selection.files_of_members htree hlists hlisted hsame hfiles
  refine ⟨_, pack_eq_ok_iff.mpr ⟨name, version, files, entries, archive,
    (m.text?_withFiles others (by decide)).trans hname,
    (m.text?_withFiles others (by decide)).trans hversion, hagain, hentries, rfl⟩, ?_⟩
  exact ⟨⟨entries, rfl, rfl⟩, ⟨archive, rfl, rfl⟩, rfl⟩

/-- The entries of the list can come in any order and any number of times: this decides neither
    whether a directory can be packed nor what stands behind the manifest in the archive. Nor does
    the order of the files in the file system decide about the outcome. -/
theorem pack_regardless_of_order (htree : fs.IsTree) (directory : Path) (m : Manifest) :
    (∀ items others, m.get? "files" = some (.array items) →
      (∀ item, item ∈ others ↔ item ∈ items) →
        ((∃ t, pack fs directory m = .ok t) ↔
          ∃ t', pack fs directory (m.withFiles others) = .ok t') ∧
        ∀ t t', pack fs directory m = .ok t → pack fs directory (m.withFiles others) = .ok t' →
          SameBehind t t' m (m.withFiles others)) ∧
    ∀ other, Reordered fs other → pack other directory m = pack fs directory m := by
  refine ⟨fun items others hget hmem => ⟨⟨?_, ?_⟩, ?_⟩, fun other h => ?_⟩
  · rintro ⟨t, ht⟩
    obtain ⟨t', ht', -⟩ := exists_pack_withFiles htree hget hmem ht
    exact ⟨t', ht'⟩
  · rintro ⟨t', ht'⟩
    obtain ⟨t, ht, -⟩ := exists_pack_withFiles htree (m.get?_withFiles others)
      (fun item => (hmem item).symm) ht'
    rw [Manifest.withFiles_withFiles hget] at ht
    exact ⟨t, ht⟩
  · intro t t' ht ht'
    obtain ⟨again, hagain, hsame⟩ := exists_pack_withFiles htree hget hmem ht
    obtain rfl := Except.ok.inj (hagain.symm.trans ht')
    exact hsame
  · unfold pack
    rw [Selection.files_eq_of_reordered h]
    simp only [addFiles_eq_of_reordered h]

/-- The sample directory, with its entries made in another order. -/
def turnedFiles : FileSystem := { sampleFiles with entries := sampleFiles.entries.reverse }

theorem pack_turned :
    (∃ t t', pack sampleFiles ⟨"."⟩ (sampleManifest ["./a.js", "README"]) = .ok t ∧
      SameBehind t t' (sampleManifest ["./a.js", "README"])
        ((sampleManifest ["./a.js", "README"]).withFiles
          [.string "README", .string "./a.js", .string "README"])) ∧
    pack turnedFiles ⟨"."⟩ (sampleManifest ["link"]) =
      pack sampleFiles ⟨"."⟩ (sampleManifest ["link"]) := by
  have htree : sampleFiles.IsTree := by decide +kernel
  constructor
  · obtain ⟨hsome, hsame⟩ := (pack_regardless_of_order htree ⟨"."⟩
      (sampleManifest ["./a.js", "README"])).1 [.string "./a.js", .string "README"]
      [.string "README", .string "./a.js", .string "README"] rfl
      (by simp [or_comm, or_left_comm])
    have hpacks : ∃ t, pack sampleFiles ⟨"."⟩ (sampleManifest ["./a.js", "README"]) = .ok t := by
      have hok : (pack sampleFiles ⟨"."⟩ (sampleManifest ["./a.js", "README"])).isOk = true := by
        decide +kernel
      cases h : pack sampleFiles ⟨"."⟩ (sampleManifest ["./a.js", "README"]) with
      | ok t => exact ⟨t, rfl⟩
      | error failure =>
        rw [h] at hok
        cases hok
    obtain ⟨t', ht'⟩ := hsome.mp hpacks
    obtain ⟨t, ht⟩ := hpacks
    exact ⟨t, t', ht, hsame t t' ht ht'⟩
  · exact (pack_regardless_of_order htree ⟨"."⟩ (sampleManifest ["link"])).2 turnedFiles
      (reordered_of_perm htree (List.reverse_perm _) rfl)

end Tarball

end PackageRelease
