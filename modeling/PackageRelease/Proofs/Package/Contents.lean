import Mathlib.Data.List.Nodup
import PackageRelease.Package.Tarball
import PackageRelease.Proofs.Package.Selection

/-! # What a package contains

  A packed package holds its manifest and then exactly the files that belong to it, in ascending
  order, each with its own content. The content is read through a path made of the components by
  which the file was found. The key idea: both ways ask for the same names from the same directory,
  and names lead to one entry only.
-/

namespace PackageRelease

namespace Selection

variable {fs : FileSystem} {directory : Path}

/-! ### From components back to files -/

/-- The components of a path lead to the entry that is found through it. -/
theorem leads_steps_components {p : Path} {location : Location} {entry : Entry}
    (h : fs.find true p = .ok (location, entry)) :
    fs.Leads FileSystem.maxLinks (p.origin fs.workingDirectory) p.components.steps location := by
  obtain ⟨-, hleads, -⟩ := FileSystem.leads_of_find h
  -- components know no `.` behind the first one, nor the slash at the end
  rw [← Path.filter_steps]
  exact hleads.undot (FileSystem.undotted_filter p.steps)

theorem origin_eq_of_head? {p q : Path} (h : p.components.head? = q.components.head?)
    (here : Location) : p.origin here = q.origin here := by
  unfold Path.origin
  by_cases hq : q.isAbsolute = true
  · have hp := (Path.head?_components_eq_root_iff q).mpr hq
    rw [if_pos hq, if_pos ((Path.head?_components_eq_root_iff p).mp (h.trans hp))]
  · have hp : ¬ p.isAbsolute = true := fun hp =>
      hq ((Path.head?_components_eq_root_iff q).mp
        (h.symm.trans ((Path.head?_components_eq_root_iff p).mpr hp)))
    rw [if_neg hq, if_neg hp]

theorem Reaches.text_ne_empty {start : Path} {components : Path.Components} {content : Bytes}
    (h : Reaches fs start components content) : start.text ≠ "" := by
  cases h with
  | itself h => exact (FileSystem.leads_of_find (FileSystem.find_true_of_file h)).1
  | below h _ => exact (FileSystem.leads_of_find h).1

/-- Behind the components of the path there are only names of files and directories. -/
theorem Reaches.components_eq (htree : fs.IsTree) {start : Path} {components : Path.Components}
    {content : Bytes} (h : Reaches fs start components content) :
    ∃ names : List String, components = start.components ++ names.map .name ∧
      ∀ name ∈ names, IsName name := by
  cases h with
  | itself h => exact ⟨[], (List.append_nil _).symm, nofun⟩
  | below h hunder => exact ⟨_, rfl, hunder.isName htree⟩

/-- The components by which a file was found lead to it. -/
theorem Reaches.leads (htree : fs.IsTree) {start : Path} {components : Path.Components}
    {content : Bytes} (h : Reaches fs start components content) :
    ∃ location, fs.Leads FileSystem.maxLinks (start.origin fs.workingDirectory) components.steps
      location ∧ fs.get? location = some (.file content) := by
  cases h with
  | itself h =>
    have hfind := FileSystem.find_true_of_file h
    exact ⟨_, leads_steps_components hfind, (FileSystem.leads_of_find hfind).2.2⟩
  | below h hunder =>
    -- the names on the way down are added to a path that ends at a directory
    obtain ⟨left, -, hleft⟩ := (leads_steps_components h).append_transfer
      (FileSystem.leads_of_find h).2.2 fun _ _ _ _ _ _ => rfl
    refine ⟨_, ?_, hunder.get?_eq⟩
    rw [Path.steps_append, Path.steps_map_name]
    exact hleft _ _ (hunder.leads htree left)

section relative_paths
variable {start : Path} {relative : Path.Components} {content : Bytes}

/-- Both components are the first ones of the same sequence. -/
theorem Reaches.head?_eq (htree : fs.IsTree) (hdirectory : directory.text ≠ "")
    (h : Reaches fs start (directory.components ++ relative) content) :
    start.components.head? = directory.components.head? := by
  obtain ⟨names, hnames, -⟩ := h.components_eq htree
  have hhead := congrArg List.head? hnames
  rw [List.head?_append_of_ne_nil _ (Path.components_ne_nil hdirectory),
    List.head?_append_of_ne_nil _ (Path.components_ne_nil h.text_ne_empty)] at hhead
  exact hhead.symm

/-- Seen from the directory, a file is found by steps only. -/
theorem Reaches.isStep (htree : fs.IsTree) (hdirectory : directory.text ≠ "")
    (h : Reaches fs start (directory.components ++ relative) content) :
    ∀ c ∈ relative, c.IsStep := by
  obtain ⟨names, hnames, hisname⟩ := h.components_eq htree
  have htail := congrArg List.tail hnames
  rw [List.tail_append_of_ne_nil (Path.components_ne_nil hdirectory),
    List.tail_append_of_ne_nil (Path.components_ne_nil h.text_ne_empty)] at htail
  intro c hc
  have hmem : c ∈ start.components.tail ++ names.map .name :=
    htail ▸ List.mem_append_right _ hc
  rcases List.mem_append.mp hmem with hstart | hname
  · exact Path.isStep_of_mem_tail hstart
  · obtain ⟨name, hnamed, rfl⟩ := List.mem_map.mp hname
    exact hisname name hnamed

/-- What is read for a file is its content. -/
theorem Reaches.content_eq (htree : fs.IsTree) (hdirectory : directory.text ≠ "")
    (h : Reaches fs start (directory.components ++ relative) content) {read : Bytes}
    (hread : fs.readFile (directory.join ⟨Path.slashed relative⟩) = .ok read) :
    read = content := by
  have hstep := h.isStep htree hdirectory
  obtain ⟨location, hleads, hentry⟩ := h.leads htree
  obtain ⟨other, hfind⟩ := FileSystem.readFile_eq_ok_iff.mp hread
  have hother := leads_steps_components hfind
  -- the path that is read asks for the same names and starts in the same directory
  rw [Path.steps_components_join_slashed hdirectory hstep] at hother
  have horigin : (directory.join ⟨Path.slashed relative⟩).origin fs.workingDirectory =
      start.origin fs.workingDirectory := by
    rw [origin_eq_of_head? (h.head?_eq htree hdirectory)]
    unfold Path.origin
    rw [Path.isAbsolute_join hdirectory (Path.isAbsolute_slashed hstep)]
  rw [horigin] at hother
  obtain rfl := hleads.unique hother
  have hfile := (FileSystem.leads_of_find hfind).2.2
  rw [hentry] at hfile
  cases hfile
  rfl

end relative_paths

/-- A file that belongs to a package is reached from some path. -/
theorem Belongs.reaches {m : Manifest} {relative : Path.Components} {content : Bytes}
    (h : Belongs fs directory m relative content) :
    ∃ start, Reaches fs start (directory.components ++ relative) content := by
  cases h with
  | selected _ _ h =>
    obtain ⟨-, start, -, hreaches⟩ := h
    exact ⟨start, hreaches⟩
  | standing hdirectory hfile _ _ => exact ⟨directory, .below hdirectory (.file hfile)⟩

end Selection

namespace Tarball

open Selection

variable {fs : FileSystem} {directory : Path} {m : Manifest}

/-! ### The files of an archive -/

/-- A file as it goes into the archive. -/
def member (file : Path.Components × Bytes) : String × Bytes :=
  (root ++ Path.slashed file.1, file.2)

/-- The files are read and archived one after the other. -/
theorem addFiles_cons_eq_ok {file : Path.Components} {rest : List Path.Components}
    {entries : List (String × Bytes)} {archive : Bytes}
    (h : addFiles fs directory (file :: rest) = .ok (entries, archive)) :
    ∃ content first others tail,
      fs.readFile (directory.join ⟨Path.slashed file⟩) = .ok content ∧
      Tar.entry (root ++ Path.slashed file) content = .ok first ∧
      addFiles fs directory rest = .ok (others, tail) ∧
      entries = member (file, content) :: others ∧ archive = first ++ tail := by
  unfold addFiles at h
  cases hread : fs.readFile (directory.join ⟨Path.slashed file⟩) with
  | error cause =>
    rw [hread] at h
    cases h
  | ok content =>
    rw [hread] at h
    dsimp only [bind, Except.bind, pure, Except.pure] at h
    cases hfirst : Tar.entry (root ++ Path.slashed file) content with
    | error cause =>
      rw [hfirst] at h
      cases h
    | ok first =>
      rw [hfirst] at h
      cases hrest : addFiles fs directory rest with
      | error failure =>
        rw [hrest] at h
        cases h
      | ok others =>
        rw [hrest] at h
        cases h
        exact ⟨content, first, others.1, others.2, rfl, hfirst, rfl, rfl, rfl⟩

/-- Each file is read, and nothing else goes into the archive. -/
theorem exists_of_addFiles {files : List Path.Components} {entries : List (String × Bytes)}
    {archive : Bytes} (h : addFiles fs directory files = .ok (entries, archive)) :
    ∃ selected : List (Path.Components × Bytes), selected.map Prod.fst = files ∧
      entries = selected.map member ∧
      ∀ file ∈ selected, fs.readFile (directory.join ⟨Path.slashed file.1⟩) = .ok file.2 := by
  induction files generalizing entries archive with
  | nil =>
    cases h
    exact ⟨[], rfl, rfl, nofun⟩
  | cons file files ih =>
    obtain ⟨content, first, others, tail, hread, -, hrest, rfl, -⟩ := addFiles_cons_eq_ok h
    obtain ⟨selected, rfl, rfl, hselected⟩ := ih hrest
    refine ⟨(file, content) :: selected, rfl, rfl, fun other hother => ?_⟩
    rcases List.mem_cons.mp hother with rfl | hother
    · exact hread
    · exact hselected other hother

/-- What packing takes and what it makes of it. -/
theorem pack_eq_ok_iff {t : Tarball} : pack fs directory m = .ok t ↔
    ∃ name version files entries archive, m.name? = some name ∧ m.version? = some version ∧
      Selection.files fs directory m = .ok files ∧
      addFiles fs directory files = .ok (entries, archive) ∧
      t = {
        entries := manifestEntry m :: entries
        archive := Tar.fileSection (Text.encode (manifestEntry m).1) (manifestEntry m).2 ++ archive
        fileName := fileNameOf name version } := by
  unfold pack
  cases hname : m.name? with
  | none => exact iff_of_false nofun (by rintro ⟨_, _, _, _, _, h, -⟩; cases h)
  | some name =>
    cases hversion : m.version? with
    | none => exact iff_of_false nofun (by rintro ⟨_, _, _, _, _, -, h, -⟩; cases h)
    | some version =>
      constructor
      · intro h
        obtain ⟨files, hfiles, h⟩ := bind_eq_ok.mp h
        obtain ⟨⟨entries, archive⟩, hentries, h⟩ := bind_eq_ok.mp h
        cases h
        exact ⟨name, version, files, entries, archive, rfl, rfl, hfiles, hentries, rfl⟩
      · rintro ⟨_, _, files, entries, archive, hname, hversion, hfiles, hentries, rfl⟩
        cases hname
        cases hversion
        exact bind_eq_ok.mpr ⟨files, hfiles, bind_eq_ok.mpr ⟨_, hentries, rfl⟩⟩

/-- A package that is packed has its files selected and read, and the manifest comes in front of
    them. -/
theorem exists_of_pack {t : Tarball} (h : pack fs directory m = .ok t) :
    ∃ files entries archive, Selection.files fs directory m = .ok files ∧
      addFiles fs directory files = .ok (entries, archive) ∧
      t.entries = manifestEntry m :: entries ∧
      t.archive = Tar.fileSection (Text.encode (manifestEntry m).1) (manifestEntry m).2 ++
        archive := by
  obtain ⟨_, _, files, entries, archive, -, -, hfiles, hentries, rfl⟩ := pack_eq_ok_iff.mp h
  exact ⟨files, entries, archive, hfiles, hentries, rfl, rfl⟩

theorem text_ne_empty_of_files {files : List Path.Components}
    (h : Selection.files fs directory m = .ok files) : directory.text ≠ "" := by
  obtain ⟨_, _, _, -, -, hfind, -⟩ := files_eq_ok_iff.mp h
  exact (FileSystem.leads_of_find hfind).1

section selected_files
variable {files : List Path.Components} {selected : List (Path.Components × Bytes)}
  (htree : fs.IsTree) (hfiles : Selection.files fs directory m = .ok files)
  (hselected : selected.map Prod.fst = files)
  (hread : ∀ file ∈ selected,
    fs.readFile (directory.join ⟨Path.slashed file.1⟩) = .ok file.2)
include htree hfiles hselected

include hread in
/-- The files that are read are those that belong to the package, with their own contents. -/
theorem mem_iff_belongs {relative : Path.Components} {content : Bytes} :
    (relative, content) ∈ selected ↔
      relative ≠ [.name "package.json"] ∧ Belongs fs directory m relative content := by
  have hdirectory := text_ne_empty_of_files hfiles
  have hfile : relative ∈ files ↔ ∃ read, (relative, read) ∈ selected := by
    rw [← hselected, List.mem_map]
    exact ⟨fun ⟨file, hmem, heq⟩ => ⟨file.2, heq ▸ hmem⟩, fun ⟨read, hmem⟩ => ⟨_, hmem, rfl⟩⟩
  rw [mem_files_iff htree hfiles] at hfile
  -- a file that belongs to the package is read by the way on which it was found
  have hcontent : ∀ {read found}, (relative, read) ∈ selected →
      Belongs fs directory m relative found → read = found := by
    intro read found hmem hbelongs
    obtain ⟨start, hreaches⟩ := hbelongs.reaches
    exact hreaches.content_eq htree hdirectory (hread (relative, read) hmem)
  constructor
  · intro hmem
    obtain ⟨hne, found, hbelongs⟩ := hfile.mpr ⟨content, hmem⟩
    rw [hcontent hmem hbelongs]
    exact ⟨hne, hbelongs⟩
  · rintro ⟨hne, hbelongs⟩
    obtain ⟨read, hmem⟩ := hfile.mp ⟨hne, content, hbelongs⟩
    rw [← hcontent hmem hbelongs]
    exact hmem

/-- No name occurs twice in an archive, not even that of the manifest. -/
theorem nodup_names : ((manifestEntry m :: selected.map member).map Prod.fst).Nodup := by
  have hdirectory := text_ne_empty_of_files hfiles
  have hstep : ∀ relative ∈ files, ∀ c ∈ relative, c.IsStep := by
    intro relative hrelative
    obtain ⟨-, content, hbelongs⟩ := (mem_files_iff htree hfiles).mp hrelative
    obtain ⟨start, hreaches⟩ := hbelongs.reaches
    exact hreaches.isStep htree hdirectory
  have hmanifest : ∀ c ∈ [Path.Component.name "package.json"], c.IsStep := by
    intro c hc
    obtain rfl := List.mem_singleton.mp hc
    exact ⟨by decide, by decide, by decide, by decide⟩
  have hnames : (manifestEntry m :: selected.map member).map Prod.fst =
      ([.name "package.json"] :: files).map fun relative => root ++ Path.slashed relative := by
    rw [← hselected, List.map_cons, List.map_cons, List.map_map, List.map_map]
    rfl
  -- the selection leaves out the file of the manifest
  have hnodup : ([.name "package.json"] :: files).Nodup := by
    refine List.nodup_cons.mpr ⟨fun hmem => ?_, Path.nodup_of_ascending (ascending_files hfiles)⟩
    exact ((mem_files_iff htree hfiles).mp hmem).1 rfl
  rw [hnames]
  refine List.Nodup.map_on (fun relative hrelative other hother heq => ?_) hnodup
  have hsteps : ∀ file ∈ [.name "package.json"] :: files, ∀ c ∈ file, c.IsStep := by
    intro file hfile
    rcases List.mem_cons.mp hfile with rfl | hfile
    · exact hmanifest
    · exact hstep file hfile
  exact Path.slashed_injective (hsteps _ hrelative) (hsteps _ hother)
    ((String.append_right_inj root).mp heq)

end selected_files

/-- A failed selection ends the packing, if the package has a name and a version. -/
theorem pack_of_files_error {failure : Failure} (hname : m.name? ≠ none)
    (hversion : m.version? ≠ none) (h : Selection.files fs directory m = .error failure) :
    pack fs directory m = .error failure := by
  obtain ⟨name, hname⟩ := Option.ne_none_iff_exists'.mp hname
  obtain ⟨version, hversion⟩ := Option.ne_none_iff_exists'.mp hversion
  unfold pack
  rw [hname, hversion, h]
  rfl

/-! ### The contents of a package -/

/-- What a package contains. -/
structure Holds (t : Tarball) (fs : FileSystem) (directory : Path) (m : Manifest)
    (selected : List (Path.Components × Bytes)) : Prop where
  /-- The manifest comes first, then the files. -/
  entries : t.entries = manifestEntry m :: selected.map member
  /-- The files come in ascending order. -/
  ascending : Path.Ascending (selected.map Prod.fst)
  /-- No name occurs twice. -/
  nodup : t.names.Nodup
  /-- The files are those that belong to the package, with their contents. -/
  belongs : ∀ relative content, (relative, content) ∈ selected ↔
    relative ≠ [.name "package.json"] ∧ Belongs fs directory m relative content

theorem holds_of_pack (htree : fs.IsTree) {t : Tarball} (h : pack fs directory m = .ok t) :
    ∃ selected, t.Holds fs directory m selected := by
  obtain ⟨files, entries, archive, hfiles, hentries, ht, -⟩ := exists_of_pack h
  obtain ⟨selected, hselected, rfl, hread⟩ := exists_of_addFiles hentries
  refine ⟨selected, ht, ?_, ?_, fun relative content => ?_⟩
  · rw [hselected]
    exact ascending_files hfiles
  · unfold names
    rw [ht]
    exact nodup_names htree hfiles hselected
  · exact mem_iff_belongs htree hfiles hselected hread

/-- No file in a package has the name of the manifest. -/
theorem Holds.manifest_first {t : Tarball} {selected : List (Path.Components × Bytes)}
    (h : t.Holds fs directory m selected) : ∃ others, t.entries = manifestEntry m :: others ∧
      (manifestEntry m).1 ∉ others.map Prod.fst := by
  have hnames := h.nodup
  unfold names at hnames
  rw [h.entries] at hnames
  exact ⟨_, h.entries, (List.nodup_cons.mp hnames).1⟩

/-- A packed package contains its manifest and exactly the files that belong to it. If some entry of
    the list selects no file, the package is not packed, and the failure names the first such entry
    unless there is an earlier one. -/
theorem contents_of_pack (htree : fs.IsTree) :
    (∀ t, pack fs directory m = .ok t → ∃ selected, t.Holds fs directory m selected) ∧
    ∀ front entry back, Lists m (front ++ entry :: back) →
      (∀ relative content, ¬ Selects fs directory entry relative content) →
      (∀ t, pack fs directory m ≠ .ok t) ∧
      (m.name? ≠ none → m.version? ≠ none → WellWritten directory entry →
        (∀ earlier ∈ front, WellWritten directory earlier ∧
          ∃ relative content, Selects fs directory earlier relative content) →
        pack fs directory m = .error (.validation (.missingArtifact entry directory))) := by
  refine ⟨fun t h => holds_of_pack htree h, fun front entry back hlists hmissing => ⟨?_, ?_⟩⟩
  · intro t h
    obtain ⟨files, _, _, hfiles, -, -⟩ := exists_of_pack h
    obtain ⟨relative, content, hselects⟩ :=
      selects_of_files htree hfiles hlists entry (List.mem_append_right _ List.mem_cons_self)
    exact hmissing relative content hselects
  · intro hname hversion hentry hfront
    exact pack_of_files_error hname hversion
      (files_of_missing htree hlists hfront hentry hmissing)

/-- A directory with a file, a readme, and a link that belongs to no package. -/
def sampleFiles : FileSystem where
  entries := [(["p"], .directory), (["p", "a.js"], .file [0x61]), (["p", "README"], .file []),
    (["p", "link"], .link "a.js")]
  workingDirectory := ["p"]

/-- A manifest with the given list. -/
def sampleManifest (listed : List String) : Manifest :=
  ⟨[("name", .string "a"), ("version", .string "1.0.0"),
    ("files", .array (listed.map .string))]⟩

theorem contents_of_sample :
    (∃ t selected, pack sampleFiles ⟨"."⟩ (sampleManifest ["./a.js"]) = .ok t ∧
      t.Holds sampleFiles ⟨"."⟩ (sampleManifest ["./a.js"]) selected) ∧
    pack sampleFiles ⟨"."⟩ (sampleManifest ["a.js", "link"]) =
      .error (.validation (.missingArtifact "link" ⟨"."⟩)) := by
  have htree : sampleFiles.IsTree := by decide +kernel
  have hwritten : ∀ entry ∈ ["a.js", "link"], WellWritten ⟨"."⟩ entry := by
    have hliteral : ∀ entry ∈ ["a.js", "link"], Glob.hasWildcard entry = false := by
      decide +kernel
    intro entry hentry
    refine wellWritten_of_not_isPattern fun hpattern => ?_
    rw [← hasWildcard_iff, hliteral entry hentry] at hpattern
    cases hpattern
  constructor
  · obtain ⟨t, ht⟩ : ∃ t, pack sampleFiles ⟨"."⟩ (sampleManifest ["./a.js"]) = .ok t := by
      have hok : (pack sampleFiles ⟨"."⟩ (sampleManifest ["./a.js"])).isOk = true := by
        decide +kernel
      cases h : pack sampleFiles ⟨"."⟩ (sampleManifest ["./a.js"]) with
      | ok t => exact ⟨t, rfl⟩
      | error failure =>
        rw [h] at hok
        cases hok
    obtain ⟨selected, hselected⟩ := (contents_of_pack htree).1 t ht
    exact ⟨t, selected, ht, hselected⟩
  · have hlists : Lists (sampleManifest ["a.js", "link"]) (["a.js"] ++ "link" :: []) :=
      .given (by decide +kernel)
    have hfirst : resolve sampleFiles ⟨"."⟩ "a.js" = .ok [⟨"./a.js"⟩] := by rfl
    have hlink : resolve sampleFiles ⟨"."⟩ "link" = .ok [⟨"./link"⟩] := by rfl
    have hselects : ∃ relative content,
        Selects sampleFiles ⟨"."⟩ "a.js" relative content :=
      ⟨[.name "a.js"], (mem_selected_iff htree hfirst).mp (by decide +kernel)⟩
    have hmissing : ∀ relative content,
        ¬ Selects sampleFiles ⟨"."⟩ "link" relative content := by
      intro relative content h
      have hmem := (mem_selected_iff htree hlink).mpr ⟨content, h⟩
      have hnothing : [⟨"./link"⟩].flatMap (collect sampleFiles ⟨"."⟩) = [] := by decide +kernel
      rw [hnothing] at hmem
      cases hmem
    refine ((contents_of_pack htree).2 ["a.js"] "link" [] hlists hmissing).2
      (by decide +kernel) (by decide +kernel) (hwritten _ (by decide)) fun earlier hearlier => ?_
    obtain rfl := List.mem_singleton.mp hearlier
    exact ⟨hwritten _ (by decide), hselects⟩

end Tarball

end PackageRelease
