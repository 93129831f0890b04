import PackageRelease.Proofs.FileSystem.Following
import PackageRelease.Proofs.Package.Contents

/-! # Where the files of a package come from

  A package is meant to hold what lies in its directory. The key idea: a file is found in two parts.
  The *front* is named by an entry of the list and is followed as any path is, links included; from
  the place where it leads the file is found by going down, and no link is followed there. So a file
  from outside needs a front that leaves the directory, and it can do so in two ways only: it has a
  `..`, or it goes through a link that leads out.
-/

namespace PackageRelease

/-! ### Leaving a directory -/

namespace FileSystem

variable {fs : FileSystem} {home : Location}

/-- Whether names that start in a directory go through a link in it that leads out of it. -/
def Strays (fs : FileSystem) (home : Location) (names : List String) : Prop :=
  ∃ front name back place target goal,
    names = front ++ name :: back ∧ fs.Leads maxLinks home front place ∧ home <+: place ∧
      fs.get? (place ++ [name]) = some (.link target) ∧ fs.Leads maxLinks place [name] goal ∧
      ¬ home <+: goal

/-- Names that go neither up nor out stay in the directory. The induction is on the names that are
    left, and so far they have led to a place in the directory. -/
theorem within_or_strays {front names : List String} {place goal : Location}
    (hfront : fs.Leads maxLinks home front place) (hplace : home <+: place)
    (hnames : ".." ∉ names) (h : fs.Leads maxLinks home (front ++ names) goal) :
    home <+: goal ∨ fs.Strays home (front ++ names) := by
  induction names generalizing front place with
  | nil =>
    rw [List.append_nil] at h
    rw [← hfront.unique h]
    exact .inl hplace
  | cons name rest ih =>
    obtain ⟨hparent, hrest⟩ := not_or.mp (mt List.mem_cons.mpr hnames)
    have hsplit : front ++ name :: rest = (front ++ [name]) ++ rest := by
      rw [List.append_assoc, List.singleton_append]
    have hwhole := h
    rw [hsplit] at hwhole
    obtain ⟨next, -, -, hnext, -⟩ := hwhole.cut
    obtain ⟨place', left, hleft, hplace', hname⟩ := hnext.cut
    obtain rfl := hfront.unique hplace'
    by_cases hwithin : home <+: next
    · rw [hsplit]
      exact ih hnext hwithin hrest hwhole
    · -- only a link can lead away from the place
      refine .inr ⟨front, name, rest, place, ?_⟩
      cases hname with
      | dot _ hnothing =>
        cases hnothing
        exact absurd hplace hwithin
      | parent hup => exact absurd hup.symm hparent
      | directory _ _ _ _ hnothing =>
        cases hnothing
        exact absurd (hplace.trans (List.prefix_append _ _)) hwithin
      | file => exact absurd (hplace.trans (List.prefix_append _ _)) hwithin
      | @link _ _ _ _ target _ hdot hparent hlength hentry htarget hgoal =>
        exact ⟨target, next, rfl, hfront, hplace, hentry,
          (Leads.link hdot hparent hlength hentry htarget hgoal).mono hleft, hwithin⟩

end FileSystem

/-! ### The two parts of a way -/

namespace Selection

variable {fs : FileSystem} {directory : Path} {m : Manifest} {home : Location}

/-- How a file is found from a directory: by a front, and from there down through some names. -/
structure Found (fs : FileSystem) (home : Location) (front : Path.Components) (names : List String)
    (place : Location) (content : Bytes) : Prop where
  /-- The front leads to a place. -/
  leads : fs.Leads FileSystem.maxLinks home front.steps place
  /-- Below that place, or right there, stands the file. -/
  file : fs.get? (place ++ names) = some (.file content)

/-- What a path leads to is found from a directory by what the path has behind that directory. If
    the path ends before the directory, the file is found by going down only. -/
theorem Reaches.found (htree : fs.IsTree)
    (hhome : fs.find true directory = .ok (home, .directory)) {start : Path}
    {relative : Path.Components} {content : Bytes}
    (h : Reaches fs start (directory.components ++ relative) content) :
    ∃ front names place, relative = front ++ names.map .name ∧
      (front = [] ∨ start.components = directory.components ++ front) ∧
      Found fs home front names place content := by
  have hdirectory := (FileSystem.leads_of_find hhome).1
  have horigin := origin_eq_of_head? (h.head?_eq htree hdirectory) fs.workingDirectory
  have hhome' := leads_steps_components hhome
  rw [← horigin] at hhome'
  -- a way that begins with the directory goes through it
  have hbehind : ∀ {front place},
      fs.Leads FileSystem.maxLinks (start.origin fs.workingDirectory)
        (directory.components ++ front : Path.Components).steps place →
      fs.Leads FileSystem.maxLinks home front.steps place := by
    intro front place hleads
    rw [Path.steps_append] at hleads
    obtain ⟨home', left, hleft, hfront, hback⟩ := hleads.cut
    obtain rfl := hhome'.unique hfront
    exact hback.mono hleft
  generalize hcomponents : directory.components ++ relative = components at h
  cases h with
  | @itself location _ hfind =>
    have hfind := FileSystem.find_true_of_file hfind
    have hleads := leads_steps_components hfind
    rw [← hcomponents] at hleads
    refine ⟨relative, [], location, (List.append_nil _).symm, .inr hcomponents.symm,
      hbehind hleads, ?_⟩
    rw [List.append_nil]
    exact (FileSystem.leads_of_find hfind).2.2
  | @below location names _ hfind hunder =>
    have hstart := leads_steps_components hfind
    rcases List.append_eq_append_iff.mp hcomponents with ⟨between, hstart', hrelative⟩ | h
    · -- the path ends behind the directory
      rw [hstart'] at hstart
      exact ⟨between, names, location, hrelative, .inr hstart', hbehind hstart, hunder.get?_eq⟩
    · -- the path ends before the directory, which is itself found by going down
      obtain ⟨between, hdirectory', hnames⟩ := h
      obtain ⟨down, below, rfl, rfl, rfl⟩ := List.map_eq_append_iff.mp hnames
      refine ⟨[], below, home, rfl, .inl rfl, .here, ?_⟩
      rw [hdirectory', Path.steps_append, Path.steps_map_name] at hhome'
      obtain ⟨location', left, -, hlocation, hdown⟩ := hhome'.cut
      obtain rfl := hstart.unique hlocation
      have hfile := hunder.get?_eq
      rw [← List.append_assoc] at hfile
      -- whatever stands on the way down to the file is a directory, or the file itself
      obtain ⟨entry, hentry, hlink⟩ : ∃ entry, fs.get? (location ++ down) = some entry ∧
          ∀ target, entry ≠ .link target := by
        by_cases hbelow : below = []
        · rw [hbelow, List.append_nil] at hfile
          exact ⟨_, hfile, nofun⟩
        · exact ⟨_, htree.directory_of_append hfile hbelow, nofun⟩
      rw [hdown.unique (htree.leads_down left hentry hlink)]
      exact hfile

/-- A file that belongs to a package is found by a front that an entry of the list names, or without
    any. -/
theorem Belongs.found (htree : fs.IsTree)
    (hhome : fs.find true directory = .ok (home, .directory)) {relative : Path.Components}
    {content : Bytes} (h : Belongs fs directory m relative content) :
    ∃ front names place, relative = front ++ names.map .name ∧
      (front = [] ∨ ∃ listed entry start, Lists m listed ∧ entry ∈ listed ∧
        StandsFor fs directory entry start ∧ start.components = directory.components ++ front) ∧
      Found fs home front names place content := by
  cases h with
  | selected hlists hentry hselects =>
    obtain ⟨-, start, hstands, hreaches⟩ := hselects
    obtain ⟨front, names, place, hrelative, hfront, hfound⟩ := hreaches.found htree hhome
    exact ⟨front, names, place, hrelative,
      hfront.imp_right fun hstart => ⟨_, _, start, hlists, hentry, hstands, hstart⟩, hfound⟩
  | @standing location name _ _ hdirectory hfile =>
    rw [hhome] at hdirectory
    cases hdirectory
    exact ⟨[], [name], home, rfl, .inl rfl, .here, hfile⟩

theorem parent_mem_of_mem_steps {components : Path.Components} (hstep : ∀ c ∈ components, c.IsStep)
    (h : ".." ∈ components.steps) : .parent ∈ components := by
  obtain ⟨c, hc, hname⟩ := List.mem_filterMap.mp h
  cases c with
  | root => cases hname
  | current => cases hname
  | parent => exact hc
  | name text =>
    -- no name is a `..`
    cases hname
    exact absurd rfl (hstep _ hc).2.2.2

end Selection

/-! ### Names in an archive -/

namespace Tar

/-- A name that fits has no `..`. -/
theorem parent_notMem_of_fits {room : Nat} {written : Bytes} {components : Path.Components}
    {name : Bytes} (h : place false room written components = .fits name) :
    .parent ∉ components := by
  induction components generalizing written with
  | nil => exact List.not_mem_nil
  | cons component rest ih =>
    have hcons : component ≠ .parent → .parent ∉ rest → .parent ∉ component :: rest :=
      fun hfirst hrest hmem => (List.mem_cons.mp hmem).elim (fun h => hfirst h.symm) hrest
    cases component with
    | root => cases h
    | current =>
      rw [place] at h
      split at h
      · next hlast =>
        -- a single `.` fits as it is
        obtain rfl := List.isEmpty_iff.mp hlast.2
        exact hcons nofun List.not_mem_nil
      · exact hcons nofun (ih h)
    | parent =>
      rw [place, if_pos ⟨rfl, rfl⟩] at h
      · cases h
      · nofun
      · nofun
    | name text =>
      rw [place, if_neg (fun hparent => by cases hparent.1)] at h
      · dsimp only at h
        generalize (if written.isEmpty = true then [] else [0x2F] : Bytes) = slash at h
        split at h
        · cases h
        split at h
        · cases h
        exact hcons nofun (ih h)
      · nofun
      · nofun

/-- A file whose name is shorter than the field for it is refused if there is a `..` in the name. -/
theorem parent_notMem_of_entry {name : String} {content section' : Bytes}
    (h : entry name content = .ok section')
    (hshort : (Text.encode name).length < Field.name.width) :
    .parent ∉ Path.components ⟨name⟩ := by
  unfold entry at h
  dsimp only at h
  cases hplace : place false Field.name.width [] (Path.components ⟨name⟩) with
  | fits short => exact parent_notMem_of_fits hplace
  | refused written reason =>
    rw [hplace] at h
    dsimp only at h
    rw [if_pos hshort] at h
    cases h

end Tar

namespace Tarball

variable {fs : FileSystem} {directory : Path} {m : Manifest}

/-- Each file of an archive has its section there. -/
theorem entry_of_addFiles {files : List Path.Components} {entries : List (String × Bytes)}
    {archive : Bytes} (h : addFiles fs directory files = .ok (entries, archive)) :
    ∀ file ∈ entries, ∃ part, Tar.entry file.1 file.2 = .ok part := by
  induction files generalizing entries archive with
  | nil =>
    cases h
    exact nofun
  | cons file files ih =>
    obtain ⟨content, first, others, tail, -, hfirst, hrest, rfl, -⟩ := addFiles_cons_eq_ok h
    intro other hother
    rcases List.mem_cons.mp hother with rfl | hother
    · exact ⟨first, hfirst⟩
    · exact ih hrest other hother

/-! ### Confinement -/

/-- Where a package has its files from. -/
structure Confined (t : Tarball) (fs : FileSystem) (directory : Path) (m : Manifest)
    (home : Location) : Prop where
  /-- The directory that is packed. -/
  home_eq : fs.find true directory = .ok (home, .directory)
  /-- Each file beside the manifest is found in two parts: a front that an entry of the list names,
      and names on the way down from there, where no link is followed. The file lies in the
      directory unless its front has a `..` or goes through a link in the directory that leads out
      of it. -/
  files : ∀ file ∈ t.entries, file.1 ≠ "package/package.json" → ∃ front names place,
    file.1 = root ++ Path.slashed (front ++ names.map .name) ∧
    (front = [] ∨ ∃ listed entry start, Selection.Lists m listed ∧ entry ∈ listed ∧
      Selection.StandsFor fs directory entry start ∧
      start.components = directory.components ++ front) ∧
    Selection.Found fs home front names place file.2 ∧
    (home <+: place ++ names ∨ .parent ∈ front ∨ fs.Strays home front.steps)
  /-- A name with less than 100 octets has no `..`. -/
  names : ∀ name ∈ t.names, (Text.encode name).length < 100 → .parent ∉ Path.components ⟨name⟩

/-- A package has its files from its directory, as far as the entries of its list stay there. -/
theorem confined_of_pack (htree : fs.IsTree) {t : Tarball} (h : pack fs directory m = .ok t) :
    ∃ home, t.Confined fs directory m home := by
  obtain ⟨files, entries, archive, hfiles, hentries, ht, -⟩ := exists_of_pack h
  obtain ⟨selected, hselected, hmembers, hread⟩ := exists_of_addFiles hentries
  obtain ⟨_, _, home, -, -, hhome, -⟩ := Selection.files_eq_ok_iff.mp hfiles
  have hdirectory := text_ne_empty_of_files hfiles
  refine ⟨home, hhome, fun file hfile hname => ?_, fun name hname hshort => ?_⟩
  · rw [ht, hmembers] at hfile
    rcases List.mem_cons.mp hfile with rfl | hfile
    · exact absurd rfl hname
    obtain ⟨⟨relative, content⟩, hmem, rfl⟩ := List.mem_map.mp hfile
    have hbelongs := ((mem_iff_belongs htree hfiles hselected hread).mp hmem).2
    obtain ⟨start, hreaches⟩ := hbelongs.reaches
    have hstep := hreaches.isStep htree hdirectory
    obtain ⟨front, names, place, rfl, hfront, hfound⟩ := hbelongs.found htree hhome
    refine ⟨front, names, place, rfl, hfront, hfound, ?_⟩
    by_cases hparent : .parent ∈ front
    · exact .inr (.inl hparent)
    -- without a `..` only a link can lead out
    have hsteps : ".." ∉ front.steps := fun hmem => hparent
      (Selection.parent_mem_of_mem_steps (fun c hc => hstep c (List.mem_append_left _ hc)) hmem)
    rcases FileSystem.within_or_strays .here (List.prefix_refl home) hsteps hfound.leads with
      hwithin | hstrays
    · exact .inl (hwithin.trans (List.prefix_append _ _))
    · exact .inr (.inr hstrays)
  · have hmanifest : .parent ∉ Path.components ⟨"package/package.json"⟩ := by decide +kernel
    unfold Tarball.names at hname
    rw [ht] at hname
    rcases List.mem_cons.mp hname with rfl | hname
    · exact hmanifest
    · obtain ⟨file, hfile, rfl⟩ := List.mem_map.mp hname
      obtain ⟨part, hpart⟩ := entry_of_addFiles hentries file hfile
      exact Tar.parent_notMem_of_entry hpart hshort

/-- A directory to be packed with a link to the directory beside it, where a key lies. -/
def linkedFiles : FileSystem where
  entries := [(["p"], .directory), (["p", "link"], .link "../o"),
    (["p", String.ofList (List.replicate 23 '📦')], .directory),
    (["o"], .directory), (["o", "key"], .file [0x6B])]
  workingDirectory := ["p"]

/-- An entry that goes up behind a long name. -/
def longEntry : String := String.ofList (List.replicate 23 '📦') ++ "/../../o/key"

theorem confined_of_linked : ∃ t home, linkedFiles.IsTree ∧
    pack linkedFiles ⟨"."⟩ (sampleManifest ["link"]) = .ok t ∧
      t.Confined linkedFiles ⟨"."⟩ (sampleManifest ["link"]) home := by
  have htree : linkedFiles.IsTree := by decide +kernel
  have hok : (pack linkedFiles ⟨"."⟩ (sampleManifest ["link"])).isOk = true := by decide +kernel
  cases ht : pack linkedFiles ⟨"."⟩ (sampleManifest ["link"]) with
  | error failure =>
    rw [ht] at hok
    cases hok
  | ok t =>
    obtain ⟨home, hconfined⟩ := confined_of_pack htree ht
    exact ⟨t, home, htree, rfl, hconfined⟩

/-- An entry that is a link packs a key from outside, and so does an entry with a `..` behind 100
    octets of its name: no file in the directory has that content. -/
theorem outside_of_pack : linkedFiles.IsTree ∧
    linkedFiles.find true ⟨"."⟩ = .ok (["p"], .directory) ∧
    (∀ location, ["p"] <+: location → linkedFiles.get? location ≠ some (.file [0x6B])) ∧
    (∃ t, pack linkedFiles ⟨"."⟩ (sampleManifest ["link"]) = .ok t ∧
      ("package/link/key", [0x6B]) ∈ t.entries) ∧
    ∃ t, pack linkedFiles ⟨"."⟩ (sampleManifest [longEntry]) = .ok t ∧
      (root ++ longEntry, [0x6B]) ∈ t.entries ∧ .parent ∈ Path.components ⟨root ++ longEntry⟩ := by
  have hfound : ∀ m file, ((pack linkedFiles ⟨"."⟩ m).toOption.any fun t => t.entries.contains file) =
      true → ∃ t, pack linkedFiles ⟨"."⟩ m = .ok t ∧ file ∈ t.entries := by
    intro m file h
    cases ht : pack linkedFiles ⟨"."⟩ m with
    | error failure =>
      rw [ht] at h
      cases h
    | ok t =>
      rw [ht] at h
      exact ⟨t, rfl, List.contains_iff_mem.mp h⟩
  refine ⟨by decide +kernel, by decide +kernel, fun location hlocation hkey => ?_,
    hfound _ _ (by decide +kernel), ?_⟩
  · -- the key is the content of one entry only
    have hentries : ∀ found ∈ linkedFiles.entries, found.2 = .file [0x6B] → ¬ ["p"] <+: found.1 := by
      decide +kernel
    unfold FileSystem.get? at hkey
    split at hkey
    · cases hkey
    · exact hentries _ (FileSystem.mem_of_lookup hkey) rfl hlocation
  · obtain ⟨t, ht, hkey⟩ := hfound (sampleManifest [longEntry]) (root ++ longEntry, [0x6B])
      (by decide +kernel)
    exact ⟨t, ht, hkey, by decide +kernel⟩

end Tarball

end PackageRelease
