import PackageRelease.Proofs.FileSystem.Moving
import PackageRelease.Proofs.Manifest.RoundTrip

/-! # Storing a manifest

  A stored manifest is read again from its path. The key idea: the file beside it is written first
  and then moved to the name of the manifest. Both names stand in one directory, so nothing on the
  way to them has changed, and what is read is what was written. The one exception is a link beside
  the manifest that goes through the manifest itself: moved there, it goes round in a circle.
-/

namespace PackageRelease

open FileSystem

namespace Manifest

variable {fs after : FileSystem} {path : Path} {m : Manifest}

/-! ### The name beside the manifest -/

/-- The name of the file that is written first. -/
def besideName (name : String) : String := "." ++ name ++ ".tmp"

theorem besideName_spec {name : String} (h : IsName name) :
    IsName (besideName name) ∧ besideName name ≠ name := by
  have htext : (besideName name).toList = '.' :: (name.toList ++ ['.', 't', 'm', 'p']) := by
    unfold besideName
    rw [String.toList_append, String.toList_append]
    rfl
  have hlength : (besideName name).toList.length = name.toList.length + 5 := by
    rw [htext, List.length_cons, List.length_append]
    rfl
  have hne : ∀ other : String, other.toList.length < 5 → besideName name ≠ other := by
    intro other hother heq
    rw [heq] at hlength
    omega
  refine ⟨⟨hne "" (by decide), fun hslash => ?_, hne "." (by decide), hne ".." (by decide)⟩, ?_⟩
  · rw [htext] at hslash
    -- no character of the name is a slash, and none around it
    rcases List.mem_cons.mp hslash with hdot | hslash
    · revert hdot
      decide
    rcases List.mem_append.mp hslash with hname | hend
    · exact h.2.1 hname
    · revert hend
      decide
  · intro heq
    rw [heq] at hlength
    omega

/-- The path of the file that is written first differs in its last name only. -/
theorem temporaryPath_spec {front : List String} {name : String}
    (hpath : path.pieces = front ++ [name]) (hname : IsName name) :
    (temporaryPath path).above = path.above ∧
      (∃ others, (temporaryPath path).pieces = others ++ [besideName name]) ∧
      (temporaryPath path).isAbsolute = path.isAbsolute ∧
      (temporaryPath path).endsInSlash = false := by
  have hbeside := (besideName_spec hname).1
  obtain ⟨hfileName, habove, hpieces, habsolute, hslash⟩ :=
    Path.withFileName_spec hpath hname hbeside
  have htemporary : temporaryPath path = path.withFileName (besideName name) := by
    unfold temporaryPath
    rw [hfileName]
    rfl
  rw [htemporary]
  exact ⟨habove, hpieces, habsolute, hslash⟩

/-! ### What a store has done -/

/-- A renaming between two names of one directory. -/
theorem moved_of_rename {before : FileSystem} {directory : Location} {source target : String}
    {entry : Entry} (hne : source ≠ target)
    (hentry : before.get? (directory ++ [source]) = some entry) :
    Moved before ((before.erase (directory ++ [source])).put (directory ++ [target]) entry)
      directory source target := by
  have hput := get?_put (concat_ne_nil directory target) (before.erase (directory ++ [source])) entry
  have herase := get?_erase (concat_ne_nil directory source) before
  have hdifferent : directory ++ [source] ≠ directory ++ [target] := fun heq =>
    hne (concat_inj heq).2
  refine ⟨rfl, hne, ?_, ?_, fun location hold hnew => ?_⟩
  · rw [hput, if_neg hdifferent, herase, if_pos rfl]
  · rw [hput, if_pos rfl, hentry]
  · rw [hput, if_neg hnew, herase, if_neg hold]

/-- How a manifest was stored: a file was written beside it and moved to its name. -/
structure Stored (fs filled after : FileSystem) (path : Path) (content : Bytes)
    (directory place : Location) (name : String) : Prop where
  /-- The file system in between is a tree. -/
  grounded : filled.Grounded
  /-- The file beside the manifest was written. -/
  writes : Filled fs filled (temporaryPath path) place content
  /-- The path does not end in a slash. -/
  slash : path.endsInSlash = false
  /-- The file beside the manifest has its name in the directory. -/
  source : StandsAt filled (temporaryPath path) directory (besideName name)
  /-- The manifest has its name in the same directory. -/
  target : StandsAt filled path directory name
  /-- Both names are short enough. -/
  length : (besideName name).utf8ByteSize ≤ maxNameLength ∧ name.utf8ByteSize ≤ maxNameLength
  /-- The file was moved. -/
  moved : Moved filled after directory (besideName name) name

theorem exists_stored (h : fs.Grounded) (hstore : m.store fs path = (.ok (), after)) :
    ∃ filled directory place name,
      Stored fs filled after path (Text.encode m.render) directory place name := by
  unfold store replaceFile at hstore
  dsimp only at hstore
  cases hcreate : fs.create (temporaryPath path) with
  | error error =>
    rw [hcreate] at hstore
    cases hstore
  | ok opened =>
    obtain ⟨opened, place⟩ := opened
    rw [hcreate] at hstore
    dsimp only at hstore
    have hfilled := filled_of_create h hcreate (Text.encode m.render)
    have hgrounded := (h.create hcreate).append place (Text.encode m.render)
    generalize opened.append place (Text.encode m.render) = filled at hstore hfilled hgrounded
    cases hrename : filled.rename (temporaryPath path) path with
    | error error =>
      rw [hrename] at hstore
      cases hstore
    | ok moved =>
      rw [hrename] at hstore
      cases hstore
      obtain ⟨fromDirectory, source, directory, name, entry, hfrom, hto, hlength, ⟨-, hslash⟩, hentry,
        -, -, rfl⟩ := rename_eq_ok_iff.mp hrename
      have hsource := slot_iff_standsAt.mp hfrom
      have htarget := slot_iff_standsAt.mp hto
      obtain ⟨front, hpieces, -⟩ := htarget.front
      obtain ⟨habove, ⟨others, hothers⟩, habsolute, -⟩ := temporaryPath_spec hpieces htarget.isName
      -- both names stand in the directory to which the same names lead
      obtain rfl : source = besideName name := by
        obtain ⟨front, hfront, -⟩ := hsource.front
        exact (concat_inj (hfront.symm.trans hothers)).2
      obtain rfl : fromDirectory = directory := by
        have hleads := hsource.above
        unfold Path.origin at hleads
        rw [habove, habsolute] at hleads
        exact hleads.unique htarget.above
      have hne := (besideName_spec htarget.isName).2
      rw [if_neg fun heq => hne (concat_inj heq).2]
      exact ⟨filled, fromDirectory, place, name, hgrounded, hfilled, hslash, hsource, htarget,
        hlength, moved_of_rename hne hentry⟩

/-! ### Where the two names lead -/

section stored
variable {filled : FileSystem} {content previous : Bytes} {directory place : Location}
  {name : String} (hstored : Stored fs filled after path content directory place name)
include hstored

theorem Stored.origin_eq : (temporaryPath path).origin filled.workingDirectory =
    path.origin filled.workingDirectory := by
  obtain ⟨front, hpieces, -⟩ := hstored.target.front
  obtain ⟨-, -, habsolute, -⟩ := temporaryPath_spec hpieces hstored.target.isName
  unfold Path.origin
  rw [habsolute]

theorem Stored.origin_before : (temporaryPath path).origin fs.workingDirectory =
    path.origin filled.workingDirectory := by
  rw [← hstored.origin_eq, hstored.writes.ways.current]

theorem Stored.slash_beside : (temporaryPath path).endsInSlash = false := by
  obtain ⟨front, hpieces, -⟩ := hstored.target.front
  exact (temporaryPath_spec hpieces hstored.target.isName).2.2.2

/-- Where a path leads in any file system, by the names in front of its last name. -/
theorem Stored.leads_path_iff (other : FileSystem) {links : Nat} {here goal : Location} :
    Leads other links here path.steps goal ↔ Leads other links here (path.above ++ [name]) goal := by
  obtain ⟨front, hpieces, -⟩ := hstored.target.front
  exact leads_steps_iff hpieces hstored.target.isName hstored.slash

theorem Stored.leads_beside_iff (other : FileSystem) {links : Nat} {here goal : Location} :
    Leads other links here (temporaryPath path).steps goal ↔
      Leads other links here (path.above ++ [besideName name]) goal := by
  obtain ⟨front, hpieces, -⟩ := hstored.target.front
  obtain ⟨habove, ⟨others, hothers⟩, -, hslash⟩ :=
    temporaryPath_spec hpieces hstored.target.isName
  rw [← habove]
  exact leads_steps_iff hothers hstored.source.isName hslash

/-- From the directory, the name beside the manifest leads to the file that was written. -/
theorem Stored.beside_leads : ∃ links, Leads filled links directory [besideName name] place := by
  have hleads := hstored.writes.leads
  rw [hstored.origin_eq, hstored.leads_beside_iff] at hleads
  obtain ⟨directory', links, -, hfront, hback⟩ := hleads.cut
  obtain rfl := hstored.target.above.unique hfront
  exact ⟨links, hback⟩

/-- No path goes on behind the name beside the manifest. -/
theorem Stored.beside_ends : EndsPaths filled directory (besideName name) := by
  obtain ⟨_, hbeside⟩ := hstored.beside_leads
  exact hbeside.endsPaths hstored.grounded.tree hstored.target.directory hstored.writes.get?_place

/-- What was there before the store is seen after the file was written. -/
theorem Stored.seen_eq (location : Location) (hentry : fs.get? location ≠ none) :
    seen (filled.get? location) = seen (fs.get? location) :=
  seen_of_get?_eq hstored.writes.before hstored.writes.get?_eq location hentry

variable (hload : fs.readFile path = .ok previous)
include hload

/-- From the directory, the name of the manifest leads to the file from which it was read. -/
theorem Stored.name_leads : ∃ links old other, fs.find true path = .ok (old, .file previous) ∧
    Leads filled links directory [name] old ∧ filled.get? old = some (.file other) := by
  obtain ⟨old, hfind⟩ := readFile_eq_ok_iff.mp hload
  obtain ⟨hlocate, hold⟩ := find_eq_ok_iff.mp hfind
  obtain ⟨-, -, hwalk⟩ := locate_eq_ok_iff.mp hlocate
  have hleads := Leads.of_walk hstored.seen_eq hwalk nofun
  rw [← hstored.writes.ways.current, hstored.leads_path_iff] at hleads
  obtain ⟨directory', links, -, hfront, hback⟩ := hleads.cut
  rw [← hstored.target.above.unique hfront] at hback
  have hseen := hstored.seen_eq old (by rw [hold]; nofun)
  rw [hold] at hseen
  obtain ⟨other, hother⟩ := eq_file_of_seen hseen
  exact ⟨links, old, other, hfind, hback, hother⟩

/-- The move is not seen on the way to a directory. -/
theorem Stored.ways : KeepsWays filled after := by
  obtain ⟨_, old, _, -, hname, hold⟩ := hstored.name_leads hload
  exact hstored.moved.ways hstored.beside_ends
    (hname.endsPaths hstored.grounded.tree hstored.target.directory hold)

end stored

/-! ### Reading a stored manifest -/

variable {previous : Bytes}

/-- Whatever is read after a store is the stored manifest. -/
theorem content_of_store (h : fs.Grounded) (hload : fs.readFile path = .ok previous)
    (hstore : m.store fs path = (.ok (), after)) {content : Bytes}
    (hread : after.readFile path = .ok content) : content = Text.encode m.render := by
  obtain ⟨filled, directory, place, name, hstored⟩ := exists_stored h hstore
  obtain ⟨_, hbeside⟩ := hstored.beside_leads
  obtain ⟨_, old, _, -, hname, hold⟩ := hstored.name_leads hload
  have hplace := hstored.writes.get?_place
  -- the way to the directory is the same after the move
  have htarget := hstored.target.keep hstored.grounded.tree (hstored.ways hload)
  obtain ⟨goal, hfind⟩ := readFile_eq_ok_iff.mp hread
  obtain ⟨-, hleads, hgoal⟩ := leads_of_find hfind
  rw [hstored.leads_path_iff] at hleads
  obtain ⟨directory', _, -, hfront, hback⟩ := hleads.cut
  rw [← htarget.above.unique hfront] at hback
  exact hstored.moved.content_eq_of_target hstored.grounded.tree hstored.target.directory
    hstored.source.isName hbeside hplace hname hold hstored.target.isName hback hgoal

/-- Whether what the name beside a manifest leads to is found without the manifest. -/
def IsApart (fs : FileSystem) (path : Path) : Prop :=
  ∀ removed found, fs.remove path = .ok removed → fs.find true (temporaryPath path) = .ok found →
    removed.find true (temporaryPath path) = .ok found

section stored
variable {filled : FileSystem} {content : Bytes} {directory place : Location} {name : String}
  (hstored : Stored fs filled after path content directory place name)
  (hload : fs.readFile path = .ok previous) (hapart : IsApart fs path)
include hstored hload hapart

/-- If the file that was written is that of the manifest itself, the name beside the manifest leads
    there without the manifest. -/
theorem Stored.leads_apart_of_file {found : Bytes} (hfound : fs.get? place = some (.file found)) :
    Leads (filled.erase (directory ++ [name])) maxLinks (path.origin filled.workingDirectory)
      (temporaryPath path).steps place ∧ place ≠ directory ++ [name] := by
  obtain ⟨_, _, _, -, hname, hold⟩ := hstored.name_leads hload
  have hsteps := hstored.target.isName.2.2
  -- the file stood there before, so nothing that a path sees has changed by writing it
  have hsame : ∀ location, seen (fs.get? location) = seen (filled.get? location) := by
    intro location
    rw [hstored.writes.get?_eq]
    split
    · next heq =>
      rw [heq, hfound]
      rfl
    · rfl
  have hback : KeepsWays filled fs :=
    ⟨hstored.writes.ways.current.symm, fun directory name => .inl (hsame _)⟩
  have hleads : Leads fs maxLinks ((temporaryPath path).origin fs.workingDirectory)
      (temporaryPath path).steps place := by
    rw [← hstored.writes.ways.current]
    exact hstored.writes.leads.transfer fun _ _ _ _ _ _ => hsame _
  have hbeside : fs.find true (temporaryPath path) = .ok (place, .file found) :=
    find_of_leads hstored.writes.written.1 hstored.writes.written.2 hleads hfound
  -- the manifest can be removed, because it is no directory
  obtain ⟨entry, hentry, hremove⟩ : ∃ entry, fs.get? (directory ++ [name]) = some entry ∧
      entry ≠ .directory := by
    have hseen := hsame (directory ++ [name])
    have hsome := hname.isSome_get? hsteps.1 hsteps.2
    have hdirectory := ne_directory_of_leads hstored.target.isName hname hold
    cases hentry : fs.get? (directory ++ [name]) with
    | none =>
      rw [hentry] at hseen
      rw [eq_none_of_seen hseen.symm] at hsome
      cases hsome
    | some entry =>
      refine ⟨entry, rfl, ?_⟩
      rintro rfl
      rw [hentry] at hseen
      exact hdirectory (eq_directory_of_seen hseen.symm)
  have hstands := hstored.target.keep hstored.grounded.tree hback
  have hremoved := remove_eq_ok_iff.mpr
    ⟨_, _, hstands.find_false hstored.slash hstored.length.2 hentry, hremove, rfl⟩
  obtain ⟨-, hapartLeads, hapartEntry⟩ := leads_of_find (hapart _ _ hremoved hbeside)
  refine ⟨?_, (of_get?_erase hapartEntry).1⟩
  have horigin : (temporaryPath path).origin (fs.erase (directory ++ [name])).workingDirectory =
      path.origin filled.workingDirectory := hstored.origin_before
  rw [horigin] at hapartLeads
  refine hapartLeads.transfer fun _ _ _ _ _ _ => ?_
  rw [get?_erase (concat_ne_nil directory name), get?_erase (concat_ne_nil directory name)]
  split
  · rfl
  · exact (hsame _).symm

/-- The name beside the manifest leads to the file that was written also without the manifest. -/
theorem Stored.leads_apart :
    Leads (filled.erase (directory ++ [name])) maxLinks (path.origin filled.workingDirectory)
        (path.above ++ [besideName name]) place ∧
      (filled.erase (directory ++ [name])).get? place = some (.file content) := by
  obtain ⟨_, old, other, hfind, hname, hold⟩ := hstored.name_leads hload
  have hplace := hstored.writes.get?_place
  have hkept : place ≠ directory ++ [name] →
      (filled.erase (directory ++ [name])).get? place = some (.file content) := by
    intro hne
    rw [get?_erase (concat_ne_nil directory name), if_neg hne, hplace]
  have hleads := hstored.writes.leads
  have htargetName := hstored.target.isName
  rw [hstored.origin_eq] at hleads
  rw [← hstored.leads_beside_iff]
  by_cases hdifferent : place = old
  · subst hdifferent
    obtain ⟨-, -, hfound⟩ := leads_of_find hfind
    obtain ⟨hapartLeads, hne⟩ := hstored.leads_apart_of_file hload hapart hfound
    exact ⟨hapartLeads, hkept hne⟩
  · -- the two names lead to different files, so the way to one does not go through the other
    refine ⟨Leads.erase hstored.grounded.tree hstored.target.directory hname hold hleads hdifferent,
      hkept ?_⟩
    rintro rfl
    exact hdifferent (hname.behind_file htargetName.2.2.1 htargetName.2.2.2 hplace).2.symm

end stored

/-- A stored manifest is read if the name beside it led to the file that was written without going
    through the manifest. -/
theorem Stored.readFile {filled : FileSystem} {content : Bytes} {directory place : Location}
    {name : String} (hstored : Stored fs filled after path content directory place name)
    (hleads : Leads (filled.erase (directory ++ [name])) maxLinks
      (path.origin filled.workingDirectory) (path.above ++ [besideName name]) place)
    (hplace : (filled.erase (directory ++ [name])).get? place = some (.file content)) :
    after.readFile path = .ok content := by
  have hways := hstored.moved.ways_erase hstored.beside_ends hstored.target.isName
  -- both names are asked for in the directory with the same number of links left
  obtain ⟨directory', _, -, hfront, -⟩ := hleads.cut
  obtain rfl := hstored.target.above.unique hfront.of_erase
  have hdirectory : (filled.erase (directory ++ [name])).get? directory = some .directory := by
    rw [get?_erase (concat_ne_nil directory name), if_neg (by simp), hstored.target.directory]
  obtain ⟨left, hcut, hjoin⟩ := hfront.append_transfer hdirectory
    fun _ _ _ _ _ hway => hways.same hdirectory hway
  obtain ⟨goal, hgoal, hfile⟩ := hstored.moved.leads hstored.grounded.tree hstored.target.directory
    hstored.source.isName (hcut _ _ hleads) hplace hstored.target.isName hstored.length.2
  refine readFile_eq_ok_iff.mpr ⟨goal, find_of_leads hstored.target.written.1
    hstored.target.written.2 ?_ hfile⟩
  rw [hstored.moved.current, hstored.leads_path_iff]
  exact hjoin _ _ hgoal

theorem readFile_of_store (h : fs.Grounded) (hload : fs.readFile path = .ok previous)
    (hstore : m.store fs path = (.ok (), after)) (hapart : IsApart fs path) :
    after.readFile path = .ok (Text.encode m.render) := by
  obtain ⟨filled, directory, place, name, hstored⟩ := exists_stored h hstore
  obtain ⟨hleads, hplace⟩ := hstored.leads_apart hload hapart
  exact hstored.readFile hleads hplace

/-! ### Loading a manifest -/

/-- A manifest that was loaded was read from a text. -/
theorem exists_of_load (h : load fs path = .ok m) : ∃ text content,
    fs.readFile path = .ok content ∧ Text.decode? content = some text ∧ parse text path = .ok m := by
  unfold load at h
  cases htext : fs.readText path with
  | error cause =>
    rw [htext] at h
    cases h
  | ok text =>
    rw [htext] at h
    obtain ⟨content, hread, hdecode⟩ := bind_eq_ok.mp htext
    cases hcontent : Text.decode? content with
    | none =>
      rw [hcontent] at hdecode
      cases hdecode
    | some decoded =>
      rw [hcontent] at hdecode
      cases hdecode
      exact ⟨text, content, hread, hcontent, h⟩

theorem fits_of_load (h : load fs path = .ok m) : m.toJson.Fits 0 := by
  obtain ⟨_, _, -, -, hparse⟩ := exists_of_load h
  exact fits_of_parse hparse

/-- What is loaded is what the text of the file is read as. -/
theorem load_eq_parse {text : String} (hread : fs.readFile path = .ok (Text.encode text)) :
    load fs path = parse text path := by
  have htext : fs.readText path = .ok text := by
    refine bind_eq_ok.mpr ⟨_, hread, ?_⟩
    rw [Text.decode?_encode]
    rfl
  unfold load
  rw [htext]

/-- A manifest is loaded from its own text. -/
theorem load_of_readFile (hread : fs.readFile path = .ok (Text.encode m.render))
    (hfits : m.toJson.Fits 0) (hdoubles : m.toJson.DoublesReadBack) : load fs path = .ok m :=
  (load_eq_parse hread).trans (parse_render hfits hdoubles path)

/-- Whatever is loaded after a store is the stored manifest. -/
theorem eq_of_load (h : fs.Grounded) (hload : fs.readFile path = .ok previous)
    (hstore : m.store fs path = (.ok (), after)) (hfits : m.toJson.Fits 0)
    (hdoubles : m.toJson.DoublesReadBack) {found : Manifest} (hfound : load after path = .ok found) :
    found = m := by
  obtain ⟨_, content, hread, -, -⟩ := exists_of_load hfound
  obtain rfl := content_of_store h hload hstore hread
  exact Except.ok.inj (hfound.symm.trans (load_of_readFile hread hfits hdoubles))

/-! ### Storing a manifest again -/

theorem store_of_rename {opened moved : FileSystem} {place : Location}
    (hcreate : fs.create (temporaryPath path) = .ok (opened, place))
    (hrename : (opened.append place (Text.encode m.render)).rename (temporaryPath path) path =
      .ok moved) : m.store fs path = (.ok (), moved) := by
  unfold store replaceFile
  dsimp only
  rw [hcreate]
  dsimp only
  rw [hrename]

/-- After a manifest was stored the next one can be stored. -/
theorem store_again (h : fs.Grounded) (hload : fs.readFile path = .ok previous)
    (hstore : m.store fs path = (.ok (), after)) (hapart : IsApart fs path) (next : Manifest) :
    ∃ again, next.store after path = (.ok (), again) ∧
      again.readFile path = .ok (Text.encode next.render) := by
  obtain ⟨filled, directory, place, name, hstored⟩ := exists_stored h hstore
  have hafter := grounded_of_store h hstore
  have hways := hstored.ways hload
  have hsource := hstored.source.keep hstored.grounded.tree hways
  have htarget := hstored.target.keep hstored.grounded.tree hways
  have hslash := hstored.slash_beside
  -- the name beside the manifest is free now, so a file is written under it
  have hmissing := hsource.locate_missing hslash hstored.length.1 hstored.moved.gone
  have hcreate : after.create (temporaryPath path) =
      .ok (after.put (directory ++ [besideName name]) (.file []), directory ++ [besideName name]) :=
    create_eq_ok_iff.mpr ⟨hslash, rfl, _, hmissing, rfl, nofun⟩
  have hfilled := filled_of_create hafter hcreate (Text.encode next.render)
  -- nor is the name of the manifest that of a directory
  have hfree : after.get? (directory ++ [name]) ≠ some .directory := by
    obtain ⟨_, hbeside⟩ := hstored.beside_leads
    rw [hstored.moved.moved]
    exact ne_directory_of_leads hstored.source.isName hbeside hstored.writes.get?_place
  have hdifferent : directory ++ [besideName name] ≠ directory ++ [name] := fun heq =>
    (besideName_spec htarget.isName).2 (concat_inj heq).2
  have hrename := rename_eq_ok_iff.mpr ⟨directory, besideName name, directory, name, _,
    slot_iff_standsAt.mpr (hsource.keep hafter.tree hfilled.ways),
    slot_iff_standsAt.mpr (htarget.keep hafter.tree hfilled.ways), hstored.length,
    ⟨hslash, hstored.slash⟩, (hfilled.get?_eq _).trans (if_pos rfl), nofun,
    by rw [hfilled.get?_eq, if_neg hdifferent.symm]; exact hfree, rfl⟩
  have hagain := store_of_rename hcreate hrename
  refine ⟨_, hagain,
    readFile_of_store hafter (readFile_of_store h hload hstore hapart) hagain ?_⟩
  -- there is nothing beside the manifest that could go through it
  intro removed found _ hfound
  obtain ⟨hlocate, -⟩ := find_eq_ok_iff.mp hfound
  rw [hmissing] at hlocate
  cases hlocate

/-! ### An example -/

/-- A directory with an empty manifest and further entries. -/
def sampleFiles (further : List (Location × Entry)) : FileSystem where
  entries := [(["p"], .directory), (["p", "package.json"], .file (Text.encode "\x7b\x7d"))] ++ further
  workingDirectory := []

end Manifest

end PackageRelease
