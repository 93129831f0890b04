import PackageRelease.Proofs.FileSystem.Following
import PackageRelease.Proofs.Path.FileName

/-! # Writing a file and moving it

  A file is replaced by writing another one beside it and moving that one to its name. The key idea:
  both names stand in one directory and end all paths through them, so every other path leads to
  where it led before. What is found under the name afterwards is what the name beside it led to.
-/

namespace PackageRelease

namespace FileSystem

variable {fs filled : FileSystem}

/-! ### Last names -/

/-- Where the last name of a path stands: in a directory to which the other names lead. -/
structure StandsAt (fs : FileSystem) (p : Path) (directory : Location) (name : String) : Prop where
  /-- The path has a text of a length that can be followed. -/
  written : p.text ≠ "" ∧ p.text.utf8ByteSize < pathLengthLimit
  /-- The other names lead to the directory. -/
  front : ∃ front, p.pieces = front ++ [name] ∧
    Leads fs maxLinks (p.origin fs.workingDirectory) front directory
  /-- The directory is one. -/
  directory : fs.get? directory = some .directory
  /-- The name can be that of an entry. -/
  isName : IsName name

theorem slot_iff_standsAt {p : Path} {directory : Location} {name : String} :
    fs.slot p = .ok (directory, some name) ↔ StandsAt fs p directory name := by
  rw [slot_eq_ok_iff]
  constructor
  · rintro ⟨hwritten, ⟨front, hpieces, hwalk⟩, hdirectory, hname⟩
    exact ⟨hwritten, ⟨front, hpieces, leads_of_walk hwalk⟩, hdirectory, hname⟩
  · rintro ⟨hwritten, ⟨front, hpieces, hleads⟩, hdirectory, hname⟩
    exact ⟨hwritten, ⟨front, hpieces, hleads.walk_eq⟩, hdirectory, hname⟩

/-- A path leads where the names in front of its last name lead with that name, dots or not. -/
theorem leads_steps_iff {p : Path} {front : List String} {name : String}
    (hpieces : p.pieces = front ++ [name]) (hname : IsName name) (hslash : p.endsInSlash = false)
    {links : Nat} {here goal : Location} :
    Leads fs links here p.steps goal ↔ Leads fs links here (p.above ++ [name]) goal := by
  have hsteps : p.steps = front ++ [name] := by
    unfold Path.steps
    rw [hslash, if_neg Bool.false_ne_true, List.append_nil, hpieces]
  have habove : p.above = front.filter (· ≠ ".") := by
    unfold Path.above
    rw [hpieces, List.dropLast_concat]
  rw [hsteps, habove]
  constructor
  · intro h
    have hdots := undotted_filter (front ++ [name])
    rw [List.filter_append, List.filter_cons_of_pos (by simpa using hname.2.2.1)] at hdots
    exact h.undot hdots
  · exact fun h => h.redot (padded_concat front name)

section last_names
variable {p : Path} {directory : Location} {name : String}

theorem StandsAt.above (h : StandsAt fs p directory name) :
    Leads fs maxLinks (p.origin fs.workingDirectory) p.above directory := by
  obtain ⟨front, hpieces, hleads⟩ := h.front
  unfold Path.above
  rw [hpieces, List.dropLast_concat]
  exact hleads.undot (undotted_filter front)

/-- The last name stands where it stood after a change that is not seen on the way to it. -/
theorem StandsAt.keep {later : FileSystem} (h : StandsAt fs p directory name)
    (htree : fs.IsTree) (hways : KeepsWays fs later) : StandsAt later p directory name := by
  obtain ⟨front, hpieces, hleads⟩ := h.front
  refine ⟨h.written, ⟨front, hpieces, ?_⟩, hways.directory htree h.directory, h.isName⟩
  rw [hways.current]
  exact hways.leads hleads h.directory

/-- To find a path is to look for its last name in the directory, with some links left. -/
theorem StandsAt.exists_walk (h : StandsAt fs p directory name) (hslash : p.endsInSlash = false)
    (through : Bool) : ∃ left, ∀ spot, fs.walk through left directory [name] = .ok spot →
      fs.locate through p = .ok spot := by
  obtain ⟨front, hpieces, hleads⟩ := h.front
  obtain ⟨left, hwalk⟩ := @Leads.walk_append fs through _ _ _ _ [name] hleads
    (.inr ⟨List.cons_ne_nil _ _, h.directory⟩)
  refine ⟨left, fun spot hspot => locate_eq_ok_iff.mpr ⟨h.written.1, h.written.2, ?_⟩⟩
  unfold Path.steps
  rw [hslash, if_neg Bool.false_ne_true, List.append_nil, hpieces, hwalk, hspot]

/-- Without following a link at the end, a path leads to its last name in the directory. -/
theorem StandsAt.locate_false (h : StandsAt fs p directory name) (hslash : p.endsInSlash = false)
    (hlength : name.utf8ByteSize ≤ maxNameLength) :
    fs.locate false p = .ok (Spot.under fs directory name) := by
  obtain ⟨left, hlocate⟩ := h.exists_walk hslash false
  refine hlocate _ ?_
  rw [walk_last fs left directory h.isName.2.2.1 h.isName.2.2.2, if_neg (Nat.not_lt.mpr hlength)]

theorem StandsAt.find_false (h : StandsAt fs p directory name) (hslash : p.endsInSlash = false)
    (hlength : name.utf8ByteSize ≤ maxNameLength) {entry : Entry}
    (hentry : fs.get? (directory ++ [name]) = some entry) :
    fs.find false p = .ok (directory ++ [name], entry) := by
  have hlocate := h.locate_false hslash hlength
  unfold Spot.under at hlocate
  rw [hentry] at hlocate
  exact find_eq_ok_iff.mpr ⟨hlocate, hentry⟩

/-- A path to a free name in a directory has a missing spot. -/
theorem StandsAt.locate_missing (h : StandsAt fs p directory name) (hslash : p.endsInSlash = false)
    (hlength : name.utf8ByteSize ≤ maxNameLength)
    (hfree : fs.get? (directory ++ [name]) = none) :
    fs.locate true p = .ok (.missing directory name) := by
  obtain ⟨left, hlocate⟩ := h.exists_walk hslash true
  refine hlocate _ ?_
  rw [walk, stretch_name true directory h.isName.2.2.1 h.isName.2.2.2,
    if_neg (Nat.not_lt.mpr hlength), hfree]
  rfl

end last_names

/-! ### Writing a file -/

theorem concat_inj {directory other : Location} {name last : String}
    (h : directory ++ [name] = other ++ [last]) : directory = other ∧ name = last := by
  obtain ⟨hdirectory, hname⟩ := List.append_inj' h rfl
  exact ⟨hdirectory, (List.cons.inj hname).1⟩

/-- What a written file changes. -/
structure Filled (fs filled : FileSystem) (p : Path) (place : Location) (content : Bytes) :
    Prop where
  /-- The path has a text of a length that can be followed. -/
  written : p.text ≠ "" ∧ p.text.utf8ByteSize < pathLengthLimit
  /-- The place was free or that of a file. -/
  before : fs.get? place = none ∨ ∃ content, fs.get? place = some (.file content)
  /-- Only the place has changed. -/
  get?_eq : ∀ location, filled.get? location =
    if location = place then some (.file content) else fs.get? location
  /-- The path leads to the place. -/
  leads : Leads filled maxLinks (p.origin filled.workingDirectory) p.steps place
  /-- The change is not seen on the way to a directory. -/
  ways : KeepsWays fs filled

/-- A file in a free place, or in that of a file, changes nothing that a path sees. -/
theorem seen_of_get?_eq {place : Location} {content : Bytes}
    (hplace : fs.get? place = none ∨ ∃ content, fs.get? place = some (.file content))
    (hget : ∀ location, filled.get? location =
      if location = place then some (.file content) else fs.get? location) (location : Location)
    (hentry : fs.get? location ≠ none) :
    seen (filled.get? location) = seen (fs.get? location) := by
  rw [hget]
  split
  · next heq =>
    subst heq
    rcases hplace with hnone | ⟨_, hfile⟩
    · exact absurd hnone hentry
    · rw [hfile]
      rfl
  · rfl

/-- A file is written where it was opened. -/
theorem filled_of_create (h : fs.Grounded) {p : Path} {place : Location} {opened : FileSystem}
    (hcreate : fs.create p = .ok (opened, place)) (content : Bytes) :
    Filled fs (opened.append place content) p place content := by
  obtain ⟨-, rfl, spot, hspot, rfl, hfile⟩ := create_eq_ok_iff.mp hcreate
  obtain ⟨hempty, hlength, hwalk⟩ := locate_eq_ok_iff.mp hspot
  have hplace := h.isPlace_of_locate hspot
  -- a missing spot is free under a name, any other is that of a file
  have hbefore : (∃ directory name, spot.location = directory ++ [name] ∧ IsName name ∧
      fs.get? spot.location = none) ∨
      ∃ content, fs.get? spot.location = some (.file content) := by
    cases spot with
    | missing directory name =>
      exact .inl ⟨directory, name, rfl, hplace.2.1, hplace.2.2.2⟩
    | found found => exact .inr (hfile found rfl)
  have hne : spot.location ≠ [] := by
    intro hnil
    rw [hnil] at hbefore
    rcases hbefore with ⟨_, _, -, -, h⟩ | ⟨_, h⟩ <;> cases h
  have hput := get?_put hne fs (.file [])
  have hopened : (fs.put spot.location (.file [])).append spot.location content =
      (fs.put spot.location (.file [])).put spot.location (.file content) := by
    unfold append
    rw [hput, if_pos rfl]
    rfl
  rw [hopened]
  have hget : ∀ location,
      ((fs.put spot.location (.file [])).put spot.location (.file content)).get? location =
        if location = spot.location then some (.file content) else fs.get? location := by
    intro location
    rw [get?_put hne, hput]
    split <;> rfl
  have hnone : fs.get? spot.location = none ∨
      ∃ content, fs.get? spot.location = some (.file content) := by
    refine hbefore.imp_left ?_
    rintro ⟨_, _, -, -, hnone⟩
    exact hnone
  have hseen := seen_of_get?_eq hnone hget
  refine ⟨⟨hempty, hlength⟩, hnone, hget, ?_, rfl, ?_⟩
  · refine .of_walk hseen hwalk fun directory name hmissing => ⟨content, ?_⟩
    rw [hget, if_pos (by rw [hmissing]; rfl)]
  · intro directory name
    by_cases heq : directory ++ [name] = spot.location
    · rcases hbefore with ⟨directory', name', hspot', hname, hnone⟩ | ⟨_, hfile⟩
      · -- no path goes on behind a free name
        obtain ⟨rfl, rfl⟩ := concat_inj (heq.trans hspot')
        exact .inr (endsPaths_of_none hname (heq ▸ hnone))
      · refine .inl (hseen _ ?_)
        rw [heq, hfile]
        nofun
    · left
      rw [hget, if_neg heq]

theorem filled_of_writeFile (h : fs.Grounded) {p : Path} {content : Bytes}
    (hwrite : fs.writeFile p content = .ok filled) : ∃ place, Filled fs filled p place content := by
  obtain ⟨⟨opened, place⟩, hcreate, hfilled⟩ := bind_eq_ok.mp hwrite
  cases hfilled
  exact ⟨place, filled_of_create h hcreate content⟩

/-- The content stands in the place. -/
theorem Filled.get?_place {p : Path} {place : Location} {content : Bytes}
    (h : Filled fs filled p place content) : filled.get? place = some (.file content) := by
  rw [h.get?_eq, if_pos rfl]

/-- A file that was written is read. -/
theorem Filled.readFile {p : Path} {place : Location} {content : Bytes}
    (h : Filled fs filled p place content) : filled.readFile p = .ok content :=
  readFile_eq_ok_iff.mpr
    ⟨place, find_of_leads h.written.1 h.written.2 h.leads h.get?_place⟩

/-! ### Moving a file -/

/-- What has become of two names in a directory when the entry of the first was moved to the
    second. -/
structure Moved (before after : FileSystem) (directory : Location) (source target : String) :
    Prop where
  /-- Relative paths start in the same directory. -/
  current : after.workingDirectory = before.workingDirectory
  /-- The names differ. -/
  ne : source ≠ target
  /-- Under the first name there is nothing any more. -/
  gone : after.get? (directory ++ [source]) = none
  /-- Under the second name there is what was under the first. -/
  moved : after.get? (directory ++ [target]) = before.get? (directory ++ [source])
  /-- Nothing else has changed. -/
  other : ∀ location, location ≠ directory ++ [source] → location ≠ directory ++ [target] →
    after.get? location = before.get? location

section moved_files
variable {before after : FileSystem} {directory place old : Location} {source target : String}
  {content previous : Bytes} {links more : Nat}

theorem Moved.ways (hmoved : Moved before after directory source target)
    (hsource : EndsPaths before directory source) (htarget : EndsPaths before directory target) :
    KeepsWays before after := by
  refine ⟨hmoved.current, fun other name => ?_⟩
  by_cases hold : other ++ [name] = directory ++ [source]
  · obtain ⟨rfl, rfl⟩ := concat_inj hold
    exact .inr hsource
  by_cases hnew : other ++ [name] = directory ++ [target]
  · obtain ⟨rfl, rfl⟩ := concat_inj hnew
    exact .inr htarget
  · left
    rw [hmoved.other _ hold hnew]

/-- What stands under a name after the move stood there before, or it is what was moved. -/
theorem Moved.get?_cases (hmoved : Moved before after directory source target) {here : Location}
    {name : String} {entry : Entry} (h : after.get? (here ++ [name]) = some entry) :
    before.get? (here ++ [name]) = some entry ∨
      here = directory ∧ name = target ∧ before.get? (directory ++ [source]) = some entry := by
  by_cases hold : here ++ [name] = directory ++ [source]
  · rw [hold, hmoved.gone] at h
    cases h
  by_cases hnew : here ++ [name] = directory ++ [target]
  · obtain ⟨rfl, rfl⟩ := concat_inj hnew
    rw [hmoved.moved] at h
    exact .inr ⟨rfl, rfl, h⟩
  · rw [hmoved.other _ hold hnew] at h
    exact .inl h

section moved_contents
variable (htree : before.IsTree) (hdirectory : before.get? directory = some .directory)
  (hname : IsName source) (hmoved : Moved before after directory source target)
  (hsource : Leads before links directory [source] place)
  (hplace : before.get? place = some (.file content))
include hname hsource hplace

theorem ne_directory_of_leads : before.get? (directory ++ [source]) ≠ some .directory := by
  intro h
  have hbehind := hsource.behind_directory hname.2.2.1 hname.2.2.2 h
  cases hbehind
  rw [h] at hplace
  cases hplace

section moved_ways
include hmoved

/-- A directory after the move was one before it. -/
theorem Moved.get?_of_directory {location : Location}
    (h : after.get? location = some .directory) : before.get? location = some .directory := by
  rcases location.eq_nil_or_concat' with rfl | ⟨parent, name, rfl⟩
  · rfl
  · exact (hmoved.get?_cases h).resolve_right fun ⟨_, _, hsame⟩ =>
      ne_directory_of_leads hname hsource hplace hsame

include htree hdirectory

/-- A path that comes to a directory after the move came there before it. The induction is on the
    way after the move: it does not go through the second name, behind which there is a file or a
    link that led to one. -/
theorem Moved.leads_of_directory {left : Nat} {here goal : Location} {names : List String}
    (h : Leads after left here names goal) (hgoal : after.get? goal = some .directory)
    (hhere : before.get? here = some .directory) : Leads before left here names goal := by
  induction h with
  | here => exact .here
  | dot hdot _ ih => exact .dot hdot (ih hgoal hhere)
  | parent hparent _ ih => exact .parent hparent (ih hgoal (htree.directory_dropLast hhere))
  | directory hdot hparent hlength hentry _ ih =>
    have hbefore := hmoved.get?_of_directory hname hsource hplace hentry
    exact .directory hdot hparent hlength hbefore (ih hgoal hbefore)
  | file _ _ _ hentry =>
    rw [hentry] at hgoal
    cases hgoal
  | link hdot hparent hlength hentry htext _ ih =>
    have hrest := ih hgoal (directory_origin hhere _)
    rcases hmoved.get?_cases hentry with hsame | ⟨rfl, rfl, hsame⟩
    · exact .link hdot hparent hlength hsame htext hrest
    · -- the moved link led to a file, and from there no path comes to a directory
      obtain ⟨fewer, -, -, hfile⟩ := hsource.behind_link hname.2.2.1 hname.2.2.2 hsame
      rw [List.append_nil] at hfile
      obtain rfl := hfile.eq_nil_of_file htree (directory_origin hhere _) hplace hrest
      rw [List.append_nil] at hrest
      have hboth := (hfile.mono (Nat.le_max_left fewer _)).unique
        (hrest.mono (Nat.le_max_right fewer _))
      have hend := hmoved.get?_of_directory hname hsource hplace hgoal
      rw [← hboth, hplace] at hend
      cases hend

end moved_ways

variable (htarget : Leads before more directory [target] old)
  (hold : before.get? old = some (.file previous))
include htree hdirectory hmoved htarget hold

/-- A path that led to the moved file finds its content if it still comes to a file. The induction
    is on the way after the move. Where it goes through the second name, the way before the move was
    at its end there, and the way afterwards goes on as that of the first name did. -/
theorem Moved.content_eq {left steps : Nat} {here goal : Location} {names : List String}
    {found : Bytes} (hafter : Leads after left here names goal)
    (hfound : after.get? goal = some (.file found))
    (hbefore : Leads before steps here names place)
    (hhere : before.get? here = some .directory) : found = content := by
  induction hafter generalizing steps with
  | here =>
    cases hbefore
    rw [hhere] at hplace
    cases hplace
  | dot hdot _ ih => exact ih hfound (hbefore.behind_dot hdot) hhere
  | parent hparent _ ih =>
    exact ih hfound (hbefore.behind_parent hparent) (htree.directory_dropLast hhere)
  | directory hdot hparent _ hentry _ ih =>
    rcases hmoved.get?_cases hentry with hsame | ⟨rfl, rfl, hsame⟩
    · exact ih hfound (hbefore.behind_directory hdot hparent hsame) hsame
    · exact absurd hsame (ne_directory_of_leads hname hsource hplace)
  | file hdot hparent _ hentry =>
    rw [hentry] at hfound
    cases hfound
    rcases hmoved.get?_cases hentry with hsame | ⟨rfl, rfl, hsame⟩
    · obtain ⟨-, rfl⟩ := hbefore.behind_file hdot hparent hsame
      rw [hsame] at hplace
      cases hplace
      rfl
    · obtain ⟨-, rfl⟩ := hsource.behind_file hname.2.2.1 hname.2.2.2 hsame
      rw [hsame] at hplace
      cases hplace
      rfl
  | link hdot hparent _ hentry _ _ ih =>
    rcases hmoved.get?_cases hentry with hsame | ⟨rfl, rfl, hsame⟩
    · obtain ⟨_, -, -, hrest⟩ := hbefore.behind_link hdot hparent hsame
      exact ih hfound hrest (directory_origin hhere _)
    · -- the second name led to a file, so there is nothing behind it
      obtain rfl := htarget.eq_nil_of_file htree hdirectory hold hbefore
      obtain ⟨_, -, -, hrest⟩ := hsource.behind_link hname.2.2.1 hname.2.2.2 hsame
      exact ih hfound hrest (directory_origin hdirectory _)

/-- If the second name leads to a file, it is one with the content of the moved file. -/
theorem Moved.content_eq_of_target {left : Nat} {goal : Location} {found : Bytes}
    (htargetName : IsName target) (hafter : Leads after left directory [target] goal)
    (hfound : after.get? goal = some (.file found)) : found = content := by
  obtain ⟨entry, hentry⟩ := Option.isSome_iff_exists.mp
    (hsource.isSome_get? hname.2.2.1 hname.2.2.2)
  have hmovedEntry := hmoved.moved.trans hentry
  cases entry with
  | directory => exact absurd hentry (ne_directory_of_leads hname hsource hplace)
  | file other =>
    obtain ⟨-, rfl⟩ := hsource.behind_file hname.2.2.1 hname.2.2.2 hentry
    obtain ⟨-, rfl⟩ := hafter.behind_file htargetName.2.2.1 htargetName.2.2.2 hmovedEntry
    rw [hentry] at hplace
    rw [hmovedEntry] at hfound
    cases hplace
    cases hfound
    rfl
  | link text =>
    obtain ⟨_, -, -, hbefore⟩ := hsource.behind_link hname.2.2.1 hname.2.2.2 hentry
    obtain ⟨_, -, -, hrest⟩ :=
      hafter.behind_link htargetName.2.2.1 htargetName.2.2.2 hmovedEntry
    exact hmoved.content_eq htree hdirectory hname hsource hplace htarget hold hrest hfound hbefore
      (directory_origin hdirectory _)

end moved_contents

/-- What stands somewhere after an entry was erased stood there before, and somewhere else than that
    entry. -/
theorem of_get?_erase {name : String} {location : Location} {entry : Entry}
    (h : (before.erase (directory ++ [name])).get? location = some entry) :
    location ≠ directory ++ [name] ∧ before.get? location = some entry := by
  rw [get?_erase (concat_ne_nil directory name)] at h
  split at h
  · cases h
  · next hne => exact ⟨hne, h⟩

/-- What is found after an entry was erased was found before. -/
theorem Leads.of_erase {name : String} {here goal : Location} {names : List String}
    (h : Leads (before.erase (directory ++ [name])) links here names goal) :
    Leads before links here names goal := by
  refine .of_walk (fun location hentry => ?_) h.walk_eq nofun
  obtain ⟨entry, hentry⟩ := Option.ne_none_iff_exists'.mp hentry
  rw [hentry, (of_get?_erase hentry).2]

/-- A path is found without a name in a directory if that name leads to a file and the path does not
    come there. -/
theorem Leads.erase (htree : before.IsTree) (hdirectory : before.get? directory = some .directory)
    (htarget : Leads before more directory [target] old)
    (hold : before.get? old = some (.file previous)) {here : Location} {names : List String}
    (h : Leads before links here names place) (hdifferent : place ≠ old) :
    Leads (before.erase (directory ++ [target])) links here names place := by
  refine h.transfer fun fewer other name rest _ hway => ?_
  rw [get?_erase (concat_ne_nil directory target)]
  split
  · next hsecond =>
    obtain ⟨rfl, rfl⟩ := concat_inj hsecond
    obtain rfl := htarget.eq_nil_of_file htree hdirectory hold hway
    have hboth := (hway.mono (Nat.le_max_left fewer more)).unique
      (htarget.mono (Nat.le_max_right fewer more))
    exact absurd hboth hdifferent
  · rfl

/-- Seen from where the second name was free, the move is not seen on the way to a directory. -/
theorem Moved.ways_erase (hmoved : Moved before after directory source target)
    (hsource : EndsPaths before directory source) (htargetName : IsName target) :
    KeepsWays (before.erase (directory ++ [target])) after := by
  refine ⟨hmoved.current, fun other name => ?_⟩
  by_cases hfirst : other ++ [name] = directory ++ [source]
  · obtain ⟨rfl, rfl⟩ := concat_inj hfirst
    exact .inr fun links back goal hgoal hdirectory =>
      hsource links back goal hgoal.of_erase (of_get?_erase hdirectory).2
  have herase := get?_erase (concat_ne_nil directory target) before (other ++ [name])
  by_cases hsecond : other ++ [name] = directory ++ [target]
  · rw [if_pos hsecond] at herase
    obtain ⟨rfl, rfl⟩ := concat_inj hsecond
    exact .inr (endsPaths_of_none htargetName herase)
  · left
    rw [hmoved.other _ hfirst hsecond, herase, if_neg hsecond]

/-- The second name leads to the content of the moved file if the first one led there without the
    second. The induction is on the links: the way from the first name to the file is taken without
    going through that name again. -/
theorem Moved.leads (htree : before.IsTree) (hdirectory : before.get? directory = some .directory)
    (hname : IsName source) (hmoved : Moved before after directory source target)
    (hsource : Leads (before.erase (directory ++ [target])) links directory [source] place)
    (hplace : (before.erase (directory ++ [target])).get? place = some (.file content))
    (htargetName : IsName target) (hlength : target.utf8ByteSize ≤ maxNameLength) :
    ∃ goal, Leads after links directory [target] goal ∧
      after.get? goal = some (.file content) := by
  have herased := get?_erase (concat_ne_nil directory target) before
  induction links using Nat.strongRecOn with
  | ind links ih =>
    by_cases hless : ∃ fewer < links,
        Leads (before.erase (directory ++ [target])) fewer directory [source] place
    · obtain ⟨fewer, hfewer, hsource⟩ := hless
      obtain ⟨goal, hgoal, hfile⟩ := ih fewer hfewer hsource
      exact ⟨goal, hgoal.mono (Nat.le_of_lt hfewer), hfile⟩
    obtain ⟨entry, hentry⟩ := Option.isSome_iff_exists.mp
      (hsource.isSome_get? hname.2.2.1 hname.2.2.2)
    have hmovedEntry := hmoved.moved.trans (of_get?_erase hentry).2
    cases entry with
    | directory =>
      have hbehind := hsource.behind_directory hname.2.2.1 hname.2.2.2 hentry
      cases hbehind
      rw [hentry] at hplace
      cases hplace
    | file found =>
      obtain ⟨-, rfl⟩ := hsource.behind_file hname.2.2.1 hname.2.2.2 hentry
      rw [hentry] at hplace
      cases hplace
      exact ⟨_, .file htargetName.2.2.1 htargetName.2.2.2 hlength hmovedEntry, hmovedEntry⟩
    | link text =>
      obtain ⟨left, rfl, htext, hrest⟩ := hsource.behind_link hname.2.2.1 hname.2.2.2 hentry
      obtain ⟨hsecond, hfile⟩ := of_get?_erase hplace
      -- the way behind the link goes neither through the first name nor through the second
      have hsame : ∀ fewer other name rest, fewer ≤ left →
          Leads (before.erase (directory ++ [target])) fewer other (name :: rest) place →
            seen (after.get? (other ++ [name])) =
              seen ((before.erase (directory ++ [target])).get? (other ++ [name])) := by
        intro fewer other name rest hfewer hway
        by_cases hfirst : other ++ [name] = directory ++ [source]
        · obtain ⟨rfl, rfl⟩ := concat_inj hfirst
          obtain rfl := hsource.of_erase.eq_nil_of_file htree hdirectory hfile hway.of_erase
          exact absurd ⟨fewer, Nat.lt_succ_of_le hfewer, hway⟩ hless
        by_cases hsecond : other ++ [name] = directory ++ [target]
        · obtain ⟨rfl, rfl⟩ := concat_inj hsecond
          have hsome := hway.isSome_get? htargetName.2.2.1 htargetName.2.2.2
          rw [herased, if_pos rfl] at hsome
          cases hsome
        · rw [hmoved.other _ hfirst hsecond, herased, if_neg hsecond]
      refine ⟨place, .link htargetName.2.2.1 htargetName.2.2.2 hlength hmovedEntry htext
        (hrest.transfer hsame), ?_⟩
      rw [hmoved.other place ?_ hsecond, hfile]
      rintro rfl
      rw [hentry] at hplace
      cases hplace

end moved_files

end FileSystem

end PackageRelease
