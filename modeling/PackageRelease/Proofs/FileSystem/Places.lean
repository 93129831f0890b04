import PackageRelease.Proofs.FileSystem.Moving

/-! # The places of paths

  A path leads to a place, where an entry stands or a name is free. The key idea: a file at a place
  makes no difference to where paths lead, so file systems with the same directories and links give
  every path the same place. Two such file systems differ in what they keep in their places alone.
-/

namespace PackageRelease

namespace FileSystem

variable {fs later : FileSystem} {through : Bool} {p : Path}

/-! ### Where a path leads -/

/-- The place to which a path leads, whether an entry stands there or not. -/
def place? (fs : FileSystem) (through : Bool) (p : Path) : Option Location :=
  (fs.locate through p).toOption.map Spot.location

theorem place?_eq_some_iff {place : Location} : fs.place? through p = some place ↔
    ∃ spot, fs.locate through p = .ok spot ∧ spot.location = place := by
  unfold place?
  cases fs.locate through p with
  | error error => exact iff_of_false nofun nofun
  | ok spot =>
    constructor
    · intro h
      exact ⟨spot, rfl, Option.some.inj h⟩
    · rintro ⟨_, hspot, rfl⟩
      cases hspot
      rfl

/-- A path finds what stands at its place. -/
theorem Grounded.find_eq_ok_iff (h : fs.Grounded) {location : Location} {entry : Entry} :
    fs.find through p = .ok (location, entry) ↔
      fs.place? through p = some location ∧ fs.get? location = some entry := by
  rw [FileSystem.find_eq_ok_iff, place?_eq_some_iff]
  constructor
  · rintro ⟨hlocate, hentry⟩
    exact ⟨⟨_, hlocate, rfl⟩, hentry⟩
  · rintro ⟨⟨spot, hlocate, rfl⟩, hentry⟩
    cases spot with
    | found location => exact ⟨hlocate, hentry⟩
    | missing directory name =>
      -- nothing stands at a name that is free
      obtain ⟨-, -, -, hfree⟩ := h.isPlace_of_locate hlocate
      rw [Spot.location, hfree] at hentry
      cases hentry

/-- What a path finds is what stands at its place. -/
theorem Grounded.entry_eq (h : fs.Grounded) :
    (fs.entry p).toOption = (fs.place? true p).bind fs.get? := by
  refine Option.ext fun entry => ?_
  have hfind : (fs.entry p).toOption = some entry ↔
      ∃ location, fs.find true p = .ok (location, entry) := by
    unfold FileSystem.entry
    cases fs.find true p with
    | error error => exact iff_of_false nofun nofun
    | ok found =>
      constructor
      · intro hentry
        cases hentry
        exact ⟨_, rfl⟩
      · rintro ⟨_, hfound⟩
        cases hfound
        rfl
  rw [hfind, Option.bind_eq_some_iff]
  exact exists_congr fun location => h.find_eq_ok_iff

/-- Whether a path is one of a link. -/
def IsLink (fs : FileSystem) (p : Path) : Prop :=
  ∃ location target, fs.find false p = .ok (location, .link target)

theorem not_isLink_of_file {location : Location} {content : Bytes}
    (h : fs.find false p = .ok (location, .file content)) : ¬fs.IsLink p := by
  rintro ⟨_, _, hlink⟩
  rw [h] at hlink
  cases hlink

/-- Whether links are followed at the end makes a difference only if there is one. -/
theorem place?_through (h : ¬fs.IsLink p) : fs.place? true p = fs.place? false p := by
  rcases locate_through fs p with hsame | ⟨location, target, hlocate, hentry⟩
  · unfold place?
    rw [hsame]
  · exact absurd ⟨location, target, FileSystem.find_eq_ok_iff.mpr ⟨hlocate, hentry⟩⟩ h

/-! ### The last name of a path -/

/-- How a stretch passes the names in front of its last one. -/
inductive Passes (fs : FileSystem) (through : Bool) (here : Location) (front : List String)
    (last : String) : Prop where
  /-- They lead to a directory, in which the last name is looked up. -/
  | directory {directory : Location} (hdirectory : fs.get? directory = some .directory)
      (hleads : ∀ links, Leads fs links here front directory)
      (hstretch : stretch fs through here (front ++ [last]) = stretch fs through directory [last])
  /-- They lead nowhere. -/
  | failed {error : OsError} (hstretch : stretch fs through here (front ++ [last]) = .failed error)
  /-- One of them is a link. -/
  | link {directory : Location} {target : String} {rest : List String}
      (hdirectory : fs.get? directory = some .directory)
      (hstretch : stretch fs through here (front ++ [last]) =
        .follow directory target (rest ++ [last]))
      (hleads : ∀ links goal, target ≠ "" →
        Leads fs links (Path.origin directory ⟨target⟩) (Path.steps ⟨target⟩ ++ rest) goal →
          Leads fs (links + 1) here front goal)

/-- A name that is passed in a step leaves the others to be passed. -/
theorem Passes.cons {here next : Location} {name last : String} {front : List String}
    (h : Passes fs through next front last)
    (hstretch : stretch fs through here (name :: (front ++ [last])) =
      stretch fs through next (front ++ [last]))
    (hleads : ∀ {links goal}, Leads fs links next front goal →
      Leads fs links here (name :: front) goal) : Passes fs through here (name :: front) last := by
  cases h with
  | directory hdirectory hway hlast =>
    exact .directory hdirectory (fun links => hleads (hway links)) (hstretch.trans hlast)
  | failed hfailed => exact .failed (hstretch.trans hfailed)
  | link hdirectory hfollow hway =>
    exact .link hdirectory (hstretch.trans hfollow) fun links goal htarget hgoal =>
      hleads (hway links goal htarget hgoal)

/-- The names in front of the last one are passed one after the other. -/
theorem IsTree.passes (htree : fs.IsTree) (through : Bool) {here : Location}
    (hhere : fs.get? here = some .directory) (front : List String) (last : String) :
    Passes fs through here front last := by
  induction front generalizing here with
  | nil => exact .directory hhere (fun _ => .here) rfl
  | cons name front ih =>
    by_cases hdot : name = "."
    · subst hdot
      exact (ih hhere).cons (stretch_dot through here _) (.dot rfl)
    by_cases hparent : name = ".."
    · subst hparent
      exact (ih (htree.directory_dropLast hhere)).cons (stretch_parent through here _) (.parent rfl)
    have hname := @stretch_name fs through here name hdot hparent (front ++ [last])
    by_cases hlength : maxNameLength < name.utf8ByteSize
    · rw [if_pos hlength] at hname
      exact .failed hname
    rw [if_neg hlength] at hname
    have hlength := Nat.not_lt.mp hlength
    -- other names follow, so the path ends neither at a file nor at a free name
    have hmore : (front ++ [last]).isEmpty = false := by simp
    rw [hmore] at hname
    cases hentry : fs.get? (here ++ [name]) with
    | none =>
      rw [hentry] at hname
      exact .failed hname
    | some entry =>
      rw [hentry] at hname
      cases entry with
      | file content => exact .failed hname
      | directory => exact (ih hentry).cons hname (.directory hdot hparent hlength hentry)
      | link target =>
        exact .link hhere hname fun links goal htarget hgoal =>
          .link hdot hparent hlength hentry htarget hgoal

/-- A walk looks up its last name in the directory to which the names in front of it lead. The
    induction is on the links that may still be followed. -/
theorem IsTree.exists_of_walk_concat (htree : fs.IsTree) {links : Nat} {here : Location}
    (hhere : fs.get? here = some .directory) {front : List String} {last : String} {spot : Spot}
    (h : walk fs through links here (front ++ [last]) = .ok spot) :
    ∃ directory left, fs.get? directory = some .directory ∧ Leads fs links here front directory ∧
      walk fs through left directory [last] = .ok spot := by
  induction links generalizing here front with
  | zero =>
    cases htree.passes through hhere front last with
    | directory hdirectory hleads hstretch =>
      exact ⟨_, 0, hdirectory, hleads 0, (walk_of_stretch hstretch 0).symm.trans h⟩
    | failed hstretch =>
      rw [walk, hstretch] at h
      cases h
    | link _ hstretch _ =>
      rw [walk, hstretch] at h
      cases h
  | succ links ih =>
    cases htree.passes through hhere front last with
    | directory hdirectory hleads hstretch =>
      exact ⟨_, links + 1, hdirectory, hleads _, (walk_of_stretch hstretch _).symm.trans h⟩
    | failed hstretch =>
      rw [walk, hstretch] at h
      cases h
    | @link directory target rest hdirectory hstretch hleads =>
      by_cases htarget : target = ""
      · rw [walk, hstretch] at h
        dsimp only at h
        rw [if_pos (by rw [htarget]; rfl)] at h
        cases h
      · rw [walk_of_follow hstretch htarget, ← List.append_assoc] at h
        obtain ⟨place, left, hplace, hrest, hlast⟩ := ih (directory_origin hdirectory _) h
        exact ⟨place, left, hplace, hleads links place htarget hrest, hlast⟩

/-- A path has its place under its last name, or it is one of a directory. -/
theorem Grounded.last_cases (h : fs.Grounded) {place : Location}
    (hplace : fs.place? false p = some place) :
    (∃ front name directory, p.pieces = front ++ [name] ∧ IsName name ∧ p.endsInSlash = false ∧
      place = directory ++ [name]) ∨ fs.get? place = some .directory := by
  obtain ⟨spot, hlocate, rfl⟩ := place?_eq_some_iff.mp hplace
  obtain ⟨-, -, hwalk⟩ := locate_eq_ok_iff.mp hlocate
  have horigin := directory_origin h.current p
  rcases p.steps.eq_nil_or_concat' with hnil | ⟨front, last, hsteps⟩
  · rw [hnil, walk] at hwalk
    cases hwalk
    exact .inr horigin
  rw [hsteps] at hwalk
  obtain ⟨directory, left, hdirectory, -, hlast⟩ := h.tree.exists_of_walk_concat horigin hwalk
  by_cases hdot : last = "."
  · subst hdot
    rw [walk] at hlast
    cases hlast
    exact .inr hdirectory
  by_cases hparent : last = ".."
  · subst hparent
    rw [walk] at hlast
    cases hlast
    exact .inr (h.tree.directory_dropLast hdirectory)
  -- a slash at the end would stand for a last `.`
  have hslash : p.endsInSlash = false := by
    by_contra hslash
    unfold Path.steps at hsteps
    rw [if_pos (by simpa using hslash)] at hsteps
    exact hdot (concat_inj hsteps).2.symm
  have hpieces : p.pieces = front ++ [last] := by
    rw [← hsteps, Path.steps, hslash, if_neg Bool.false_ne_true, List.append_nil]
  have hlastStep : last ∈ p.steps := by
    rw [hsteps]
    exact List.mem_append_right front List.mem_cons_self
  have hname := of_mem_steps hlastStep
  rw [walk_last fs left directory hdot hparent] at hlast
  split at hlast
  · cases hlast
  · cases hlast
    exact .inl ⟨front, last, directory, hpieces, ⟨hname.1, hname.2, hdot, hparent⟩, hslash,
      Spot.location_under fs directory last⟩

theorem StandsAt.place?_false {directory : Location} {name : String} (h : StandsAt fs p directory name)
    (hslash : p.endsInSlash = false) (hlength : name.utf8ByteSize ≤ maxNameLength) :
    fs.place? false p = some (directory ++ [name]) :=
  place?_eq_some_iff.mpr ⟨_, h.locate_false hslash hlength, Spot.location_under fs directory name⟩

/-! ### What decides where paths lead -/

/-- What an entry has to do with where paths lead. A file ends a path like a name that is free. -/
def outline : Option Entry → Option Entry
  | some (.file _) => none
  | found? => found?

theorem outline_eq_none_iff {found? : Option Entry} :
    outline found? = none ↔ found? = none ∨ ∃ content, found? = some (.file content) := by
  unfold outline
  split
  · next content => exact iff_of_true rfl (.inr ⟨content, rfl⟩)
  · next hfile => exact ⟨.inl, fun h => h.resolve_right fun ⟨content, h⟩ => hfile content h⟩

theorem outline_eq_some_iff {found? : Option Entry} {entry : Entry}
    (hentry : ∀ content, entry ≠ .file content) :
    outline found? = some entry ↔ found? = some entry := by
  unfold outline
  split
  · next content =>
    exact iff_of_false nofun fun h => hentry content (Option.some.inj h).symm
  · exact Iff.rfl

theorem exists_of_outline_ne_none {found? : Option Entry} (h : outline found? ≠ none) :
    ∃ entry, found? = some entry ∧ ∀ content, entry ≠ .file content := by
  rw [Ne, outline_eq_none_iff, not_or] at h
  obtain ⟨entry, hentry⟩ := Option.ne_none_iff_exists'.mp h.1
  refine ⟨entry, hentry, ?_⟩
  rintro content rfl
  exact h.2 ⟨content, hentry⟩

/-- Whether two file systems have the same directories and links, and the same current one. -/
structure SameOutline (fs later : FileSystem) : Prop where
  /-- Relative paths start in the same directory. -/
  current : later.workingDirectory = fs.workingDirectory
  /-- Directories and links stand in the same places. -/
  outline : ∀ location, outline (later.get? location) = outline (fs.get? location)

namespace SameOutline

theorem refl (fs : FileSystem) : SameOutline fs fs := ⟨rfl, fun _ => rfl⟩

theorem trans {last : FileSystem} (h : SameOutline fs later) (hlast : SameOutline later last) :
    SameOutline fs last :=
  ⟨hlast.current.trans h.current, fun location => (hlast.outline location).trans (h.outline location)⟩

/-- An entry that is no file stands in both. -/
theorem get?_eq_iff (h : SameOutline fs later) {location : Location} {entry : Entry}
    (hentry : ∀ content, entry ≠ .file content) :
    later.get? location = some entry ↔ fs.get? location = some entry := by
  rw [← outline_eq_some_iff hentry, h.outline, outline_eq_some_iff hentry]

end SameOutline

/-- Whether two stretches come to the same place, or behind the same link. -/
inductive Stop.SamePlace : Stop → Stop → Prop where
  /-- Both are at their end. -/
  | done {spot other : Spot} (h : spot.location = other.location) :
      SamePlace (.done spot) (.done other)
  /-- Both lead nowhere. -/
  | failed (error other : OsError) : SamePlace (.failed error) (.failed other)
  /-- Both stop at the same link. -/
  | follow (directory : Location) (target : String) (rest : List String) :
      SamePlace (.follow directory target rest) (.follow directory target rest)

/-- How a stretch goes on at a place where a file stands or a name is free. -/
theorem stretch_of_ends (through : Bool) (here : Location) {name : String} (hdot : name ≠ ".")
    (hparent : name ≠ "..") (hlength : name.utf8ByteSize ≤ maxNameLength) (rest : List String)
    (h : fs.get? (here ++ [name]) = none ∨
      ∃ content, fs.get? (here ++ [name]) = some (.file content)) :
    (rest = [] ∧ ∃ spot, stretch fs through here (name :: rest) = .done spot ∧
        spot.location = here ++ [name]) ∨
      rest ≠ [] ∧ ∃ error, stretch fs through here (name :: rest) = .failed error := by
  rw [stretch_name through here hdot hparent, if_neg (Nat.not_lt.mpr hlength)]
  rcases h with h | ⟨content, h⟩ <;> rw [h] <;> cases rest with
  | nil => exact .inl ⟨rfl, _, rfl, rfl⟩
  | cons next rest => exact .inr ⟨List.cons_ne_nil _ _, _, rfl⟩

/-- A stretch comes to the same place with the same directories and links. The induction is on the
    names; a file and a free name both end the stretch. -/
theorem SameOutline.stretch (h : SameOutline fs later) (through : Bool) (here : Location)
    (names : List String) :
    (FileSystem.stretch fs through here names).SamePlace
      (FileSystem.stretch later through here names) := by
  induction names generalizing here with
  | nil => exact .done rfl
  | cons name rest ih =>
    by_cases hdot : name = "."
    · subst hdot
      exact ih here
    by_cases hparent : name = ".."
    · subst hparent
      exact ih here.dropLast
    by_cases hlength : maxNameLength < name.utf8ByteSize
    · rw [stretch_name through here hdot hparent, stretch_name through here hdot hparent,
        if_pos hlength, if_pos hlength]
      exact .failed _ _
    by_cases houtline : FileSystem.outline (fs.get? (here ++ [name])) = none
    · have hlength := Nat.not_lt.mp hlength
      have hends := outline_eq_none_iff.mp houtline
      have hlater := outline_eq_none_iff.mp ((h.outline _).trans houtline)
      -- both end here if the name is the last one, and both fail if it is not
      rcases stretch_of_ends through here hdot hparent hlength rest hends with
          ⟨hrest, spot, hspot, hplace⟩ | ⟨hrest, error, herror⟩ <;>
        rcases stretch_of_ends through here hdot hparent hlength rest hlater with
          ⟨hrest', other, hother, hplace'⟩ | ⟨hrest', error', herror'⟩
      · rw [hspot, hother]
        exact .done (hplace.trans hplace'.symm)
      · exact absurd hrest hrest'
      · exact absurd hrest' hrest
      · rw [herror, herror']
        exact .failed _ _
    rw [stretch_name through here hdot hparent, stretch_name through here hdot hparent,
      if_neg hlength, if_neg hlength]
    -- a directory or a link stands there in both
    obtain ⟨entry, hentry, hno⟩ := exists_of_outline_ne_none houtline
    rw [hentry, (h.get?_eq_iff hno).mpr hentry]
    cases entry with
    | file content => exact absurd rfl (hno content)
    | directory => exact ih (here ++ [name])
    | link target =>
      dsimp only
      split
      · exact .done rfl
      · exact .follow _ _ _

theorem SameOutline.walk (h : SameOutline fs later) (through : Bool) (links : Nat)
    (here : Location) (names : List String) :
    (FileSystem.walk later through links here names).toOption.map Spot.location =
      (FileSystem.walk fs through links here names).toOption.map Spot.location := by
  induction links generalizing here names with
  | zero =>
    have hstretch := h.stretch through here names
    rw [FileSystem.walk, FileSystem.walk]
    generalize FileSystem.stretch fs through here names = stop at hstretch ⊢
    generalize FileSystem.stretch later through here names = other at hstretch ⊢
    cases hstretch with
    | done hplace => exact congrArg some hplace.symm
    | failed => rfl
    | follow => rfl
  | succ links ih =>
    have hstretch := h.stretch through here names
    rw [FileSystem.walk, FileSystem.walk]
    generalize FileSystem.stretch fs through here names = stop at hstretch ⊢
    generalize FileSystem.stretch later through here names = other at hstretch ⊢
    cases hstretch with
    | done hplace => exact congrArg some hplace.symm
    | failed => rfl
    | follow directory target rest =>
      -- the link is the same one, and so is what is left behind it
      dsimp only
      split
      · rfl
      · exact ih _ _

/-- Every path has the same place in file systems with the same directories and links. -/
theorem SameOutline.place?_eq (h : SameOutline fs later) (through : Bool) (p : Path) :
    later.place? through p = fs.place? through p := by
  unfold place? locate
  by_cases hempty : p.text.isEmpty = true
  · rw [if_pos hempty, if_pos hempty]
  rw [if_neg hempty, if_neg hempty]
  by_cases hlength : pathLengthLimit ≤ p.text.utf8ByteSize
  · rw [if_pos hlength, if_pos hlength]
  · rw [if_neg hlength, if_neg hlength, h.current]
    exact h.walk _ _ _ _

theorem SameOutline.isLink_iff (h : SameOutline fs later) (hfs : fs.Grounded)
    (hlater : later.Grounded) : later.IsLink p ↔ fs.IsLink p := by
  refine exists_congr fun location => exists_congr fun target => ?_
  have hlink : ∀ content, Entry.link target ≠ .file content := nofun
  rw [hlater.find_eq_ok_iff, hfs.find_eq_ok_iff, h.place?_eq, h.get?_eq_iff hlink]

/-! ### Operations on files -/

section files
variable {location : Location} (h : outline (fs.get? location) = none)
include h

theorem ne_nil_of_outline : location ≠ [] := by
  rintro rfl
  cases h

/-- A file is put in its place without changing any directory or link. -/
theorem sameOutline_put (content : Bytes) : SameOutline fs (fs.put location (.file content)) := by
  refine ⟨rfl, fun other => ?_⟩
  rw [get?_put (ne_nil_of_outline h)]
  split
  · next heq =>
    rw [heq, h]
    rfl
  · rfl

/-- A file is erased without changing any directory or link. -/
theorem sameOutline_erase : SameOutline fs (fs.erase location) := by
  refine ⟨rfl, fun other => ?_⟩
  rw [get?_erase (ne_nil_of_outline h)]
  split
  · next heq =>
    rw [heq, h]
    rfl
  · rfl

end files

/-- A file is opened at the place of its path. -/
theorem Grounded.place_of_create (h : fs.Grounded) {opened : FileSystem} {place : Location}
    (hcreate : fs.create p = .ok (opened, place)) :
    fs.place? true p = some place ∧ outline (fs.get? place) = none ∧
      opened = fs.put place (.file []) := by
  obtain ⟨-, rfl, spot, hlocate, rfl, hfile⟩ := create_eq_ok_iff.mp hcreate
  refine ⟨place?_eq_some_iff.mpr ⟨spot, hlocate, rfl⟩, outline_eq_none_iff.mpr ?_, rfl⟩
  cases spot with
  | found location => exact .inr (hfile location rfl)
  | missing directory name => exact .inl (h.isPlace_of_locate hlocate).2.2.2

/-- What is appended to a file stands behind its content. -/
theorem append_of_file {place : Location} {content : Bytes}
    (h : fs.get? place = some (.file content)) (piece : Bytes) :
    fs.append place piece = fs.put place (.file (content ++ piece)) := by
  unfold append
  rw [h]

end FileSystem

end PackageRelease
