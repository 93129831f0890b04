import PackageRelease.FileSystem.Operations
import PackageRelease.Proofs.Outcome

/-! # Where paths lead

  `Leads` says step by step how a path is followed to an existing entry, with a number of links that
  may still be followed. The key idea: what holds of following a path, that it can be cut at a
  directory and that a `.` in it may be left out, is an induction over these steps.
-/

namespace PackageRelease

namespace FileSystem

variable {fs : FileSystem}

/-! ### Following a path to its end -/

/-- How names lead from a directory to an entry, links followed. -/
inductive Leads (fs : FileSystem) : Nat → Location → List String → Location → Prop where
  /-- All names are used up. -/
  | here {links : Nat} {here : Location} : Leads fs links here [] here
  /-- A `.` stays. -/
  | dot {links : Nat} {here goal : Location} {name : String} {rest : List String}
      (hname : name = ".") (h : Leads fs links here rest goal) :
      Leads fs links here (name :: rest) goal
  /-- A `..` goes one directory up. -/
  | parent {links : Nat} {here goal : Location} {name : String} {rest : List String}
      (hname : name = "..") (h : Leads fs links here.dropLast rest goal) :
      Leads fs links here (name :: rest) goal
  /-- A directory is entered. -/
  | directory {links : Nat} {here goal : Location} {name : String} {rest : List String}
      (hdot : name ≠ ".") (hparent : name ≠ "..") (hlength : name.utf8ByteSize ≤ maxNameLength)
      (hentry : fs.get? (here ++ [name]) = some .directory)
      (h : Leads fs links (here ++ [name]) rest goal) : Leads fs links here (name :: rest) goal
  /-- A file ends the path. -/
  | file {links : Nat} {here : Location} {name : String} {content : Bytes}
      (hdot : name ≠ ".") (hparent : name ≠ "..") (hlength : name.utf8ByteSize ≤ maxNameLength)
      (hentry : fs.get? (here ++ [name]) = some (.file content)) :
      Leads fs links here [name] (here ++ [name])
  /-- A link is followed before the remaining names. -/
  | link {links : Nat} {here goal : Location} {name target : String} {rest : List String}
      (hdot : name ≠ ".") (hparent : name ≠ "..") (hlength : name.utf8ByteSize ≤ maxNameLength)
      (hentry : fs.get? (here ++ [name]) = some (.link target)) (htarget : target ≠ "")
      (h : Leads fs links (Path.origin here ⟨target⟩) (Path.steps ⟨target⟩ ++ rest) goal) :
      Leads fs (links + 1) here (name :: rest) goal

theorem stretch_name (through : Bool) (here : Location) {name : String} (hdot : name ≠ ".")
    (hparent : name ≠ "..") (rest : List String) :
    stretch fs through here (name :: rest) =
      if maxNameLength < name.utf8ByteSize then .failed .nameTooLong
      else match fs.get? (here ++ [name]) with
        | none => if rest.isEmpty then .done (.missing here name) else .failed .notFound
        | some .directory => stretch fs through (here ++ [name]) rest
        | some (.file _) =>
          if rest.isEmpty then .done (.found (here ++ [name])) else .failed .notADirectory
        | some (.link target) =>
          if rest.isEmpty && !through then .done (.found (here ++ [name]))
          else .follow here target rest :=
  stretch.eq_4 fs through here name rest hdot hparent

theorem stretch_dot (through : Bool) (here : Location) (rest : List String) :
    stretch fs through here ("." :: rest) = stretch fs through here rest := rfl

theorem stretch_parent (through : Bool) (here : Location) (rest : List String) :
    stretch fs through here (".." :: rest) = stretch fs through here.dropLast rest := rfl

/-- A walk ends where its first stretch does, or it follows the link at which that one stops. -/
theorem walk_cases {through : Bool} {links : Nat} {here : Location} {names : List String}
    {spot : Spot} (h : walk fs through links here names = .ok spot) :
    stretch fs through here names = .done spot ∨
      ∃ left directory target rest, links = left + 1 ∧
        stretch fs through here names = .follow directory target rest ∧ target ≠ "" ∧
        walk fs through left (Path.origin directory ⟨target⟩) (Path.steps ⟨target⟩ ++ rest) =
          .ok spot := by
  rw [walk] at h
  cases hstretch : stretch fs through here names with
  | done found =>
    rw [hstretch] at h
    cases h
    exact .inl rfl
  | failed error =>
    rw [hstretch] at h
    cases h
  | follow directory target rest =>
    rw [hstretch] at h
    cases links with
    | zero => cases h
    | succ left =>
      dsimp only at h
      split at h
      · cases h
      · next htarget =>
        exact .inr ⟨left, directory, target, rest, rfl, rfl, by simpa using htarget, h⟩

/-! ### What a path sees -/

/-- What a path sees of an entry: the content of a file makes no difference to where paths lead. -/
def seen : Option Entry → Option Entry
  | some (.file _) => some (.file [])
  | found? => found?

section seen_entries
variable {found? : Option Entry}

theorem eq_none_of_seen (h : seen found? = none) : found? = none := by
  unfold seen at h
  split at h
  · cases h
  · exact h

theorem eq_directory_of_seen (h : seen found? = some .directory) : found? = some .directory := by
  unfold seen at h
  split at h
  · cases h
  · exact h

theorem eq_link_of_seen {target : String} (h : seen found? = some (.link target)) :
    found? = some (.link target) := by
  unfold seen at h
  split at h
  · cases h
  · exact h

theorem eq_file_of_seen {content : Bytes} (h : seen found? = some (.file content)) :
    ∃ other, found? = some (.file other) := by
  unfold seen at h
  split at h
  · exact ⟨_, rfl⟩
  · exact ⟨content, h⟩

end seen_entries

/-- Where a spot is. -/
def Spot.location : Spot → Location
  | .found location => location
  | .missing directory name => directory ++ [name]

section later_files
variable {later : FileSystem}
  (hseen : ∀ location, fs.get? location ≠ none →
    seen (later.get? location) = seen (fs.get? location))
include hseen

/-- What a stretch without links comes to can be reached, and so can what is reached behind the link
    at which it stops; also after further entries were made, perhaps a file at a missing spot. The
    induction is on the names, and each name is a `.`, a `..` or looked up. -/
theorem leads_of_stretch {links : Nat} {here : Location} {names : List String} :
    (∀ spot, stretch fs true here names = .done spot →
      (∀ directory name, spot = .missing directory name →
        ∃ content, later.get? (directory ++ [name]) = some (.file content)) →
        Leads later links here names spot.location) ∧
    ∀ directory target rest, stretch fs true here names = .follow directory target rest →
      target ≠ "" → ∀ goal,
        Leads later links (Path.origin directory ⟨target⟩) (Path.steps ⟨target⟩ ++ rest) goal →
          Leads later (links + 1) here names goal := by
  induction names generalizing here with
  | nil =>
    refine ⟨fun spot h _ => ?_, nofun⟩
    cases h
    exact .here
  | cons name names ih =>
    by_cases hdot : name = "."
    · subst hdot
      rw [stretch_dot]
      exact ⟨fun spot h hfile => .dot rfl (ih.1 spot h hfile), fun _ _ _ h htarget goal hgoal =>
        .dot rfl (ih.2 _ _ _ h htarget goal hgoal)⟩
    by_cases hparent : name = ".."
    · subst hparent
      rw [stretch_parent]
      exact ⟨fun spot h hfile => .parent rfl (ih.1 spot h hfile),
        fun _ _ _ h htarget goal hgoal => .parent rfl (ih.2 _ _ _ h htarget goal hgoal)⟩
    -- the name is looked up, and what stands there decides
    rw [stretch_name true here hdot hparent]
    by_cases hlength : maxNameLength < name.utf8ByteSize
    · rw [if_pos hlength]
      exact ⟨nofun, nofun⟩
    rw [if_neg hlength]
    have hlength := Nat.not_lt.mp hlength
    have hlater := hseen (here ++ [name])
    cases hentry : fs.get? (here ++ [name]) with
    | none =>
      dsimp only
      split
      · next hlast =>
        obtain rfl := List.isEmpty_iff.mp hlast
        refine ⟨fun spot h hfile => ?_, nofun⟩
        cases h
        obtain ⟨content, hfile⟩ := hfile here name rfl
        exact .file hdot hparent hlength hfile
      · exact ⟨nofun, nofun⟩
    | some entry =>
      rw [hentry] at hlater
      have hlater := hlater nofun
      cases entry with
      | directory =>
        have hdirectory := eq_directory_of_seen hlater
        exact ⟨fun spot h hfile =>
          .directory hdot hparent hlength hdirectory (ih.1 spot h hfile),
          fun _ _ _ h htarget goal hgoal =>
            .directory hdot hparent hlength hdirectory (ih.2 _ _ _ h htarget goal hgoal)⟩
      | file content =>
        dsimp only
        cases names with
        | nil =>
          refine ⟨fun spot h _ => ?_, nofun⟩
          cases h
          obtain ⟨_, hfile⟩ := eq_file_of_seen hlater
          exact .file hdot hparent hlength hfile
        | cons next names => exact ⟨nofun, nofun⟩
      | link target =>
        dsimp only
        rw [Bool.not_true, Bool.and_false, if_neg Bool.false_ne_true]
        refine ⟨nofun, fun _ _ _ h htarget goal hgoal => ?_⟩
        cases h
        exact .link hdot hparent hlength (eq_link_of_seen hlater) htarget hgoal

/-- A walk says how its spot is reached, also later when a missing spot has become a file. -/
theorem Leads.of_walk {links : Nat} {here : Location} {names : List String} {spot : Spot}
    (h : walk fs true links here names = .ok spot)
    (hfile : ∀ directory name, spot = .missing directory name →
      ∃ content, later.get? (directory ++ [name]) = some (.file content)) :
    Leads later links here names spot.location := by
  induction links generalizing here names with
  | zero =>
    rcases walk_cases h with hdone | ⟨_, _, _, _, hlinks, -⟩
    · exact (leads_of_stretch hseen).1 spot hdone hfile
    · cases hlinks
  | succ links ih =>
    rcases walk_cases h with hdone | ⟨_, directory, target, rest, hlinks, hfollow, htarget, hrest⟩
    · exact (leads_of_stretch hseen).1 spot hdone hfile
    · cases hlinks
      exact (leads_of_stretch hseen).2 directory target rest hfollow htarget _ (ih hrest)

end later_files

/-- A walk that finds an entry says how it is reached. -/
theorem leads_of_walk {links : Nat} {here goal : Location} {names : List String}
    (h : walk fs true links here names = .ok (.found goal)) : Leads fs links here names goal :=
  .of_walk (fun _ _ => rfl) h nofun

/-! ### Names one after the other -/

section first_names
variable {links : Nat} {here goal : Location} {name : String} {rest : List String}

theorem Leads.behind_dot (h : Leads fs links here (name :: rest) goal) (hname : name = ".") :
    Leads fs links here rest goal := by
  cases h with
  | dot _ h => exact h
  | parent hparent => exact absurd (hname.symm.trans hparent) (by decide)
  | directory hdot => exact absurd hname hdot
  | file hdot => exact absurd hname hdot
  | link hdot => exact absurd hname hdot

theorem Leads.behind_parent (h : Leads fs links here (name :: rest) goal) (hname : name = "..") :
    Leads fs links here.dropLast rest goal := by
  cases h with
  | dot hdot => exact absurd (hname.symm.trans hdot) (by decide)
  | parent _ h => exact h
  | directory _ hparent => exact absurd hname hparent
  | file _ hparent => exact absurd hname hparent
  | link _ hparent => exact absurd hname hparent

variable (hdot : name ≠ ".") (hparent : name ≠ "..")
include hdot hparent

/-- A name behind which a path goes on stands for an entry. -/
theorem Leads.isSome_get? (h : Leads fs links here (name :: rest) goal) :
    (fs.get? (here ++ [name])).isSome := by
  cases h with
  | dot hname => exact absurd hname hdot
  | parent hname => exact absurd hname hparent
  | directory _ _ _ hentry => rw [hentry]; rfl
  | file _ _ _ hentry => rw [hentry]; rfl
  | link _ _ _ hentry => rw [hentry]; rfl

theorem Leads.behind_directory (h : Leads fs links here (name :: rest) goal)
    (hentry : fs.get? (here ++ [name]) = some .directory) :
    Leads fs links (here ++ [name]) rest goal := by
  cases h with
  | dot hname => exact absurd hname hdot
  | parent hname => exact absurd hname hparent
  | directory _ _ _ _ h => exact h
  | file _ _ _ hfile => rw [hentry] at hfile; cases hfile
  | link _ _ _ hlink => rw [hentry] at hlink; cases hlink

theorem Leads.behind_file (h : Leads fs links here (name :: rest) goal) {content : Bytes}
    (hentry : fs.get? (here ++ [name]) = some (.file content)) :
    rest = [] ∧ goal = here ++ [name] := by
  cases h with
  | dot hname => exact absurd hname hdot
  | parent hname => exact absurd hname hparent
  | directory _ _ _ hdirectory => rw [hentry] at hdirectory; cases hdirectory
  | file => exact ⟨rfl, rfl⟩
  | link _ _ _ hlink => rw [hentry] at hlink; cases hlink

theorem Leads.behind_link (h : Leads fs links here (name :: rest) goal) {target : String}
    (hentry : fs.get? (here ++ [name]) = some (.link target)) :
    ∃ left, links = left + 1 ∧ target ≠ "" ∧
      Leads fs left (Path.origin here ⟨target⟩) (Path.steps ⟨target⟩ ++ rest) goal := by
  cases h with
  | dot hname => exact absurd hname hdot
  | parent hname => exact absurd hname hparent
  | directory _ _ _ hdirectory => rw [hentry] at hdirectory; cases hdirectory
  | file _ _ _ hfile => rw [hentry] at hfile; cases hfile
  | link _ _ _ hlink htarget h =>
    rw [hentry] at hlink
    cases hlink
    exact ⟨_, rfl, htarget, h⟩

end first_names

/-- A path leads to one entry only. -/
theorem Leads.unique {links : Nat} {here goal other : Location} {names : List String}
    (h : Leads fs links here names goal) (hother : Leads fs links here names other) :
    goal = other := by
  induction h with
  | here =>
    cases hother
    rfl
  | dot hname _ ih => exact ih (hother.behind_dot hname)
  | parent hname _ ih => exact ih (hother.behind_parent hname)
  | directory hdot hparent _ hentry _ ih =>
    exact ih (hother.behind_directory hdot hparent hentry)
  | file hdot hparent _ hentry => exact (hother.behind_file hdot hparent hentry).2.symm
  | link hdot hparent _ hentry _ _ ih =>
    obtain ⟨left, hlinks, -, hrest⟩ := hother.behind_link hdot hparent hentry
    cases hlinks
    exact ih hrest

/-- A path can be cut and put together again with the same number of links left, also after a change
    that is not seen on the way. -/
theorem Leads.append_transfer {later : FileSystem} {links : Nat} {here place : Location}
    {front : List String} (h : Leads fs links here front place)
    (hplace : fs.get? place = some .directory)
    (hsame : ∀ left directory name rest, left ≤ links →
      Leads fs left directory (name :: rest) place →
        seen (later.get? (directory ++ [name])) = seen (fs.get? (directory ++ [name]))) :
    ∃ left, (∀ back goal, Leads fs links here (front ++ back) goal →
        Leads fs left place back goal) ∧
      ∀ back goal, Leads later left place back goal →
        Leads later links here (front ++ back) goal := by
  induction h with
  | @here links here => exact ⟨links, fun _ _ h => h, fun _ _ h => h⟩
  | dot hname _ ih =>
    obtain ⟨left, hfs, hlater⟩ := ih hplace hsame
    exact ⟨left, fun back goal h => hfs back goal (h.behind_dot hname),
      fun back goal h => .dot hname (hlater back goal h)⟩
  | parent hname _ ih =>
    obtain ⟨left, hfs, hlater⟩ := ih hplace hsame
    exact ⟨left, fun back goal h => hfs back goal (h.behind_parent hname),
      fun back goal h => .parent hname (hlater back goal h)⟩
  | @directory links here place name rest hdot hparent hlength hentry hrest ih =>
    obtain ⟨left, hfs, hlater⟩ := ih hplace hsame
    have hseen := hsame links here name rest (Nat.le_refl _)
      (.directory hdot hparent hlength hentry hrest)
    rw [hentry] at hseen
    have hdirectory := eq_directory_of_seen hseen
    exact ⟨left, fun back goal h => hfs back goal (h.behind_directory hdot hparent hentry),
      fun back goal h => .directory hdot hparent hlength hdirectory (hlater back goal h)⟩
  | file _ _ _ hentry =>
    rw [hentry] at hplace
    cases hplace
  | @link links here place name target rest hdot hparent hlength hentry htarget hrest ih =>
    obtain ⟨left, hfs, hlater⟩ := ih hplace fun left directory name rest hleft =>
      hsame left directory name rest (Nat.le_succ_of_le hleft)
    -- the link is one of what is seen on the way, so it is still the same link
    have hseen := hsame (links + 1) here name rest (Nat.le_refl _)
      (.link hdot hparent hlength hentry htarget hrest)
    rw [hentry] at hseen
    have hlink := eq_link_of_seen hseen
    refine ⟨left, fun back goal h => ?_, fun back goal h => ?_⟩
    · rw [List.cons_append] at h
      obtain ⟨_, hlinks, -, h⟩ := h.behind_link hdot hparent hentry
      cases hlinks
      rw [← List.append_assoc] at h
      exact hfs back goal h
    · have h := hlater back goal h
      rw [List.append_assoc] at h
      exact .link hdot hparent hlength hlink htarget h

/-! ### Leaving out dots -/

/-- Whether names are others without some of their `.`. -/
inductive Undotted : List String → List String → Prop where
  /-- There are none. -/
  | nil : Undotted [] []
  /-- A name stays. -/
  | keep (name : String) {names others : List String} (h : Undotted names others) :
      Undotted (name :: names) (name :: others)
  /-- A `.` is left out. -/
  | drop {name : String} {names others : List String} (hname : name = ".")
      (h : Undotted names others) : Undotted (name :: names) others

theorem Undotted.append_left (front : List String) {names others : List String}
    (h : Undotted names others) : Undotted (front ++ names) (front ++ others) := by
  induction front with
  | nil => exact h
  | cons name front ih => exact .keep name ih

theorem undotted_filter (names : List String) : Undotted names (names.filter (· ≠ ".")) := by
  induction names with
  | nil => exact .nil
  | cons name names ih =>
    by_cases h : name = "."
    · rw [List.filter_cons_of_neg (by simpa using h)]
      exact .drop h ih
    · rw [List.filter_cons_of_pos (by simpa using h)]
      exact .keep name ih

/-- A path leads to the same entry without some of its `.`. -/
theorem Leads.undot {links : Nat} {here goal : Location} {names others : List String}
    (h : Leads fs links here names goal) (hothers : Undotted names others) :
    Leads fs links here others goal := by
  induction h generalizing others with
  | here =>
    cases hothers
    exact .here
  | dot hname _ ih =>
    cases hothers with
    | keep _ hothers => exact .dot hname (ih hothers)
    | drop _ hothers => exact ih hothers
  | parent hname _ ih =>
    cases hothers with
    | keep _ hothers => exact .parent hname (ih hothers)
    | drop hdot => exact absurd (hname.symm.trans hdot) (by decide)
  | directory hdot hparent hlength hentry _ ih =>
    cases hothers with
    | keep _ hothers => exact .directory hdot hparent hlength hentry (ih hothers)
    | drop hname => exact absurd hname hdot
  | file hdot hparent hlength hentry =>
    cases hothers with
    | keep _ hothers =>
      cases hothers
      exact .file hdot hparent hlength hentry
    | drop hname => exact absurd hname hdot
  | link hdot hparent hlength hentry htarget _ ih =>
    cases hothers with
    | keep _ hothers =>
      exact .link hdot hparent hlength hentry htarget (ih (hothers.append_left _))
    | drop hname => exact absurd hname hdot

/-! ### Links at the end -/

/-- A stretch that may follow a link at the end differs from one that may not only if it ends at
    one. -/
theorem stretch_through (fs : FileSystem) (here : Location) (names : List String) :
    stretch fs false here names = stretch fs true here names ∨
      ∃ goal target, stretch fs false here names = .done (.found goal) ∧
        fs.get? goal = some (.link target) := by
  induction names generalizing here with
  | nil => exact .inl rfl
  | cons name names ih =>
    by_cases hdot : name = "."
    · subst hdot
      exact ih here
    by_cases hparent : name = ".."
    · subst hparent
      exact ih here.dropLast
    -- the two differ only where a link is the last name
    rw [stretch_name false here hdot hparent, stretch_name true here hdot hparent]
    by_cases hlength : maxNameLength < name.utf8ByteSize
    · rw [if_pos hlength, if_pos hlength]
      exact .inl rfl
    rw [if_neg hlength, if_neg hlength]
    cases hentry : fs.get? (here ++ [name]) with
    | none => exact .inl rfl
    | some entry =>
      cases entry with
      | directory => exact ih (here ++ [name])
      | file content => exact .inl rfl
      | link target =>
        cases names with
        | nil => exact .inr ⟨here ++ [name], target, rfl, hentry⟩
        | cons next names => exact .inl rfl

theorem walk_through (fs : FileSystem) (links : Nat) (here : Location) (names : List String) :
    walk fs false links here names = walk fs true links here names ∨
      ∃ goal target, walk fs false links here names = .ok (.found goal) ∧
        fs.get? goal = some (.link target) := by
  induction links generalizing here names with
  | zero =>
    rw [walk, walk]
    rcases stretch_through fs here names with h | ⟨goal, target, h, hgoal⟩
    · rw [h]
      exact .inl rfl
    · rw [h]
      exact .inr ⟨goal, target, rfl, hgoal⟩
  | succ links ih =>
    rw [walk, walk]
    rcases stretch_through fs here names with h | ⟨goal, target, h, hgoal⟩
    · rw [h]
      cases stretch fs true here names with
      | done spot => exact .inl rfl
      | failed error => exact .inl rfl
      | follow directory target rest =>
        dsimp only
        by_cases htarget : target.isEmpty = true
        · rw [if_pos htarget, if_pos htarget]
          exact .inl rfl
        · rw [if_neg htarget, if_neg htarget]
          exact ih _ _
    · rw [h]
      exact .inr ⟨goal, target, rfl, hgoal⟩

/-! ### Finding entries -/

theorem find_eq_ok_iff {through : Bool} {p : Path} {location : Location} {entry : Entry} :
    fs.find through p = .ok (location, entry) ↔
      fs.locate through p = .ok (.found location) ∧ fs.get? location = some entry := by
  unfold find
  rw [bind_eq_ok]
  constructor
  · rintro ⟨spot, hspot, h⟩
    cases spot with
    | missing => cases h
    | found found =>
      dsimp only at h
      cases hentry : fs.get? found with
      | none => rw [hentry] at h; cases h
      | some other =>
        rw [hentry] at h
        cases h
        exact ⟨hspot, hentry⟩
  · rintro ⟨hspot, hentry⟩
    refine ⟨_, hspot, ?_⟩
    dsimp only
    rw [hentry]
    rfl

theorem locate_eq_ok_iff {through : Bool} {p : Path} {spot : Spot} :
    fs.locate through p = .ok spot ↔ p.text ≠ "" ∧ p.text.utf8ByteSize < pathLengthLimit ∧
      walk fs through maxLinks (p.origin fs.workingDirectory) p.steps = .ok spot := by
  unfold locate
  by_cases hempty : p.text.isEmpty = true
  · rw [if_pos hempty]
    refine iff_of_false nofun ?_
    rintro ⟨hne, -⟩
    exact hne (by simpa using hempty)
  rw [if_neg hempty]
  have hne : p.text ≠ "" := by simpa using hempty
  by_cases hlength : pathLengthLimit ≤ p.text.utf8ByteSize
  · rw [if_pos hlength]
    refine iff_of_false nofun ?_
    rintro ⟨-, hlt, -⟩
    exact absurd hlength (Nat.not_le.mpr hlt)
  · rw [if_neg hlength]
    exact ⟨fun h => ⟨hne, Nat.not_le.mp hlength, h⟩, fun h => h.2.2⟩

/-- A path that is found says how its entry is reached. -/
theorem leads_of_find {p : Path} {location : Location} {entry : Entry}
    (h : fs.find true p = .ok (location, entry)) :
    p.text ≠ "" ∧ Leads fs maxLinks (p.origin fs.workingDirectory) p.steps location ∧
      fs.get? location = some entry := by
  obtain ⟨hlocate, hentry⟩ := find_eq_ok_iff.mp h
  obtain ⟨hne, -, hwalk⟩ := locate_eq_ok_iff.mp hlocate
  exact ⟨hne, leads_of_walk hwalk, hentry⟩

/-- Following a link at the end makes a difference only if there is one. -/
theorem locate_through (fs : FileSystem) (p : Path) : fs.locate false p = fs.locate true p ∨
    ∃ location target, fs.locate false p = .ok (.found location) ∧
      fs.get? location = some (.link target) := by
  unfold locate
  by_cases hempty : p.text.isEmpty = true
  · rw [if_pos hempty, if_pos hempty]
    exact .inl rfl
  rw [if_neg hempty, if_neg hempty]
  by_cases hlength : pathLengthLimit ≤ p.text.utf8ByteSize
  · rw [if_pos hlength, if_pos hlength]
    exact .inl rfl
  · rw [if_neg hlength, if_neg hlength]
    exact walk_through fs _ _ _

theorem find_through (fs : FileSystem) (p : Path) : fs.find false p = fs.find true p ∨
    ∃ location target, fs.find false p = .ok (location, .link target) := by
  rcases locate_through fs p with h | ⟨location, target, h, hentry⟩
  · left
    unfold find
    rw [h]
  · exact .inr ⟨location, target, find_eq_ok_iff.mpr ⟨h, hentry⟩⟩

theorem find_true_of_file {p : Path} {location : Location} {content : Bytes}
    (h : fs.find false p = .ok (location, .file content)) :
    fs.find true p = .ok (location, .file content) := by
  rcases find_through fs p with hsame | ⟨_, _, hlink⟩
  · exact hsame.symm.trans h
  · rw [h] at hlink
    cases hlink

/-! ### Reading -/

theorem isPresent_iff {p : Path} : fs.isPresent p = true ↔ ∃ found, fs.find true p = .ok found := by
  unfold isPresent entry
  cases fs.find true p with
  | ok found => exact iff_of_true rfl ⟨found, rfl⟩
  | error error => exact iff_of_false nofun nofun

theorem isDirectory_iff {p : Path} :
    fs.isDirectory p = true ↔ ∃ location, fs.find true p = .ok (location, .directory) := by
  unfold isDirectory entry
  cases hfind : fs.find true p with
  | error error => exact iff_of_false nofun nofun
  | ok found =>
    obtain ⟨location, entry⟩ := found
    cases entry with
    | directory => exact iff_of_true rfl ⟨_, rfl⟩
    | file content => exact iff_of_false nofun nofun
    | link target => exact iff_of_false nofun nofun

theorem readFile_eq_ok_iff {p : Path} {content : Bytes} :
    fs.readFile p = .ok content ↔ ∃ location, fs.find true p = .ok (location, .file content) := by
  unfold readFile entry
  cases fs.find true p with
  | error error => exact iff_of_false nofun nofun
  | ok found =>
    obtain ⟨location, entry⟩ := found
    cases entry with
    | file other =>
      constructor
      · intro h
        cases h
        exact ⟨location, rfl⟩
      · rintro ⟨_, h⟩
        cases h
        rfl
    | directory => exact iff_of_false nofun nofun
    | link target => exact iff_of_false nofun nofun

theorem list_eq_ok_iff {p : Path} {present : List (String × Entry)} :
    fs.list p = .ok present ↔
      ∃ location, fs.find true p = .ok (location, .directory) ∧
        present = fs.children location := by
  unfold list
  rw [bind_eq_ok]
  constructor
  · rintro ⟨⟨location, entry⟩, hfind, h⟩
    cases entry with
    | directory =>
      cases h
      exact ⟨location, hfind, rfl⟩
    | file content => cases h
    | link target => cases h
  · rintro ⟨location, hfind, rfl⟩
    exact ⟨_, hfind, rfl⟩

end FileSystem

end PackageRelease
