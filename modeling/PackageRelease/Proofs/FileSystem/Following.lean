import PackageRelease.Proofs.FileSystem.Operations

/-! # Following a path in parts

  What is known of a path can be taken apart and put together. The key idea: the names of a path are
  followed one after the other, so wherever the names are cut, the front leads to a place and the
  back leads on from there, with the links that are left.
-/

namespace PackageRelease

namespace FileSystem

variable {fs : FileSystem}

/-! ### Cutting a path -/

/-- A path that leads to a place still does if more links may be followed. -/
theorem Leads.mono {links more : Nat} {here goal : Location} {names : List String}
    (h : Leads fs links here names goal) (hmore : links ≤ more) :
    Leads fs more here names goal := by
  induction h generalizing more with
  | here => exact .here
  | dot hname _ ih => exact .dot hname (ih hmore)
  | parent hname _ ih => exact .parent hname (ih hmore)
  | directory hdot hparent hlength hentry _ ih =>
    exact .directory hdot hparent hlength hentry (ih hmore)
  | file hdot hparent hlength hentry => exact .file hdot hparent hlength hentry
  | link hdot hparent hlength hentry htarget _ ih =>
    obtain ⟨left, rfl⟩ := Nat.exists_eq_add_of_lt (Nat.lt_of_succ_le hmore)
    exact .link hdot hparent hlength hentry htarget (ih (by omega))

/-- Whether a path leads to a place at which it is cut, and leads on from there. -/
def Parts (fs : FileSystem) (links : Nat) (here : Location) (front back : List String)
    (goal : Location) : Prop :=
  ∃ place left, left ≤ links ∧ Leads fs links here front place ∧ Leads fs left place back goal

/-- A path that leads to a place can be cut anywhere. The induction is on the way of the whole path,
    and a link is cut behind its own names. -/
theorem Leads.cut {links : Nat} {here goal : Location} {front back : List String}
    (h : Leads fs links here (front ++ back) goal) : Parts fs links here front back goal := by
  have hwhole : ∀ {links here goal}, Leads fs links here back goal →
      Parts fs links here [] back goal := fun h => ⟨_, _, Nat.le_refl _, .here, h⟩
  generalize hnames : front ++ back = names at h
  induction h generalizing front with
  | here =>
    obtain ⟨rfl, rfl⟩ := List.append_eq_nil_iff.mp hnames
    exact hwhole .here
  | dot hname hrest ih =>
    rcases List.append_eq_cons_iff.mp hnames with ⟨rfl, rfl⟩ | ⟨front, rfl, rfl⟩
    · exact hwhole (.dot hname hrest)
    · obtain ⟨place, left, hleft, hfront, hback⟩ := ih rfl
      exact ⟨place, left, hleft, .dot hname hfront, hback⟩
  | parent hname hrest ih =>
    rcases List.append_eq_cons_iff.mp hnames with ⟨rfl, rfl⟩ | ⟨front, rfl, rfl⟩
    · exact hwhole (.parent hname hrest)
    · obtain ⟨place, left, hleft, hfront, hback⟩ := ih rfl
      exact ⟨place, left, hleft, .parent hname hfront, hback⟩
  | directory hdot hparent hlength hentry hrest ih =>
    rcases List.append_eq_cons_iff.mp hnames with ⟨rfl, rfl⟩ | ⟨front, rfl, rfl⟩
    · exact hwhole (.directory hdot hparent hlength hentry hrest)
    · obtain ⟨place, left, hleft, hfront, hback⟩ := ih rfl
      exact ⟨place, left, hleft, .directory hdot hparent hlength hentry hfront, hback⟩
  | file hdot hparent hlength hentry =>
    rcases List.append_eq_cons_iff.mp hnames with ⟨rfl, rfl⟩ | ⟨front, rfl, hnil⟩
    · exact hwhole (.file hdot hparent hlength hentry)
    · obtain ⟨rfl, rfl⟩ := List.append_eq_nil_iff.mp hnil.symm
      exact ⟨_, _, Nat.le_refl _, .file hdot hparent hlength hentry, .here⟩
  | link hdot hparent hlength hentry htarget hrest ih =>
    rcases List.append_eq_cons_iff.mp hnames with ⟨rfl, rfl⟩ | ⟨front, rfl, rfl⟩
    · exact hwhole (.link hdot hparent hlength hentry htarget hrest)
    · obtain ⟨place, left, hleft, hfront, hback⟩ := ih (List.append_assoc _ _ _)
      exact ⟨place, left, Nat.le_succ_of_le hleft,
        .link hdot hparent hlength hentry htarget hfront, hback⟩

/-! ### From the way to the walk -/

theorem walk_of_stretch {through : Bool} {here other : Location} {names others : List String}
    (h : stretch fs through here names = stretch fs through other others) (links : Nat) :
    walk fs through links here names = walk fs through links other others := by
  rw [walk, walk, h]

theorem walk_of_follow {through : Bool} {here directory : Location} {names rest : List String}
    {target : String} (h : stretch fs through here names = .follow directory target rest)
    (htarget : target ≠ "") (links : Nat) :
    walk fs through (links + 1) here names =
      walk fs through links (Path.origin directory ⟨target⟩) (Path.steps ⟨target⟩ ++ rest) := by
  rw [walk, h]
  exact if_neg (by simpa using htarget)

/-- Where a name in a directory is. -/
def Spot.under (fs : FileSystem) (directory : Location) (name : String) : Spot :=
  if (fs.get? (directory ++ [name])).isNone then .missing directory name
  else .found (directory ++ [name])

theorem Spot.location_under (fs : FileSystem) (directory : Location) (name : String) :
    (Spot.under fs directory name).location = directory ++ [name] := by
  unfold Spot.under
  split <;> rfl

/-- A last name leads to its place in the directory if a link there is not followed. -/
theorem walk_last (fs : FileSystem) (links : Nat) (directory : Location) {name : String}
    (hdot : name ≠ ".") (hparent : name ≠ "..") :
    walk fs false links directory [name] =
      if maxNameLength < name.utf8ByteSize then .error .nameTooLong
      else .ok (Spot.under fs directory name) := by
  rw [walk, stretch_name false directory hdot hparent]
  by_cases hlength : maxNameLength < name.utf8ByteSize
  · rw [if_pos hlength, if_pos hlength]
  rw [if_neg hlength, if_neg hlength]
  unfold Spot.under
  cases fs.get? (directory ++ [name]) with
  | none => rfl
  | some entry => cases entry <;> rfl

/-- A walk comes to each place on the way that its names describe. Behind a file there may be no
    further names, and a link at the very end has to be followed. -/
theorem Leads.walk_append {through : Bool} {links : Nat} {here place : Location}
    {front back : List String} (h : Leads fs links here front place)
    (hback : back = [] ∧ through = true ∨ back ≠ [] ∧ fs.get? place = some .directory) :
    ∃ left, walk fs through links here (front ++ back) = walk fs through left place back := by
  induction h with
  | here => exact ⟨_, rfl⟩
  | @dot links here _ name rest hname _ ih =>
    subst hname
    obtain ⟨left, hleft⟩ := ih hback
    exact ⟨left, (walk_of_stretch (stretch_dot through here _) links).trans hleft⟩
  | @parent links here _ name rest hname _ ih =>
    subst hname
    obtain ⟨left, hleft⟩ := ih hback
    exact ⟨left, (walk_of_stretch (stretch_parent through here _) links).trans hleft⟩
  | @directory links here _ name rest hdot hparent hlength hentry _ ih =>
    obtain ⟨left, hleft⟩ := ih hback
    refine ⟨left, (walk_of_stretch ?_ links).trans hleft⟩
    rw [List.cons_append, stretch_name through here hdot hparent, if_neg (Nat.not_lt.mpr hlength),
      hentry]
  | @file links here name content hdot hparent hlength hentry =>
    rcases hback with ⟨rfl, -⟩ | ⟨-, hdirectory⟩
    · refine ⟨links, walk_of_stretch ?_ links⟩
      rw [List.append_nil, stretch_name through here hdot hparent, if_neg (Nat.not_lt.mpr hlength),
        hentry]
      rfl
    · rw [hentry] at hdirectory
      cases hdirectory
  | @link links here _ name target rest hdot hparent hlength hentry htarget _ ih =>
    obtain ⟨left, hleft⟩ := ih hback
    rw [List.append_assoc] at hleft
    refine ⟨left, (walk_of_follow ?_ htarget links).trans hleft⟩
    -- the link is not the end, or it may be followed there
    have hfollow : ¬ ((rest ++ back).isEmpty && !through) = true := by
      rcases hback with ⟨-, rfl⟩ | ⟨hne, -⟩
      · simp
      · simp [hne]
    rw [List.cons_append, stretch_name through here hdot hparent, if_neg (Nat.not_lt.mpr hlength),
      hentry]
    dsimp only
    rw [if_neg hfollow]

/-- A walk finds what its names lead to. -/
theorem Leads.walk_eq {links : Nat} {here goal : Location} {names : List String}
    (h : Leads fs links here names goal) :
    walk fs true links here names = .ok (.found goal) := by
  obtain ⟨left, hleft⟩ := h.walk_append (.inl ⟨rfl, rfl⟩)
  rw [List.append_nil] at hleft
  rw [hleft, walk]
  rfl

/-- A path finds what its names lead to. -/
theorem find_of_leads {p : Path} (hempty : p.text ≠ "")
    (hlength : p.text.utf8ByteSize < pathLengthLimit) {goal : Location} {entry : Entry}
    (h : Leads fs maxLinks (p.origin fs.workingDirectory) p.steps goal)
    (hentry : fs.get? goal = some entry) : fs.find true p = .ok (goal, entry) :=
  find_eq_ok_iff.mpr ⟨locate_eq_ok_iff.mpr ⟨hempty, hlength, h.walk_eq⟩, hentry⟩

/-! ### Putting in dots -/

/-- Whether names are others with some `.` in front of them. -/
inductive Padded : List String → List String → Prop where
  /-- There are none. -/
  | nil : Padded [] []
  /-- A name is there in both. -/
  | keep (name : String) {names others : List String} (h : Padded names others) :
      Padded (name :: names) (name :: others)
  /-- A `.` is put in front of a name. -/
  | pad {name next : String} {names others : List String} (hname : name = ".")
      (h : Padded names (next :: others)) : Padded (name :: names) (next :: others)

theorem Padded.append_left (front : List String) {names others : List String}
    (h : Padded names others) : Padded (front ++ names) (front ++ others) := by
  induction front with
  | nil => exact h
  | cons name front ih => exact .keep name ih

/-- Each `.` in front of a last name can be left out. -/
theorem padded_concat (front : List String) (last : String) :
    Padded (front ++ [last]) (front.filter (· ≠ ".") ++ [last]) := by
  induction front with
  | nil => exact .keep last .nil
  | cons name front ih =>
    by_cases h : name = "."
    · rw [List.filter_cons_of_neg (by simpa using h)]
      obtain ⟨next, others, heq⟩ := List.exists_cons_of_ne_nil
        (List.append_ne_nil_of_right_ne_nil (front.filter (· ≠ ".")) (List.cons_ne_nil last []))
      rw [heq] at ih ⊢
      exact .pad h ih
    · rw [List.filter_cons_of_pos (by simpa using h)]
      exact .keep name ih

/-- The dots in front of a name stay where they are. -/
theorem Padded.leads {links : Nat} {here goal : Location} {name : String}
    {names rest : List String} (hnames : Padded names (name :: rest))
    (h : ∀ tail, Padded tail rest → Leads fs links here (name :: tail) goal) :
    Leads fs links here names goal := by
  generalize hothers : name :: rest = others at hnames
  induction hnames with
  | nil => cases hothers
  | keep _ htail =>
    cases hothers
    exact h _ htail
  | pad hname _ ih => exact .dot hname (ih hothers)

/-- A path leads to the same entry with further `.` in front of its names. -/
theorem Leads.redot {links : Nat} {here goal : Location} {names others : List String}
    (h : Leads fs links here others goal) (hnames : Padded names others) :
    Leads fs links here names goal := by
  induction h generalizing names with
  | here =>
    cases hnames
    exact .here
  | dot hname _ ih => exact hnames.leads fun tail htail => .dot hname (ih htail)
  | parent hname _ ih => exact hnames.leads fun tail htail => .parent hname (ih htail)
  | directory hdot hparent hlength hentry _ ih =>
    exact hnames.leads fun tail htail => .directory hdot hparent hlength hentry (ih htail)
  | file hdot hparent hlength hentry =>
    refine hnames.leads fun tail htail => ?_
    cases htail
    exact .file hdot hparent hlength hentry
  | link hdot hparent hlength hentry htarget _ ih =>
    exact hnames.leads fun tail htail =>
      .link hdot hparent hlength hentry htarget (ih (htail.append_left _))

/-! ### Files end paths -/

/-- Behind a file no path goes on. The way keeps to directories, so it begins at none of its
    files. -/
theorem Leads.eq_nil_of_file (htree : fs.IsTree) {links more : Nat} {here place goal : Location}
    {front back : List String} {content : Bytes} (h : Leads fs links here front place)
    (hhere : fs.get? here = some .directory) (hplace : fs.get? place = some (.file content))
    (hgoal : Leads fs more here (front ++ back) goal) : back = [] := by
  induction h generalizing more with
  | here =>
    rw [hhere] at hplace
    cases hplace
  | dot hname _ ih => exact ih hhere hplace (hgoal.behind_dot hname)
  | parent hname _ ih =>
    exact ih (htree.directory_dropLast hhere) hplace (hgoal.behind_parent hname)
  | directory hdot hparent _ hentry _ ih =>
    exact ih hentry hplace (hgoal.behind_directory hdot hparent hentry)
  | file hdot hparent _ hentry => exact (hgoal.behind_file hdot hparent hentry).1
  | link hdot hparent _ hentry _ _ ih =>
    rw [List.cons_append] at hgoal
    obtain ⟨left, -, -, hrest⟩ := hgoal.behind_link hdot hparent hentry
    rw [← List.append_assoc] at hrest
    exact ih (directory_origin hhere _) hplace hrest

/-- Whether no path through a name in a directory comes to another directory. -/
def EndsPaths (fs : FileSystem) (directory : Location) (name : String) : Prop :=
  ∀ links back goal, Leads fs links directory (name :: back) goal →
    fs.get? goal ≠ some .directory

/-- A name that leads to a file ends all paths. -/
theorem Leads.endsPaths (htree : fs.IsTree) {links : Nat} {directory place : Location}
    {name : String} {content : Bytes} (h : Leads fs links directory [name] place)
    (hdirectory : fs.get? directory = some .directory)
    (hplace : fs.get? place = some (.file content)) : EndsPaths fs directory name := by
  intro more back goal hgoal
  obtain rfl := h.eq_nil_of_file htree hdirectory hplace hgoal
  -- with enough links for both ways they are the same
  rw [← (h.mono (Nat.le_max_left links more)).unique (hgoal.mono (Nat.le_max_right links more)),
    hplace]
  nofun

theorem endsPaths_of_none {directory : Location} {name : String} (hname : IsName name)
    (h : fs.get? (directory ++ [name]) = none) : EndsPaths fs directory name := by
  intro links back goal hgoal
  have hsome := hgoal.isSome_get? hname.2.2.1 hname.2.2.2
  rw [h] at hsome
  cases hsome

/-! ### Paths in a changed file system -/

/-- A path leads to the same place after a change if the change is not seen on the way: nowhere from
    where the path still comes to that place. -/
theorem Leads.transfer {other : FileSystem} {links : Nat} {here goal : Location}
    {names : List String} (h : Leads fs links here names goal)
    (hsame : ∀ left directory name rest, left ≤ links →
      Leads fs left directory (name :: rest) goal →
        seen (other.get? (directory ++ [name])) = seen (fs.get? (directory ++ [name]))) :
    Leads other links here names goal := by
  induction h with
  | here => exact .here
  | dot hname _ ih => exact .dot hname (ih hsame)
  | parent hname _ ih => exact .parent hname (ih hsame)
  | @directory links here goal name rest hdot hparent hlength hentry hrest ih =>
    have hseen := hsame links here name rest (Nat.le_refl _)
      (.directory hdot hparent hlength hentry hrest)
    rw [hentry] at hseen
    exact .directory hdot hparent hlength (eq_directory_of_seen hseen) (ih hsame)
  | @file links here name content hdot hparent hlength hentry =>
    have hseen := hsame links here name [] (Nat.le_refl _) (.file hdot hparent hlength hentry)
    rw [hentry] at hseen
    obtain ⟨_, hother⟩ := eq_file_of_seen hseen
    exact .file hdot hparent hlength hother
  | @link links here goal name target rest hdot hparent hlength hentry htarget hrest ih =>
    have hseen := hsame (links + 1) here name rest (Nat.le_refl _)
      (.link hdot hparent hlength hentry htarget hrest)
    rw [hentry] at hseen
    refine .link hdot hparent hlength (eq_link_of_seen hseen) htarget (ih ?_)
    intro left directory name rest hleft
    exact hsame left directory name rest (Nat.le_succ_of_le hleft)

/-- Whether a change is seen only where paths end, and not on the way to any directory. -/
structure KeepsWays (fs later : FileSystem) : Prop where
  /-- Relative paths start in the same directory. -/
  current : later.workingDirectory = fs.workingDirectory
  /-- What stands under a name looks the same, or no path through it comes to a directory. -/
  seen : ∀ directory name,
    seen (later.get? (directory ++ [name])) = seen (fs.get? (directory ++ [name])) ∨
      EndsPaths fs directory name

section kept_ways
variable {later : FileSystem} (hways : KeepsWays fs later)
include hways

theorem KeepsWays.same {place : Location} (hplace : fs.get? place = some .directory)
    {links : Nat} {directory : Location} {name : String} {rest : List String}
    (h : Leads fs links directory (name :: rest) place) :
    FileSystem.seen (later.get? (directory ++ [name])) =
      FileSystem.seen (fs.get? (directory ++ [name])) :=
  (hways.seen directory name).resolve_right fun hends => hends _ _ _ h hplace

theorem KeepsWays.leads {links : Nat} {here place : Location} {names : List String}
    (h : Leads fs links here names place) (hplace : fs.get? place = some .directory) :
    Leads later links here names place :=
  h.transfer fun _ _ _ _ _ h => hways.same hplace h

theorem KeepsWays.directory (htree : fs.IsTree) {place : Location}
    (h : fs.get? place = some .directory) : later.get? place = some .directory := by
  rcases place.eq_nil_or_concat' with rfl | ⟨directory, name, rfl⟩
  · rfl
  · obtain ⟨⟨-, -, hdot, hparent⟩, hlength⟩ := htree.name _ _ _ h
    have hleads : Leads fs 0 directory [name] (directory ++ [name]) :=
      .directory hdot hparent hlength h .here
    have hseen := hways.same h hleads
    rw [h] at hseen
    exact eq_directory_of_seen hseen

end kept_ways

end FileSystem

end PackageRelease
