import PackageRelease.Proofs.FileSystem.Places

/-! # What a path looks at

  On the way to its place a path looks at one place after the other. The key idea: nothing else
  decides where it leads, so a change somewhere else is not seen by any path that does not look
  there.
-/

namespace PackageRelease

namespace FileSystem

variable {fs later : FileSystem}

/-! ### The places on the way -/

/-- The places at which a stretch looks, up to the link at which it stops. Its end is one of them.
    -/
def stretchLookups (fs : FileSystem) : Location → List String → List Location
  | here, [] => [here]
  | here, "." :: rest => stretchLookups fs here rest
  | here, ".." :: rest => stretchLookups fs here.dropLast rest
  | here, name :: rest => (here ++ [name]) ::
    match fs.get? (here ++ [name]) with
    | some .directory => stretchLookups fs (here ++ [name]) rest
    | _ => []

/-- The places at which a walk looks that follows at most the given number of links. -/
def walkLookups (fs : FileSystem) : Nat → Location → List String → List Location
  | links, here, names => stretchLookups fs here names ++
    match stretch fs true here names with
    | .follow directory target rest =>
      match links with
      | 0 => []
      | links + 1 => walkLookups fs links (Path.origin directory ⟨target⟩)
        (Path.steps ⟨target⟩ ++ rest)
    | _ => []

/-- The places at which a path looks, links followed. -/
def lookups (fs : FileSystem) (p : Path) : List Location :=
  if p.text.isEmpty ∨ pathLengthLimit ≤ p.text.utf8ByteSize then []
  else walkLookups fs maxLinks (p.origin fs.workingDirectory) p.steps

theorem stretchLookups_name (here : Location) {name : String} (hdot : name ≠ ".")
    (hparent : name ≠ "..") (rest : List String) :
    stretchLookups fs here (name :: rest) = (here ++ [name]) ::
      match fs.get? (here ++ [name]) with
      | some .directory => stretchLookups fs (here ++ [name]) rest
      | _ => [] :=
  stretchLookups.eq_4 fs here name rest hdot hparent

theorem walkLookups_follow {links : Nat} {here directory : Location} {names rest : List String}
    {target : String} (h : stretch fs true here names = .follow directory target rest) :
    walkLookups fs (links + 1) here names = stretchLookups fs here names ++
      walkLookups fs links (Path.origin directory ⟨target⟩) (Path.steps ⟨target⟩ ++ rest) := by
  rw [walkLookups, h]

theorem stretchLookups_subset (fs : FileSystem) (links : Nat) (here : Location)
    (names : List String) : stretchLookups fs here names ⊆ walkLookups fs links here names := by
  intro place hplace
  rw [walkLookups]
  exact List.mem_append_left _ hplace

/-! ### The place at the end -/

/-- A stretch looks at its end. -/
theorem location_mem_stretchLookups {here : Location} {names : List String} {spot : Spot}
    (h : stretch fs true here names = .done spot) :
    spot.location ∈ stretchLookups fs here names := by
  induction names generalizing here with
  | nil =>
    cases h
    exact List.mem_singleton.mpr rfl
  | cons name rest ih =>
    by_cases hdot : name = "."
    · subst hdot
      exact ih h
    by_cases hparent : name = ".."
    · subst hparent
      exact ih h
    rw [stretch_name true here hdot hparent] at h
    rw [stretchLookups_name here hdot hparent]
    split at h
    · cases h
    -- the last name is looked up, and other names are so behind a directory
    cases hentry : fs.get? (here ++ [name]) with
    | none =>
      rw [hentry] at h
      dsimp only at h
      split at h <;> cases h
      exact List.mem_cons_self
    | some entry =>
      rw [hentry] at h
      cases entry with
      | directory => exact List.mem_cons_of_mem _ (ih h)
      | file content =>
        dsimp only at h
        split at h <;> cases h
        exact List.mem_cons_self
      | link target =>
        dsimp only at h
        rw [Bool.not_true, Bool.and_false, if_neg Bool.false_ne_true] at h
        cases h

/-- A walk looks at its end. -/
theorem location_mem_walkLookups {links : Nat} {here : Location} {names : List String} {spot : Spot}
    (h : walk fs true links here names = .ok spot) :
    spot.location ∈ walkLookups fs links here names := by
  induction links generalizing here names with
  | zero =>
    rcases walk_cases h with hdone | ⟨_, _, _, _, hlinks, -⟩
    · exact stretchLookups_subset fs 0 here names (location_mem_stretchLookups hdone)
    · cases hlinks
  | succ links ih =>
    rcases walk_cases h with hdone | ⟨_, directory, target, rest, hlinks, hfollow, -, hrest⟩
    · exact stretchLookups_subset fs (links + 1) here names (location_mem_stretchLookups hdone)
    · cases hlinks
      rw [walkLookups_follow hfollow]
      exact List.mem_append_right _ (ih hrest)

/-- A path looks at its place. -/
theorem mem_lookups_of_place? {p : Path} {place : Location} (h : fs.place? true p = some place) :
    place ∈ fs.lookups p := by
  obtain ⟨spot, hlocate, rfl⟩ := place?_eq_some_iff.mp h
  obtain ⟨hempty, hlength, hwalk⟩ := locate_eq_ok_iff.mp hlocate
  have hwritten : ¬(p.text.isEmpty = true ∨ pathLengthLimit ≤ p.text.utf8ByteSize) :=
    not_or.mpr ⟨by simpa using hempty, Nat.not_le.mpr hlength⟩
  unfold lookups
  rw [if_neg hwritten]
  exact location_mem_walkLookups hwalk

/-! ### Changes somewhere else -/

/-- A stretch does not see a change at a place at which it does not look. -/
theorem stretch_eq_of_lookups {here : Location} {names : List String}
    (h : ∀ place ∈ stretchLookups fs here names, later.get? place = fs.get? place) :
    stretch later true here names = stretch fs true here names := by
  induction names generalizing here with
  | nil => rfl
  | cons name rest ih =>
    by_cases hdot : name = "."
    · subst hdot
      exact ih h
    by_cases hparent : name = ".."
    · subst hparent
      exact ih h
    rw [stretchLookups_name here hdot hparent] at h
    rw [stretch_name true here hdot hparent, stretch_name true here hdot hparent,
      h _ List.mem_cons_self]
    cases hentry : fs.get? (here ++ [name]) with
    | none => rfl
    | some entry =>
      cases entry with
      | file content => rfl
      | link target => rfl
      | directory =>
        -- what is looked at behind the directory is looked at by the whole stretch
        rw [hentry] at h
        dsimp only
        rw [ih fun place hplace => h place (List.mem_cons_of_mem _ hplace)]

theorem walk_eq_of_lookups {links : Nat} {here : Location} {names : List String}
    (h : ∀ place ∈ walkLookups fs links here names, later.get? place = fs.get? place) :
    walk later true links here names = walk fs true links here names := by
  have hstretch : stretch later true here names = stretch fs true here names :=
    stretch_eq_of_lookups fun place hplace =>
      h place (stretchLookups_subset fs links here names hplace)
  induction links generalizing here names with
  | zero => rw [walk, walk, hstretch]
  | succ links ih =>
    rw [walk, walk, hstretch]
    cases hstop : stretch fs true here names with
    | done spot => rfl
    | failed error => rfl
    | follow directory target rest =>
      -- both go on behind the same link, looking at the same places
      rw [walkLookups_follow hstop] at h
      have hrest := fun place hplace => h place (List.mem_append_right _ hplace)
      dsimp only
      rw [ih hrest (stretch_eq_of_lookups fun place hplace =>
        hrest place (stretchLookups_subset fs links _ _ hplace))]

section changes
variable {p : Path} (hcurrent : later.workingDirectory = fs.workingDirectory)
  (h : ∀ place ∈ fs.lookups p, later.get? place = fs.get? place)
include hcurrent h

/-- A path leads to the same place after a change at places at which it does not look. -/
theorem locate_eq_of_lookups : later.locate true p = fs.locate true p := by
  unfold locate
  by_cases hempty : p.text.isEmpty = true
  · rw [if_pos hempty, if_pos hempty]
  by_cases hlength : pathLengthLimit ≤ p.text.utf8ByteSize
  · rw [if_neg hempty, if_neg hempty, if_pos hlength, if_pos hlength]
  rw [if_neg hempty, if_neg hempty, if_neg hlength, if_neg hlength, hcurrent]
  unfold lookups at h
  rw [if_neg (not_or.mpr ⟨hempty, hlength⟩)] at h
  exact walk_eq_of_lookups h

/-- A path finds the same entry after such a change, or fails in the same way. -/
theorem find_eq_of_lookups : later.find true p = fs.find true p := by
  unfold find
  rw [locate_eq_of_lookups hcurrent h]
  cases hspot : fs.locate true p with
  | error error => rfl
  | ok spot =>
    cases spot with
    | missing directory name => rfl
    | found location =>
      have hplace : fs.place? true p = some location := place?_eq_some_iff.mpr ⟨_, hspot, rfl⟩
      dsimp only [Bind.bind, Except.bind]
      rw [h location (mem_lookups_of_place? hplace)]

/-- The same is read. -/
theorem readFile_eq_of_lookups : later.readFile p = fs.readFile p := by
  unfold readFile entry
  rw [find_eq_of_lookups hcurrent h]

end changes

end FileSystem

end PackageRelease
