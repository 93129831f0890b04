import PackageRelease.Manifest.Store
import PackageRelease.Proofs.FileSystem.Tree

/-! # Operations on a tree of files

  Every operation makes a tree out of a tree. The key idea: an operation puts an entry into a
  directory or erases one that is no directory, and both keep the place of all other entries.
-/

namespace PackageRelease

namespace FileSystem

variable {fs after : FileSystem}

/-- A tree with the working directory in it. -/
structure Grounded (fs : FileSystem) : Prop where
  /-- The entries form a tree. -/
  tree : fs.IsTree
  /-- The working directory is a directory. -/
  current : fs.get? fs.workingDirectory = some .directory

/-! ### Putting and erasing -/

theorem mem_keys_putEntry {location other : Location} {entry : Entry}
    {entries : List (Location × Entry)} :
    other ∈ (putEntry location entry entries).map Prod.fst ↔
      other = location ∨ other ∈ entries.map Prod.fst := by
  induction entries with
  | nil => simp [putEntry]
  | cons first rest ih =>
    obtain ⟨l, e⟩ := first
    rw [putEntry]
    by_cases hl : l = location
    · rw [if_pos hl, List.map_cons, List.map_cons, List.mem_cons, hl, or_self_left]
    · rw [if_neg hl, List.map_cons, List.map_cons, List.mem_cons, List.mem_cons, ih]
      exact or_left_comm

theorem nodup_keys_putEntry (location : Location) (entry : Entry)
    {entries : List (Location × Entry)} (h : (entries.map Prod.fst).Nodup) :
    ((putEntry location entry entries).map Prod.fst).Nodup := by
  induction entries with
  | nil => exact List.nodup_cons.mpr ⟨List.not_mem_nil, List.nodup_nil⟩
  | cons first rest ih =>
    obtain ⟨l, e⟩ := first
    obtain ⟨hl, hrest⟩ := List.nodup_cons.mp h
    rw [putEntry]
    by_cases heq : l = location
    · rw [if_pos heq]
      exact h
    · rw [if_neg heq]
      refine List.nodup_cons.mpr ⟨fun hmem => ?_, ih hrest⟩
      exact (mem_keys_putEntry.mp hmem).elim heq hl

theorem concat_ne_nil (directory : Location) (name : String) : directory ++ [name] ≠ [] :=
  List.append_ne_nil_of_right_ne_nil _ (List.cons_ne_nil _ _)

/-- An entry can be put under a name into a directory, unless that takes a directory away. -/
theorem Grounded.put (h : fs.Grounded) {directory : Location} {name : String} {entry : Entry}
    (hdirectory : fs.get? directory = some .directory) (hname : IsName name)
    (hlength : name.utf8ByteSize ≤ maxNameLength)
    (hplace : fs.get? (directory ++ [name]) = some .directory → entry = .directory) :
    (fs.put (directory ++ [name]) entry).Grounded := by
  have hget := get?_put (concat_ne_nil directory name) fs entry
  -- a directory stays one, also where the entry is put
  have hkept : ∀ location, fs.get? location = some .directory →
      (fs.put (directory ++ [name]) entry).get? location = some .directory := by
    intro location hlocation
    rw [hget]
    by_cases heq : location = directory ++ [name]
    · rw [if_pos heq, hplace (heq ▸ hlocation)]
    · rw [if_neg heq]
      exact hlocation
  have hold : ∀ (parent : Location) (last : String) (found : Entry),
      (fs.put (directory ++ [name]) entry).get? (parent ++ [last]) = some found →
        fs.get? parent = some .directory ∧ IsName last ∧ last.utf8ByteSize ≤ maxNameLength := by
    intro parent last found hfound
    rw [hget] at hfound
    -- the new entry stands in the directory, the others where they stood
    by_cases heq : parent ++ [last] = directory ++ [name]
    · obtain ⟨rfl, hlast⟩ := List.append_inj' heq rfl
      cases hlast
      exact ⟨hdirectory, hname, hlength⟩
    · rw [if_neg heq] at hfound
      exact ⟨h.tree.parent parent last found hfound, h.tree.name parent last found hfound⟩
  refine ⟨⟨nodup_keys_putEntry _ _ h.tree.nodup, fun hmem => ?_, ?_, ?_⟩, hkept _ h.current⟩
  · exact (mem_keys_putEntry.mp hmem).elim (fun hnil => concat_ne_nil _ _ hnil.symm) h.tree.root
  · intro parent last found hfound
    exact hkept parent (hold parent last found hfound).1
  · intro parent last found hfound
    exact (hold parent last found hfound).2

/-- An entry that is no directory can be erased. -/
theorem Grounded.erase (h : fs.Grounded) {location : Location}
    (hlocation : fs.get? location ≠ some .directory) : (fs.erase location).Grounded := by
  have hne : location ≠ [] := by
    rintro rfl
    exact hlocation rfl
  have hget := get?_erase hne fs
  have hkept : ∀ other, fs.get? other = some .directory →
      (fs.erase location).get? other = some .directory := by
    intro other hother
    have hdifferent : other ≠ location := by
      rintro rfl
      exact hlocation hother
    rw [hget, if_neg hdifferent]
    exact hother
  have hold : ∀ other found, (fs.erase location).get? other = some found →
      fs.get? other = some found := by
    intro other found hfound
    rw [hget] at hfound
    split at hfound
    · cases hfound
    · exact hfound
  have hsublist : ((fs.erase location).entries.map Prod.fst).Sublist (fs.entries.map Prod.fst) :=
    List.Sublist.map _ List.filter_sublist
  refine ⟨⟨h.tree.nodup.sublist hsublist, fun hmem => h.tree.root (hsublist.subset hmem), ?_, ?_⟩,
    hkept _ h.current⟩
  · intro parent last found hfound
    exact hkept parent (h.tree.parent parent last found (hold _ found hfound))
  · intro parent last found hfound
    exact h.tree.name parent last found (hold _ found hfound)

/-! ### Where paths end -/

/-- Whether a spot has its place in the tree: an entry, or a name that is free in a directory. -/
def Spot.IsPlace (fs : FileSystem) : Spot → Prop
  | .found location => ∃ entry, fs.get? location = some entry
  | .missing directory name => fs.get? directory = some .directory ∧ IsName name ∧
    name.utf8ByteSize ≤ maxNameLength ∧ fs.get? (directory ++ [name]) = none

/-- Whether a stretch stops in the tree. -/
def Stop.IsPlace (fs : FileSystem) : Stop → Prop
  | .done spot => spot.IsPlace fs
  | .failed _ => True
  | .follow directory _ rest => fs.get? directory = some .directory ∧
    ∀ name ∈ rest, name ≠ "" ∧ '/' ∉ name.toList

theorem IsTree.directory_dropLast (htree : fs.IsTree) {location : Location} {entry : Entry}
    (h : fs.get? location = some entry) : fs.get? location.dropLast = some .directory := by
  rcases location.eq_nil_or_concat' with rfl | ⟨directory, name, rfl⟩
  · rfl
  · rw [List.dropLast_concat]
    exact htree.parent directory name entry h

theorem directory_origin {here : Location} (h : fs.get? here = some .directory) (p : Path) :
    fs.get? (p.origin here) = some .directory := by
  unfold Path.origin
  split
  · rfl
  · exact h

theorem of_mem_steps {p : Path} {name : String} (h : name ∈ p.steps) :
    name ≠ "" ∧ '/' ∉ name.toList := by
  unfold Path.steps at h
  rcases List.mem_append.mp h with hpiece | hslash
  · exact Path.of_mem_pieces hpiece
  · split at hslash
    · obtain rfl := List.mem_singleton.mp hslash
      decide
    · cases hslash

/-- A stretch stays in the tree. The induction is on the names, from any directory. -/
theorem IsTree.isPlace_stretch (htree : fs.IsTree) (through : Bool) {here : Location}
    {names : List String} (hhere : fs.get? here = some .directory)
    (hnames : ∀ name ∈ names, name ≠ "" ∧ '/' ∉ name.toList) :
    (stretch fs through here names).IsPlace fs := by
  induction names generalizing here with
  | nil => exact ⟨.directory, hhere⟩
  | cons name rest ih =>
    have hrest := fun other hother => hnames other (List.mem_cons_of_mem name hother)
    by_cases hdot : name = "."
    · subst hdot
      exact ih hhere hrest
    by_cases hparent : name = ".."
    · subst hparent
      exact ih (htree.directory_dropLast hhere) hrest
    rw [stretch_name through here hdot hparent]
    by_cases hlength : maxNameLength < name.utf8ByteSize
    · rw [if_pos hlength]
      trivial
    rw [if_neg hlength]
    obtain ⟨hne, hslash⟩ := hnames name List.mem_cons_self
    cases hentry : fs.get? (here ++ [name]) with
    | none =>
      dsimp only
      split
      · exact ⟨hhere, ⟨hne, hslash, hdot, hparent⟩, Nat.not_lt.mp hlength, hentry⟩
      · trivial
    | some entry =>
      cases entry with
      | directory => exact ih hentry hrest
      | file content =>
        dsimp only
        split
        · exact ⟨_, hentry⟩
        · trivial
      | link target =>
        -- a link in the middle stops the stretch in the directory that holds it
        dsimp only
        split
        · exact ⟨_, hentry⟩
        · exact ⟨hhere, hrest⟩

/-- A walk ends in the tree, however many links it follows. -/
theorem IsTree.isPlace_of_walk (htree : fs.IsTree) {through : Bool} {links : Nat}
    {here : Location} {names : List String} {spot : Spot}
    (hhere : fs.get? here = some .directory)
    (hnames : ∀ name ∈ names, name ≠ "" ∧ '/' ∉ name.toList)
    (h : walk fs through links here names = .ok spot) : spot.IsPlace fs := by
  have hplace : ∀ {here names}, fs.get? here = some .directory →
      (∀ name ∈ names, name ≠ "" ∧ '/' ∉ name.toList) → ∀ {stop},
        stretch fs through here names = stop → stop.IsPlace fs := by
    rintro here names hhere hnames _ rfl
    exact htree.isPlace_stretch through hhere hnames
  induction links generalizing here names with
  | zero =>
    rcases walk_cases h with hdone | ⟨_, _, _, _, hlinks, -⟩
    · exact hplace hhere hnames hdone
    · cases hlinks
  | succ links ih =>
    rcases walk_cases h with hdone | ⟨_, directory, target, rest, hlinks, hfollow, -, hrest⟩
    · exact hplace hhere hnames hdone
    · cases hlinks
      -- the walk goes on at a directory, with the names of the link in front of the others
      obtain ⟨hdirectory, hnames⟩ := hplace hhere hnames hfollow
      refine ih (directory_origin hdirectory _) (fun name hname => ?_) hrest
      rcases List.mem_append.mp hname with hstep | hname
      · exact of_mem_steps hstep
      · exact hnames name hname

theorem Grounded.isPlace_of_locate (h : fs.Grounded) {through : Bool} {p : Path} {spot : Spot}
    (hlocate : fs.locate through p = .ok spot) : spot.IsPlace fs := by
  obtain ⟨-, -, hwalk⟩ := locate_eq_ok_iff.mp hlocate
  exact h.tree.isPlace_of_walk (directory_origin h.current p) (fun _ => of_mem_steps) hwalk

/-! ### The operations -/

theorem Grounded.put_missing (h : fs.Grounded) {directory : Location} {name : String}
    (hplace : (Spot.missing directory name).IsPlace fs) (entry : Entry) :
    (fs.put (directory ++ [name]) entry).Grounded := by
  obtain ⟨hdirectory, hname, hlength, hfree⟩ := hplace
  refine h.put hdirectory hname hlength fun htaken => ?_
  rw [hfree] at htaken
  cases htaken

/-- The content of a file can be changed. -/
theorem Grounded.put_file (h : fs.Grounded) {location : Location} {before : Bytes}
    (hfile : fs.get? location = some (.file before)) (content : Bytes) :
    (fs.put location (.file content)).Grounded := by
  rcases location.eq_nil_or_concat' with rfl | ⟨directory, name, rfl⟩
  · cases hfile
  · obtain ⟨hname, hlength⟩ := h.tree.name directory name _ hfile
    refine h.put (h.tree.parent directory name _ hfile) hname hlength fun hdirectory => ?_
    rw [hfile] at hdirectory
    cases hdirectory

/-- A file can be opened for writing where a file stands already or a name is free. -/
theorem create_eq_ok_iff {p : Path} {location : Location} :
    fs.create p = .ok (after, location) ↔ p.endsInSlash = false ∧
      after = fs.put location (.file []) ∧
      ∃ spot, fs.locate true p = .ok spot ∧ location = spot.location ∧
        ∀ found, spot = .found found → ∃ content, fs.get? found = some (.file content) := by
  unfold FileSystem.create
  by_cases hslash : p.endsInSlash = true
  · -- behind a slash no file is made, whatever is found
    rw [if_pos hslash, hslash]
    refine iff_of_false (fun h => ?_) (fun h => Bool.noConfusion h.1)
    obtain ⟨_, -, hthrow⟩ := bind_eq_ok.mp h
    cases hthrow
  rw [if_neg hslash, bind_eq_ok]
  have hslash : p.endsInSlash = false := by simpa using hslash
  constructor
  · rintro ⟨spot, hspot, h⟩
    refine ⟨hslash, ?_⟩
    cases spot with
    | missing directory name =>
      cases h
      exact ⟨rfl, _, hspot, rfl, nofun⟩
    | found found =>
      dsimp only at h
      cases hentry : fs.get? found with
      | none => rw [hentry] at h; cases h
      | some entry =>
        rw [hentry] at h
        cases entry with
        | directory => cases h
        | link target => cases h
        | file content =>
          cases h
          refine ⟨rfl, _, hspot, rfl, fun other hother => ?_⟩
          cases hother
          exact ⟨content, hentry⟩
  · rintro ⟨-, rfl, spot, hspot, rfl, hfile⟩
    refine ⟨spot, hspot, ?_⟩
    cases spot with
    | missing directory name => rfl
    | found found =>
      obtain ⟨content, hentry⟩ := hfile found rfl
      dsimp only
      rw [hentry]
      rfl

theorem Grounded.create (h : fs.Grounded) {p : Path} {location : Location}
    (hcreate : fs.create p = .ok (after, location)) : after.Grounded := by
  obtain ⟨-, rfl, spot, hspot, rfl, hfile⟩ := create_eq_ok_iff.mp hcreate
  cases spot with
  | missing directory name => exact h.put_missing (h.isPlace_of_locate hspot) _
  | found found =>
    obtain ⟨content, hentry⟩ := hfile found rfl
    exact h.put_file hentry []

theorem Grounded.append (h : fs.Grounded) (location : Location) (content : Bytes) :
    (fs.append location content).Grounded := by
  unfold FileSystem.append
  cases hentry : fs.get? location with
  | none => exact h
  | some entry =>
    cases entry with
    | file before => exact h.put_file hentry _
    | directory => exact h
    | link target => exact h

theorem Grounded.writeFile (h : fs.Grounded) {p : Path} {content : Bytes}
    (hwrite : fs.writeFile p content = .ok after) : after.Grounded := by
  obtain ⟨⟨opened, location⟩, hcreate, hafter⟩ := bind_eq_ok.mp hwrite
  cases hafter
  exact (h.create hcreate).append location content

/-- The last name of a path stands in a directory to which the other names lead. -/
theorem slot_eq_ok_iff {p : Path} {directory : Location} {name : String} :
    fs.slot p = .ok (directory, some name) ↔
      (p.text ≠ "" ∧ p.text.utf8ByteSize < pathLengthLimit) ∧
      (∃ front, p.pieces = front ++ [name] ∧
        walk fs true maxLinks (p.origin fs.workingDirectory) front = .ok (.found directory)) ∧
      fs.get? directory = some .directory ∧ IsName name := by
  unfold slot
  by_cases hempty : p.text.isEmpty = true
  · rw [if_pos hempty]
    exact iff_of_false nofun fun h => h.1.1 (by simpa using hempty)
  by_cases hlong : pathLengthLimit ≤ p.text.utf8ByteSize
  · rw [if_neg hempty, if_pos hlong]
    exact iff_of_false nofun fun h => absurd hlong (Nat.not_le.mpr h.1.2)
  rw [if_neg hempty, if_neg hlong]
  have hwritten : p.text ≠ "" ∧ p.text.utf8ByteSize < pathLengthLimit :=
    ⟨by simpa using hempty, Nat.not_le.mp hlong⟩
  cases hlast : p.pieces.getLast? with
  | none =>
    refine iff_of_false nofun ?_
    rintro ⟨-, ⟨front, hfront, -⟩, -⟩
    rw [hfront, List.getLast?_concat] at hlast
    cases hlast
  | some last =>
    obtain ⟨front, hpieces⟩ := List.getLast?_eq_some_iff.mp hlast
    dsimp only
    rw [hpieces, List.dropLast_concat, ← hpieces]
    refine Iff.trans bind_eq_ok ?_
    constructor
    · rintro ⟨spot, hspot, h⟩
      cases spot with
      | missing parent free => cases h
      | found parent =>
        dsimp only at h
        split at h
        · cases h
        next hdirectory =>
        obtain ⟨rfl, hname⟩ := Prod.mk.inj (Except.ok.inj h)
        split at hname
        · cases hname
        next hdots =>
        cases hname
        -- between two slashes there is no slash, and what is left is a name
        obtain ⟨hdot, hparent⟩ := not_or.mp hdots
        obtain ⟨hne, hslash⟩ := Path.of_mem_pieces (List.mem_of_getLast? hlast)
        exact ⟨hwritten, ⟨front, hpieces, hspot⟩, Decidable.not_not.mp hdirectory, hne, hslash,
          hdot, hparent⟩
    · rintro ⟨-, ⟨front', hpieces', hwalk⟩, hdirectory, hname⟩
      obtain ⟨rfl, hlast⟩ := List.append_inj' (hpieces.symm.trans hpieces') rfl
      cases hlast
      refine ⟨_, hwalk, ?_⟩
      dsimp only
      rw [if_neg (fun h => h hdirectory), if_neg (not_or.mpr hname.2.2)]
      rfl

/-- A file and a link go through the same checks before they are moved. -/
theorem move_eq_ok_iff {source target : Path} {old new : Location} {entry : Entry} :
    (if source.endsInSlash = true ∨ target.endsInSlash = true then
        Except.error OsError.notADirectory
      else if fs.get? new = some Entry.directory then .error .isADirectory
      else if old = new then .ok fs
      else .ok ((fs.erase old).put new entry)) = .ok after ↔
    (source.endsInSlash = false ∧ target.endsInSlash = false) ∧
      fs.get? new ≠ some .directory ∧
      after = if old = new then fs else (fs.erase old).put new entry := by
  by_cases hslash : source.endsInSlash = true ∨ target.endsInSlash = true
  · rw [if_pos hslash]
    exact iff_of_false nofun fun h => by simp [h.1] at hslash
  rw [if_neg hslash]
  by_cases hnew : fs.get? new = some .directory
  · rw [if_pos hnew]
    exact iff_of_false nofun fun h => h.2.1 hnew
  rw [if_neg hnew, ← apply_ite Except.ok, Except.ok.injEq, eq_comm]
  exact ⟨fun h => ⟨by simpa using hslash, hnew, h⟩, fun h => h.2.2⟩

/-- A renaming takes a file or link from its place and puts it to the other one. -/
theorem rename_eq_ok_iff {source target : Path} :
    fs.rename source target = .ok after ↔
      ∃ fromDirectory fromName toDirectory toName entry,
        fs.slot source = .ok (fromDirectory, some fromName) ∧
        fs.slot target = .ok (toDirectory, some toName) ∧
        (fromName.utf8ByteSize ≤ maxNameLength ∧ toName.utf8ByteSize ≤ maxNameLength) ∧
        (source.endsInSlash = false ∧ target.endsInSlash = false) ∧
        fs.get? (fromDirectory ++ [fromName]) = some entry ∧ entry ≠ .directory ∧
        fs.get? (toDirectory ++ [toName]) ≠ some .directory ∧
        after = if fromDirectory ++ [fromName] = toDirectory ++ [toName] then fs
          else (fs.erase (fromDirectory ++ [fromName])).put (toDirectory ++ [toName]) entry := by
  constructor
  · intro hrename
    obtain ⟨⟨fromDirectory, fromName?⟩, hfrom, hrename⟩ := bind_eq_ok.mp hrename
    obtain ⟨⟨toDirectory, toName?⟩, hto, hrename⟩ := bind_eq_ok.mp hrename
    cases fromName? with
    | none => cases hrename
    | some fromName =>
      cases toName? with
      | none => cases hrename
      | some toName =>
        dsimp only at hrename
        split at hrename
        · cases hrename
        next hlong =>
        obtain ⟨hfromLength, htoLength⟩ := not_or.mp hlong
        refine ⟨fromDirectory, fromName, toDirectory, toName, ?_⟩
        cases hold : fs.get? (fromDirectory ++ [fromName]) with
        | none =>
          rw [hold] at hrename
          cases hrename
        | some entry =>
          rw [hold] at hrename
          have hentry : entry ≠ .directory := by
            rintro rfl
            cases hrename
          -- what is left of the checks does not depend on what is moved
          have hrest := (@move_eq_ok_iff fs after source target (fromDirectory ++ [fromName])
            (toDirectory ++ [toName]) entry).mp (by
              cases entry with
              | directory => exact absurd rfl hentry
              | file content => exact hrename
              | link text => exact hrename)
          exact ⟨entry, hfrom, hto, ⟨Nat.not_lt.mp hfromLength, Nat.not_lt.mp htoLength⟩, hrest.1,
            rfl, hentry, hrest.2⟩
  · rintro ⟨fromDirectory, fromName, toDirectory, toName, entry, hfrom, hto,
      ⟨hfromLength, htoLength⟩, hslash, hold, hentry, hnew⟩
    refine bind_eq_ok.mpr ⟨_, hfrom, bind_eq_ok.mpr ⟨_, hto, ?_⟩⟩
    have hrest := (@move_eq_ok_iff fs after source target (fromDirectory ++ [fromName])
      (toDirectory ++ [toName]) entry).mpr ⟨hslash, hnew⟩
    dsimp only
    rw [if_neg (not_or.mpr ⟨Nat.not_lt.mpr hfromLength, Nat.not_lt.mpr htoLength⟩), hold]
    cases entry with
    | directory => exact absurd rfl hentry
    | file content => exact hrest
    | link text => exact hrest

theorem Grounded.rename (h : fs.Grounded) {source target : Path}
    (hrename : fs.rename source target = .ok after) : after.Grounded := by
  obtain ⟨fromDirectory, fromName, toDirectory, toName, entry, -, hto, ⟨-, hlength⟩, -, hold, hentry,
    hnew, rfl⟩ := rename_eq_ok_iff.mp hrename
  split
  · exact h
  · next hne =>
    have hfile : fs.get? (fromDirectory ++ [fromName]) ≠ some .directory := by
      rw [hold]
      exact fun heq => hentry (Option.some.inj heq)
    obtain ⟨-, -, hdirectory, hname⟩ := slot_eq_ok_iff.mp hto
    -- the directory of the new place is not what was erased
    have hget := get?_erase (concat_ne_nil fromDirectory fromName) fs
    refine (h.erase hfile).put ?_ hname hlength fun htaken => ?_
    · have hdifferent : toDirectory ≠ fromDirectory ++ [fromName] := by
        rintro rfl
        exact hfile hdirectory
      rw [hget, if_neg hdifferent]
      exact hdirectory
    · rw [hget, if_neg (Ne.symm hne)] at htaken
      exact absurd htaken hnew

/-- A file or link that is found is removed. -/
theorem remove_eq_ok_iff {p : Path} : fs.remove p = .ok after ↔
    ∃ location entry, fs.find false p = .ok (location, entry) ∧ entry ≠ .directory ∧
      after = fs.erase location := by
  unfold remove
  rw [bind_eq_ok]
  constructor
  · rintro ⟨⟨location, entry⟩, hfind, hafter⟩
    refine ⟨location, entry, hfind, ?_⟩
    cases entry with
    | directory => cases hafter
    | file content => exact ⟨nofun, (Except.ok.inj hafter).symm⟩
    | link target => exact ⟨nofun, (Except.ok.inj hafter).symm⟩
  · rintro ⟨location, entry, hfind, hentry, rfl⟩
    refine ⟨_, hfind, ?_⟩
    cases entry with
    | directory => exact absurd rfl hentry
    | file content => rfl
    | link target => rfl

theorem Grounded.remove (h : fs.Grounded) {p : Path} (hremove : fs.remove p = .ok after) :
    after.Grounded := by
  obtain ⟨location, entry, hfind, hentry, rfl⟩ := remove_eq_ok_iff.mp hremove
  refine h.erase fun hdirectory => hentry ?_
  rw [(find_eq_ok_iff.mp hfind).2] at hdirectory
  exact Option.some.inj hdirectory

/-- Directories are made one after the other, each in the one before it. -/
theorem Grounded.makeDirectories (h : fs.Grounded) {p : Path}
    (hmake : fs.makeDirectories p = .ok after) : after.Grounded := by
  unfold FileSystem.makeDirectories at hmake
  -- the induction is on the pieces of the path, from any directory that has been made
  generalize Path.mk _ = done at hmake
  generalize p.pieces = pieces at hmake
  induction pieces generalizing fs done with
  | nil =>
    cases hmake
    exact h
  | cons piece rest ih =>
    obtain ⟨spot, hspot, hmake⟩ := bind_eq_ok.mp hmake
    have hplace := h.isPlace_of_locate hspot
    cases spot with
    | missing directory name => exact ih (h.put_missing hplace .directory) _ hmake
    | found location =>
      dsimp only at hmake
      split at hmake
      · exact ih h _ hmake
      · cases hmake

theorem Grounded.makeLink (h : fs.Grounded) {p : Path} {target : String}
    (hmake : fs.makeLink p target = .ok after) : after.Grounded := by
  obtain ⟨spot, hspot, hmake⟩ := bind_eq_ok.mp hmake
  have hplace := h.isPlace_of_locate hspot
  cases spot with
  | missing directory name =>
    cases hmake
    exact h.put_missing hplace _
  | found location => cases hmake

end FileSystem

/-! ### Storing a manifest -/

theorem Manifest.grounded_replaceFile {fs : FileSystem} (h : fs.Grounded) (temporary path : Path)
    (content : Bytes) : (replaceFile fs temporary path content).2.Grounded := by
  unfold replaceFile
  cases hcreate : fs.create temporary with
  | error error => exact h
  | ok opened =>
    have hfilled := (h.create hcreate).append opened.2 content
    dsimp only
    cases hrename : (opened.1.append opened.2 content).rename temporary path with
    | error error => exact hfilled
    | ok moved => exact hfilled.rename hrename

/-- Storing a manifest leaves a tree, also where it fails. -/
theorem Manifest.grounded_store {fs : FileSystem} (h : fs.Grounded) (m : Manifest) (path : Path) :
    (m.store fs path).2.Grounded := by
  have hreplace := grounded_replaceFile h (temporaryPath path) path (Text.encode m.render)
  unfold Manifest.store
  dsimp only
  generalize replaceFile fs (temporaryPath path) path (Text.encode m.render) = replaced
    at hreplace ⊢
  obtain ⟨outcome, left⟩ := replaced
  cases outcome with
  | ok done => exact hreplace
  | error error =>
    dsimp only
    cases hremove : left.remove (temporaryPath path) with
    | ok cleaned => exact hreplace.remove hremove
    | error error => exact hreplace

theorem Manifest.grounded_of_store {fs after : FileSystem} {m : Manifest} {path : Path}
    {outcome : Except Failure Unit} (h : fs.Grounded) (hstore : m.store fs path = (outcome, after)) :
    after.Grounded := by
  have hgrounded := grounded_store h m path
  rw [hstore] at hgrounded
  exact hgrounded

end PackageRelease
