import PackageRelease.Proofs.FileSystem.Moving
import PackageRelease.Proofs.Package.Contents
import PackageRelease.Proofs.Path.Extending

/-! # Directories with the same contents

  Two directories are *twins* if the same names lead to the same entries in both. The key idea: a
  path behind a directory is followed by its names only, so what it finds is found by the same
  pieces behind a twin. The only thing that is not in the names is the length of the text, which may
  not reach a limit; `Roomy` says that it does not.
-/

namespace PackageRelease

namespace FileSystem

variable {fs : FileSystem}

/-! ### Following names from a directory -/

/-- What is followed from a directory to its end is a directory or a file. -/
theorem Leads.entry (htree : fs.IsTree) {links : Nat} {here goal : Location} {names : List String}
    (h : Leads fs links here names goal) (hhere : fs.get? here = some .directory) :
    fs.get? goal = some .directory ∨ ∃ content, fs.get? goal = some (.file content) := by
  induction h with
  | here => exact .inl hhere
  | dot _ _ ih => exact ih hhere
  | parent _ _ ih => exact ih (htree.directory_dropLast hhere)
  | directory _ _ _ hentry _ ih => exact ih hentry
  | file _ _ _ hentry => exact .inr ⟨_, hentry⟩
  | link _ _ _ _ _ _ ih => exact ih (directory_origin hhere _)

/-- Names that are followed by others lead to a directory. -/
theorem Leads.directory_of_append (htree : fs.IsTree) {links more : Nat}
    {here place goal : Location} {front back : List String} (h : Leads fs links here front place)
    (hhere : fs.get? here = some .directory) (hgoal : Leads fs more here (front ++ back) goal)
    (hback : back ≠ []) : fs.get? place = some .directory := by
  rcases h.entry htree hhere with hdirectory | ⟨content, hfile⟩
  · exact hdirectory
  · exact absurd (h.eq_nil_of_file htree hhere hfile hgoal) hback

/-- Behind a directory, names lead on. -/
theorem Leads.append {links : Nat} {here place : Location} {front : List String}
    (h : Leads fs links here front place) (hplace : fs.get? place = some .directory) :
    ∃ left, (∀ back goal, Leads fs links here (front ++ back) goal → Leads fs left place back goal) ∧
      ∀ back goal, Leads fs left place back goal → Leads fs links here (front ++ back) goal :=
  h.append_transfer hplace fun _ _ _ _ _ _ => rfl

/-- Each `.` may be put in, at the end only behind a directory. -/
theorem Leads.dotted {links : Nat} {here goal : Location} {names : List String}
    (h : Leads fs links here (names.filter (· ≠ ".")) goal)
    (hend : names.getLast? ≠ some "." ∨ fs.get? goal = some .directory) :
    Leads fs links here names goal := by
  induction names using List.reverseRecOn with
  | nil => exact h
  | append_singleton front last ih =>
    rw [List.filter_append] at h
    rw [List.getLast?_concat, ne_eq, Option.some_inj] at hend
    by_cases hdot : last = "."
    · -- a `.` at the end stays in the directory
      have hgoal := hend.resolve_left fun hne => hne hdot
      rw [List.filter_cons_of_neg (by simpa using hdot), List.filter_nil, List.append_nil] at h
      obtain ⟨left, -, hback⟩ := (ih h (.inr hgoal)).append hgoal
      exact hback [last] goal (.dot hdot .here)
    · rw [List.filter_cons_of_pos (by simpa using hdot), List.filter_nil] at h
      exact h.redot (padded_concat front last)

/-! ### Names behind a directory -/

/-- Where names lead behind a directory. -/
def Behind (fs : FileSystem) (d : Path) (names : List String) (goal : Location) : Prop :=
  Leads fs maxLinks (d.origin fs.workingDirectory) (d.components.steps ++ names) goal

/-- What is found behind a directory, links followed. -/
def Shows (fs : FileSystem) (d : Path) (names : List String) (entry : Entry) : Prop :=
  ∃ goal, fs.Behind d names goal ∧ fs.get? goal = some entry

/-- What stands under a name behind a directory, without following a link. -/
def Stands (fs : FileSystem) (d : Path) (names : List String) (name : String) (entry : Entry) :
    Prop :=
  ∃ place, fs.Behind d names place ∧ fs.get? (place ++ [name]) = some entry

section behind_directory
variable {d : Path} {home : Location} (hhome : fs.find true d = .ok (home, .directory))

include hhome in
theorem behind_home : fs.Behind d [] home := by
  unfold Behind
  rw [List.append_nil]
  exact Selection.leads_steps_components hhome

theorem Behind.unique {names : List String} {goal other : Location} (h : fs.Behind d names goal)
    (hother : fs.Behind d names other) : goal = other := Leads.unique h hother

variable (hfs : fs.Grounded)
include hfs

theorem directory_start (d : Path) :
    fs.get? (d.origin fs.workingDirectory) = some .directory := directory_origin hfs.current d

/-- What is followed from a directory is a directory as long as there are further names. -/
theorem Behind.front {front back : List String} {goal : Location}
    (h : fs.Behind d (front ++ back) goal) :
    ∃ place, fs.Behind d front place ∧ (back ≠ [] → fs.get? place = some .directory) := by
  unfold Behind at h ⊢
  rw [← List.append_assoc] at h
  obtain ⟨place, left, -, hfront, -⟩ := h.cut
  exact ⟨place, hfront, fun hback =>
    hfront.directory_of_append hfs.tree (directory_start hfs d) h hback⟩

/-- A name behind a directory leads to what stands under it, unless that is a link. -/
theorem Behind.concat {names : List String} {place : Location} {name : String} {entry : Entry}
    (h : fs.Behind d names place) (hentry : fs.get? (place ++ [name]) = some entry)
    (hlink : ∀ target, entry ≠ .link target) : fs.Behind d (names ++ [name]) (place ++ [name]) := by
  obtain ⟨left, -, hback⟩ := Leads.append h (hfs.tree.parent _ _ _ hentry)
  unfold Behind
  rw [← List.append_assoc]
  exact hback _ _ (hfs.tree.leads_down left hentry hlink)

end behind_directory

/-! ### Paths behind a directory -/

section extended_paths
variable {d p : Path} {home : Location} {pieces : List String}
  (hhome : fs.find true d = .ok (home, .directory)) (h : Path.Extends d pieces p)
  (hpieces : Path.Descend pieces)

include h in
theorem origin_of_extends (here : Location) : p.origin here = d.origin here := by
  unfold Path.origin
  rw [h.isAbsolute_eq]

include hhome h hpieces

theorem steps_of_extends :
    p.components.steps = d.components.steps ++ Path.named pieces := by
  rw [h.components_eq (leads_of_find hhome).1 hpieces, Path.steps_append, Path.steps_map_name]

/-- What a path finds is found behind the directory by its names. -/
theorem behind_of_find {goal : Location} {entry : Entry}
    (hfind : fs.find true p = .ok (goal, entry)) : fs.Behind d (Path.named pieces) goal := by
  have hleads := Selection.leads_steps_components hfind
  rw [origin_of_extends h, steps_of_extends hhome h hpieces] at hleads
  exact hleads

/-- What is found behind the directory by its names is found by a path that is not too long. Only a
    directory is found by a path that does not end in a name. -/
theorem find_of_behind {goal : Location} {entry : Entry}
    (hgoal : fs.Behind d (Path.named pieces) goal) (hentry : fs.get? goal = some entry)
    (hsize : p.text.utf8ByteSize < pathLengthLimit)
    (hend : Path.Settled pieces ∨ entry = .directory) : fs.find true p = .ok (goal, entry) := by
  refine find_of_leads h.text_ne hsize (Leads.dotted ?_ ?_) hentry
  · rw [Path.filter_steps, origin_of_extends h, steps_of_extends hhome h hpieces]
    exact hgoal
  · rcases hend with hsettled | rfl
    · obtain ⟨front, last, -, -, hdot, hslash, hlast⟩ := h.pieces_concat hsettled
      left
      unfold Path.steps
      rw [hslash, if_neg Bool.false_ne_true, List.append_nil, hlast, List.getLast?_concat, ne_eq,
        Option.some_inj]
      exact hdot
    · exact .inr hentry

variable (hfs : fs.Grounded)
include hfs

/-- A path that finds a file ends in its name. -/
theorem settled_of_find {goal : Location} {content : Bytes}
    (hfind : fs.find true p = .ok (goal, .file content)) : Path.Settled pieces := by
  obtain ⟨-, hleads, hentry⟩ := leads_of_find hfind
  have hstart : fs.get? (p.origin fs.workingDirectory) = some .directory :=
    directory_start hfs p
  have hdots : p.steps.getLast? ≠ some "." := by
    intro hlast
    obtain ⟨front, hfront⟩ := List.getLast?_eq_some_iff.mp hlast
    rw [hfront] at hleads
    obtain ⟨place, left, -, hplace, hrest⟩ := hleads.cut
    cases hrest with
    | dot _ hnothing =>
      cases hnothing
      exact List.cons_ne_nil _ _ (hplace.eq_nil_of_file hfs.tree hstart hentry hleads)
    | parent hname => exact absurd hname (by decide)
    | directory hdot => exact absurd rfl hdot
    | file hdot => exact absurd rfl hdot
    | link hdot => exact absurd rfl hdot
  rcases pieces.eq_nil_or_concat' with rfl | ⟨front, last, rfl⟩
  · -- without pieces the path finds the directory itself
    have hgoal := (behind_of_find hhome h hpieces hfind).unique (behind_home hhome)
    rw [hgoal, (leads_of_find hhome).2.2] at hentry
    cases hentry
  refine ⟨front, last, rfl, fun hempty => hdots ?_, fun hdot => hdots ?_⟩
  · have hslash := h.endsInSlash_iff (List.append_ne_nil_of_right_ne_nil _ (List.cons_ne_nil _ _))
    rw [List.getLast?_concat, hempty] at hslash
    unfold Path.steps
    rw [if_pos (hslash.mpr rfl), List.getLast?_concat]
  · have hlast : p.pieces.getLast? = some "." := by
      rw [h.pieces_eq, List.filter_append, List.filter_cons_of_pos (by simp [hdot]),
        List.filter_nil, ← List.append_assoc, List.getLast?_concat, hdot]
    unfold Path.steps
    split
    · exact List.getLast?_concat
    · rw [List.append_nil]
      exact hlast

variable {front : List String} {name : String}
  (hconcat : pieces = front ++ [name]) (hempty : name ≠ "") (hdot : name ≠ ".")
include hconcat hempty hdot

omit hfs in
/-- The last name of a path stands in the directory to which the names in front of it lead. -/
theorem standsAt_iff {place : Location} :
    StandsAt fs p place name ↔ p.text.utf8ByteSize < pathLengthLimit ∧
      fs.Behind d (Path.named front) place ∧ fs.get? place = some .directory := by
  subst hconcat
  obtain ⟨front', last, heq, -, -, hslash, hlast⟩ := h.pieces_concat ⟨front, name, rfl, hempty, hdot⟩
  obtain ⟨rfl, hname⟩ := List.append_inj' heq rfl
  cases hname
  have hisname : IsName name := by
    obtain ⟨hslash, hparent⟩ := hpieces name (by simp)
    exact ⟨hempty, hslash, hdot, hparent⟩
  -- without dots, the pieces in front are the names in front
  have hfront : (d.pieces ++ front.filter (· ≠ "")).filter (· ≠ ".") =
      d.components.steps ++ Path.named front := by
    have hsteps := steps_of_extends hhome h hpieces
    rw [Path.steps_components, hlast, List.filter_append, Path.named_concat hempty hdot,
      List.filter_cons_of_pos (by simpa using hdot), List.filter_nil, ← List.append_assoc] at hsteps
    exact (List.append_inj' hsteps rfl).1
  constructor
  · intro hstands
    obtain ⟨front', hpieces', hleads⟩ := hstands.front
    obtain ⟨rfl, -⟩ := List.append_inj' (hpieces'.symm.trans hlast) rfl
    refine ⟨hstands.written.2, ?_, hstands.directory⟩
    have hundotted := hleads.undot (undotted_filter _)
    rw [hfront, origin_of_extends h] at hundotted
    exact hundotted
  · rintro ⟨hsize, hplace, hdirectory⟩
    refine ⟨⟨h.text_ne, hsize⟩, ⟨_, hlast, Leads.dotted ?_ (.inr hdirectory)⟩, hdirectory, hisname⟩
    rw [hfront, origin_of_extends h]
    exact hplace

/-- A path finds a file, without following a link at the end, exactly if the file stands under its
    last name. -/
theorem find_file_iff {content : Bytes} (hsize : p.text.utf8ByteSize < pathLengthLimit) :
    (∃ goal, fs.find false p = .ok (goal, .file content)) ↔
      fs.Stands d (Path.named front) name (.file content) := by
  have hstands := @standsAt_iff fs d p home pieces hhome h hpieces front name hconcat hempty hdot
  obtain ⟨front', last, heq, -, -, hslash, hlast⟩ :=
    h.pieces_concat ⟨front, name, hconcat, hempty, hdot⟩
  obtain ⟨rfl, hname⟩ := List.append_inj' (hconcat.symm.trans heq) rfl
  cases hname
  constructor
  · rintro ⟨goal, hfind⟩
    obtain ⟨-, hleads, hfile⟩ := leads_of_find (find_true_of_file hfind)
    unfold Path.steps at hleads
    rw [hslash, if_neg Bool.false_ne_true, List.append_nil, hlast] at hleads
    obtain ⟨place, left, -, hplace, hname⟩ := hleads.cut
    have hdirectory := hplace.directory_of_append hfs.tree (directory_start hfs p) hleads
      (List.cons_ne_nil _ _)
    obtain ⟨hnoslash, hparent⟩ := hpieces name (by rw [hconcat]; simp)
    have hat : StandsAt fs p place name :=
      ⟨⟨h.text_ne, hsize⟩, ⟨_, hlast, hplace⟩, hdirectory, hempty, hnoslash, hdot, hparent⟩
    refine ⟨place, (hstands.mp hat).2.1, ?_⟩
    cases hname with
    | dot hname => exact absurd hname hdot
    | parent hname => exact absurd hname hparent
    | directory _ _ _ hentry hnothing =>
      cases hnothing
      rw [hfile] at hentry
      cases hentry
    | file => exact hfile
    | link _ _ hlength hentry =>
      -- a link under the name would have been found itself
      rw [hat.find_false hslash hlength hentry] at hfind
      cases hfind
  · rintro ⟨place, hplace, hfile⟩
    have hat := hstands.mpr ⟨hsize, hplace, hfs.tree.parent _ _ _ hfile⟩
    exact ⟨_, hat.find_false hslash (hfs.tree.name _ _ _ hfile).2 hfile⟩

end extended_paths

/-! ### Twins -/

/-- Two directories hold the same: the same names lead to the same, and under the same names there
    stands the same file or directory. -/
structure Twins (fs : FileSystem) (d₁ d₂ : Path) : Prop where
  /-- What is found by names is the same, links followed. -/
  shows_iff : ∀ names entry, (∀ name ∈ names, IsName name) →
    (fs.Shows d₁ names entry ↔ fs.Shows d₂ names entry)
  /-- What stands under a name is the same, unless it is a link. -/
  stands_iff : ∀ names name entry, (∀ name ∈ names, IsName name) → IsName name →
    (∀ target, entry ≠ .link target) →
    (fs.Stands d₁ names name entry ↔ fs.Stands d₂ names name entry)

theorem Twins.symm {d₁ d₂ : Path} (h : fs.Twins d₁ d₂) : fs.Twins d₂ d₁ where
  shows_iff names entry hnames := (h.shows_iff names entry hnames).symm
  stands_iff names name entry hnames hname hlink :=
    (h.stands_iff names name entry hnames hname hlink).symm

/-- Whether all that is found behind a directory leaves some octets up to the length that no path
    may have. -/
def Roomy (fs : FileSystem) (d : Path) (extra : Nat) : Prop :=
  ∀ names goal, (∀ name ∈ names, IsName name) → fs.Behind d names goal →
    d.text.utf8ByteSize + (Path.slashed (names.map .name)).utf8ByteSize + extra < pathLengthLimit

/-! ### Which directories are twins -/

/-- Where every entry is a file or a directory, there is no link. -/
theorem get?_ne_link (htree : fs.IsTree)
    (h : ∀ entry ∈ fs.entries, entry.2.isFile = true ∨ entry.2.isDirectory = true)
    (location : Location) (target : String) : fs.get? location ≠ some (.link target) := by
  intro hlink
  have hne : location ≠ [] := by
    rintro rfl
    cases hlink
  rcases h _ (htree.mem_entries_iff.mpr ⟨hne, hlink⟩) with hfile | hdirectory
  · cases hfile
  · cases hdirectory

section linkless
variable {d : Path} {home : Location} (hfs : fs.Grounded)
  (hhome : fs.find true d = .ok (home, .directory))
  (hlinks : ∀ names target, fs.get? (home ++ names) ≠ some (.link target))

/-- Where there is no link, names lead down. -/
theorem Leads.eq_append {links : Nat} {here goal : Location} {names : List String}
    (h : Leads fs links here names goal) (hnames : ∀ name ∈ names, IsName name)
    (hlinks : ∀ names target, fs.get? (here ++ names) ≠ some (.link target)) :
    goal = here ++ names := by
  induction h with
  | here => exact (List.append_nil _).symm
  | dot hname => exact absurd hname (hnames _ List.mem_cons_self).2.2.1
  | parent hname => exact absurd hname (hnames _ List.mem_cons_self).2.2.2
  | @directory links here goal name rest _ _ _ _ _ ih =>
    have hrest := ih (fun other hother => hnames other (List.mem_cons_of_mem _ hother))
      fun names target => by
        rw [List.append_assoc]
        exact hlinks ([name] ++ names) target
    rw [hrest, List.append_assoc, List.singleton_append]
  | file => rfl
  | link _ _ _ hentry => exact absurd hentry (hlinks _ _)

include hfs hhome hlinks

theorem behind_iff_of_linkless {names : List String} (hnames : ∀ name ∈ names, IsName name)
    {goal : Location} : fs.Behind d names goal ↔
      goal = home ++ names ∧ ∃ entry, fs.get? goal = some entry := by
  have hdirectory := (leads_of_find hhome).2.2
  obtain ⟨left, hback, hforth⟩ := Leads.append (Selection.leads_steps_components hhome) hdirectory
  constructor
  · intro h
    refine ⟨(hback _ _ h).eq_append hnames hlinks, ?_⟩
    rcases Leads.entry hfs.tree h (directory_start hfs d) with hentry | ⟨content, hentry⟩
    · exact ⟨_, hentry⟩
    · exact ⟨_, hentry⟩
  · rintro ⟨rfl, entry, hentry⟩
    exact hforth _ _ (hfs.tree.leads_down left hentry fun target heq =>
      hlinks names target (heq ▸ hentry))

theorem shows_iff_of_linkless {names : List String} (hnames : ∀ name ∈ names, IsName name)
    {entry : Entry} : fs.Shows d names entry ↔ fs.get? (home ++ names) = some entry := by
  unfold Shows
  simp only [behind_iff_of_linkless hfs hhome hlinks hnames]
  exact ⟨fun ⟨_, ⟨heq, _⟩, hentry⟩ => heq ▸ hentry, fun hentry => ⟨_, ⟨rfl, entry, hentry⟩, hentry⟩⟩

theorem stands_iff_of_linkless {names : List String} (hnames : ∀ name ∈ names, IsName name)
    {name : String} {entry : Entry} :
    fs.Stands d names name entry ↔ fs.get? (home ++ (names ++ [name])) = some entry := by
  unfold Stands
  simp only [behind_iff_of_linkless hfs hhome hlinks hnames]
  rw [← List.append_assoc]
  refine ⟨fun ⟨_, ⟨heq, _⟩, hentry⟩ => heq ▸ hentry, fun hentry => ?_⟩
  exact ⟨_, ⟨rfl, _, hfs.tree.parent _ _ _ hentry⟩, hentry⟩

/-- Without links, paths stay short behind a directory if the entries have short locations. -/
theorem roomy_of_linkless {extra : Nat}
    (hself : d.text.utf8ByteSize + extra < pathLengthLimit)
    (hentries : ∀ entry ∈ fs.entries,
      d.text.utf8ByteSize + Text.octets entry.1 + extra < pathLengthLimit) : fs.Roomy d extra := by
  intro names goal hnames hgoal
  obtain ⟨rfl, entry, hentry⟩ := (behind_iff_of_linkless hfs hhome hlinks hnames).mp hgoal
  have hslashed := Path.size_slashed_le names
  by_cases hroot : home ++ names = []
  · obtain ⟨-, rfl⟩ := List.append_eq_nil_iff.mp hroot
    have hnothing : (Path.slashed (([] : List String).map .name)).utf8ByteSize = 0 := rfl
    omega
  · have hlimit := hentries _ (hfs.tree.mem_entries_iff.mpr ⟨hroot, hentry⟩)
    rw [Text.octets_append] at hlimit
    omega

end linkless

/-- Two directories without links that have the same entries are twins. -/
theorem twins_of_entries {d₁ d₂ : Path} {home₁ home₂ : Location} (hfs : fs.Grounded)
    (hhome₁ : fs.find true d₁ = .ok (home₁, .directory))
    (hhome₂ : fs.find true d₂ = .ok (home₂, .directory))
    (hlinks : ∀ names target, fs.get? (home₁ ++ names) ≠ some (.link target))
    (hsame : ∀ names, fs.get? (home₁ ++ names) = fs.get? (home₂ ++ names)) : fs.Twins d₁ d₂ := by
  have hlinks₂ : ∀ names target, fs.get? (home₂ ++ names) ≠ some (.link target) :=
    fun names target => hsame names ▸ hlinks names target
  constructor
  · intro names entry hnames
    rw [shows_iff_of_linkless hfs hhome₁ hlinks hnames,
      shows_iff_of_linkless hfs hhome₂ hlinks₂ hnames, hsame]
  · intro names name entry hnames _ _
    rw [stands_iff_of_linkless hfs hhome₁ hlinks hnames,
      stands_iff_of_linkless hfs hhome₂ hlinks₂ hnames, hsame]

/-! ### Paths behind twins -/

theorem size_lt_of_roomy {d p : Path} {pieces : List String} {count : Nat} {goal : Location}
    (hroom : fs.Roomy d (2 * count + 2)) (h : Path.Extends d pieces p)
    (hpieces : Path.Descend pieces) (hcount : Path.blanks pieces ≤ count)
    (hgoal : fs.Behind d (Path.named pieces) goal) : p.text.utf8ByteSize < pathLengthLimit := by
  have hlimit := hroom _ goal (Path.isName_of_mem_named hpieces) hgoal
  have hsize := h.size_le
  have hsum := Path.octets_le_slashed pieces
  omega

theorem Roomy.self_lt {d : Path} {extra : Nat} {home : Location} (h : fs.Roomy d extra)
    (hhome : fs.find true d = .ok (home, .directory)) :
    d.text.utf8ByteSize + extra < pathLengthLimit := by
  have hlimit := h [] home nofun (behind_home hhome)
  omega

section twins
variable {d₁ d₂ : Path} (hfs : fs.Grounded) (htwins : fs.Twins d₁ d₂)
include hfs htwins

/-- Below twins stand the same files. -/
theorem Twins.under {names : List String} {place₁ place₂ : Location}
    (hnames : ∀ name ∈ names, IsName name)
    (hplace₁ : fs.Behind d₁ names place₁) (hplace₂ : fs.Behind d₂ names place₂)
    {below : List String} {content : Bytes} (h : Under fs place₁ below content) :
    Under fs place₂ below content := by
  induction h generalizing names place₂ with
  | @file here name content hentry =>
    have hname := (hfs.tree.name _ _ _ hentry).1
    obtain ⟨place, hplace, hfile⟩ :=
      (htwins.stands_iff names name (.file content) hnames hname nofun).mp ⟨_, hplace₁, hentry⟩
    rw [hplace.unique hplace₂] at hfile
    exact .file hfile
  | @directory here name rest content hentry _ ih =>
    have hname := (hfs.tree.name _ _ _ hentry).1
    obtain ⟨place, hplace, hdirectory⟩ :=
      (htwins.stands_iff names name .directory hnames hname nofun).mp ⟨_, hplace₁, hentry⟩
    rw [hplace.unique hplace₂] at hdirectory
    refine .directory hdirectory (ih ?_ (hplace₁.concat hfs hentry nofun)
      (hplace₂.concat hfs hdirectory nofun))
    intro other hother
    rcases List.mem_append.mp hother with hother | hother
    · exact hnames other hother
    · exact List.mem_singleton.mp hother ▸ hname

end twins

/-- Two paths lead to twins, and paths with so many pieces without a name stay short behind both. -/
structure Alike (fs : FileSystem) (count : Nat) (d₁ d₂ : Path) : Prop where
  /-- The entries form a tree, and the working directory is in it. -/
  grounded : fs.Grounded
  /-- The directories hold the same. -/
  twins : fs.Twins d₁ d₂
  /-- The first path leads to a directory. -/
  first : ∃ home, fs.find true d₁ = .ok (home, .directory)
  /-- The second path leads to a directory. -/
  second : ∃ home, fs.find true d₂ = .ok (home, .directory)
  /-- Paths behind the first one stay short. -/
  first_roomy : fs.Roomy d₁ (2 * count + 2)
  /-- Paths behind the second one stay short. -/
  second_roomy : fs.Roomy d₂ (2 * count + 2)

namespace Alike

variable {d₁ d₂ p₁ p₂ : Path} {pieces : List String} {count : Nat}
variable (halike : fs.Alike count d₁ d₂)
include halike

theorem symm : fs.Alike count d₂ d₁ :=
  ⟨halike.grounded, halike.twins.symm, halike.second, halike.first, halike.second_roomy,
    halike.first_roomy⟩

variable (h : Path.Beside d₁ d₂ count pieces p₁ p₂)
include h

/-- The same pieces find the same behind twins. -/
theorem find {goal : Location} {entry : Entry} (hfind : fs.find true p₁ = .ok (goal, entry)) :
    ∃ other, fs.find true p₂ = .ok (other, entry) := by
  obtain ⟨home₁, hhome₁⟩ := halike.first
  obtain ⟨home₂, hhome₂⟩ := halike.second
  have hbehind := behind_of_find hhome₁ h.first h.descend hfind
  obtain ⟨-, -, hentry⟩ := leads_of_find hfind
  have hnames := Path.isName_of_mem_named h.descend
  obtain ⟨other, hother, hsame⟩ :=
    (halike.twins.shows_iff _ entry hnames).mp ⟨goal, hbehind, hentry⟩
  refine ⟨other, find_of_behind hhome₂ h.second h.descend hother hsame
    (size_lt_of_roomy halike.second_roomy h.second h.descend h.blanks_le hother) ?_⟩
  -- what is followed from a directory is a directory or a file
  rcases hbehind.entry halike.grounded.tree (directory_start halike.grounded d₁) with
    hdirectory | ⟨content, hfile⟩
  · rw [hentry] at hdirectory
    exact .inr (Option.some.inj hdirectory)
  · rw [hentry] at hfile
    obtain rfl := Option.some.inj hfile
    exact .inl (settled_of_find hhome₁ h.first h.descend halike.grounded hfind)

/-- The same pieces find the same file behind twins, without following a link at the end. -/
theorem find_file {goal : Location} {content : Bytes}
    (hfind : fs.find false p₁ = .ok (goal, .file content)) :
    ∃ other, fs.find false p₂ = .ok (other, .file content) := by
  obtain ⟨home₁, hhome₁⟩ := halike.first
  obtain ⟨home₂, hhome₂⟩ := halike.second
  have hfs := halike.grounded
  have htrue := find_true_of_file hfind
  have hbehind := behind_of_find hhome₁ h.first h.descend htrue
  obtain ⟨front, name, hconcat, hempty, hdot⟩ :=
    settled_of_find hhome₁ h.first h.descend hfs htrue
  have hsize₁ : p₁.text.utf8ByteSize < pathLengthLimit :=
    (locate_eq_ok_iff.mp (find_eq_ok_iff.mp htrue).1).2.1
  have hstands :=
    (find_file_iff hhome₁ h.first h.descend hfs hconcat hempty hdot hsize₁).mp ⟨_, hfind⟩
  have hdescend : Path.Descend front := fun s hs =>
    h.descend s (by rw [hconcat]; exact List.mem_append_left _ hs)
  have hname : IsName name := by
    obtain ⟨hslash, hparent⟩ := h.descend name (by rw [hconcat]; simp)
    exact ⟨hempty, hslash, hdot, hparent⟩
  obtain ⟨place, hplace, hfile⟩ := (halike.twins.stands_iff _ name (.file content)
    (Path.isName_of_mem_named hdescend) hname nofun).mp hstands
  have hsize₂ := size_lt_of_roomy halike.second_roomy h.second h.descend h.blanks_le (by
    rw [hconcat, Path.named_concat hempty hdot]
    exact hplace.concat hfs hfile nofun)
  exact (find_file_iff hhome₂ h.second h.descend hfs hconcat hempty hdot hsize₂).mpr
    ⟨place, hplace, hfile⟩

theorem isPresent (hpresent : fs.isPresent p₁ = true) : fs.isPresent p₂ = true := by
  obtain ⟨⟨goal, entry⟩, hfind⟩ := isPresent_iff.mp hpresent
  obtain ⟨other, hother⟩ := halike.find h hfind
  exact isPresent_iff.mpr ⟨_, hother⟩

theorem isDirectory (hdirectory : fs.isDirectory p₁ = true) : fs.isDirectory p₂ = true := by
  obtain ⟨goal, hfind⟩ := isDirectory_iff.mp hdirectory
  exact isDirectory_iff.mpr (halike.find h hfind)

/-- A path behind which something is found leads to a directory. -/
theorem isDirectory_of_join {s : String} (hs : '/' ∉ s.toList) (hparent : s ≠ "..")
    (hpresent : fs.isPresent (p₁.join ⟨s⟩) = true) : fs.isDirectory p₁ = true := by
  obtain ⟨home, hhome⟩ := halike.first
  obtain ⟨⟨goal, entry⟩, hfind⟩ := isPresent_iff.mp hpresent
  have hjoined := h.join hs hparent
  have hgoal := behind_of_find hhome hjoined.first hjoined.descend hfind
  rw [Path.named_append] at hgoal
  obtain ⟨place, hplace, hdirectory⟩ := hgoal.front halike.grounded
  have hfound : fs.get? place = some .directory := by
    by_cases hnothing : Path.named [s] = []
    · -- a piece that names nothing asks for a directory
      rw [hnothing, List.append_nil] at hgoal
      rw [hplace.unique hgoal]
      have hentry := (leads_of_find hfind).2.2
      rcases hgoal.entry halike.grounded.tree (directory_start halike.grounded d₁) with
        hfound | ⟨content, hfile⟩
      · exact hfound
      · rw [hentry] at hfile
        obtain rfl := Option.some.inj hfile
        obtain ⟨front, last, hlast, hempty, hdot⟩ :=
          settled_of_find hhome hjoined.first hjoined.descend halike.grounded hfind
        obtain ⟨-, hsame⟩ := List.append_inj' hlast rfl
        cases hsame
        have hnamed := Path.named_concat hempty hdot []
        rw [List.nil_append, hnothing] at hnamed
        cases hnamed
    · exact hdirectory hnothing
  exact isDirectory_iff.mpr ⟨place, find_of_behind hhome h.first h.descend hplace hfound
    (size_lt_of_roomy halike.first_roomy h.first h.descend h.blanks_le hplace) (.inr rfl)⟩

end Alike

end FileSystem

end PackageRelease
