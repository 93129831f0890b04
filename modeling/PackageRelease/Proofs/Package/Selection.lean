import PackageRelease.Package.Selection
import PackageRelease.Proofs.FileSystem.Tree
import PackageRelease.Proofs.Glob.Searching
import PackageRelease.Proofs.Path.Order
import PackageRelease.Proofs.Text.Searching

/-! # Which files belong to a package

  `Belongs` says which files a package holds, without saying how they are looked for: a way leads
  from each entry of the list to paths, and from each of these down to regular files. The selection
  finds exactly these files and puts them into an ascending list.
-/

namespace PackageRelease

namespace Selection

variable {fs : FileSystem} {directory : Path}

/-! ### From a path to files -/

/-- How a path leads to a regular file. A link is followed at the beginning only, and only to a
    directory. -/
inductive Reaches (fs : FileSystem) (start : Path) : Path.Components → Bytes → Prop where
  /-- The path is a regular file. -/
  | itself {location : Location} {content : Bytes}
      (h : fs.find false start = .ok (location, .file content)) :
      Reaches fs start start.components content
  /-- The path is a directory, perhaps behind a link, and the file stands below it. -/
  | below {location : Location} {names : List String} {content : Bytes}
      (h : fs.find true start = .ok (location, .directory))
      (hunder : fs.Under location names content) :
      Reaches fs start (start.components ++ names.map .name) content

theorem reach_of_file {start : Path} {location : Location} {content : Bytes}
    (h : fs.find false start = .ok (location, .file content)) :
    reach fs start = [start.components] := by
  unfold reach
  dsimp only
  rw [if_pos (FileSystem.isPresent_iff.mpr ⟨_, FileSystem.find_true_of_file h⟩), h]

theorem reach_of_directory {start : Path} {location : Location}
    (h : fs.find true start = .ok (location, .directory)) :
    reach fs start =
      (fs.filesBelow location).map fun names => start.components ++ names.map .name := by
  unfold reach
  dsimp only
  rw [if_pos (FileSystem.isPresent_iff.mpr ⟨_, h⟩)]
  rcases FileSystem.find_through fs start with hsame | ⟨_, _, hlink⟩
  · rw [hsame, h]
  · rw [hlink]
    dsimp only
    rw [h]

/-- A path that is neither a regular file nor a directory leads to nothing. -/
theorem reach_of_other {start : Path}
    (hfile : ∀ location content, fs.find false start ≠ .ok (location, .file content))
    (hdirectory : ∀ location, fs.find true start ≠ .ok (location, .directory)) :
    reach fs start = [] := by
  unfold reach
  dsimp only
  split
  · split
    · next location content h => exact absurd h (hfile location content)
    · next location h =>
      rcases FileSystem.find_through fs start with hsame | ⟨_, _, hlink⟩
      · exact absurd (hsame.symm.trans h) (hdirectory location)
      · rw [h] at hlink
        cases hlink
    · split
      · next location h => exact absurd h (hdirectory location)
      · rfl
    · rfl
  · rfl

theorem mem_reach_iff (htree : fs.IsTree) {start : Path} {components : Path.Components} :
    components ∈ reach fs start ↔ ∃ content, Reaches fs start components content := by
  constructor
  · intro hmem
    -- a regular file leads to itself, a directory to what is below it, anything else nowhere
    by_cases hfile : ∃ location content, fs.find false start = .ok (location, .file content)
    · obtain ⟨location, content, hfile⟩ := hfile
      rw [reach_of_file hfile, List.mem_singleton] at hmem
      exact ⟨content, hmem ▸ .itself hfile⟩
    by_cases hdirectory : ∃ location, fs.find true start = .ok (location, .directory)
    · obtain ⟨location, hdirectory⟩ := hdirectory
      rw [reach_of_directory hdirectory] at hmem
      obtain ⟨names, hnames, rfl⟩ := List.mem_map.mp hmem
      obtain ⟨content, hunder⟩ := htree.mem_filesBelow_iff.mp hnames
      exact ⟨content, .below hdirectory hunder⟩
    · rw [reach_of_other (fun location content h => hfile ⟨location, content, h⟩)
        (fun location h => hdirectory ⟨location, h⟩)] at hmem
      cases hmem
  · rintro ⟨content, hreaches⟩
    cases hreaches with
    | itself h =>
      rw [reach_of_file h]
      exact List.mem_singleton_self _
    | below h hunder =>
      rw [reach_of_directory h]
      exact List.mem_map.mpr ⟨_, htree.mem_filesBelow_iff.mpr ⟨content, hunder⟩, rfl⟩

theorem stripBase?_eq_some_iff {base path rest : Path.Components} :
    Path.stripBase? base path = some rest ↔ path = base ++ rest := by
  induction base generalizing path with
  | nil =>
    rw [Path.stripBase?, Option.some_inj, List.nil_append]
  | cons b base ih =>
    cases path with
    | nil => exact iff_of_false nofun nofun
    | cons c path =>
      rw [Path.stripBase?, List.cons_append]
      by_cases hbc : b = c
      · rw [if_pos hbc, ih, hbc, List.cons_inj_right]
      · rw [if_neg hbc]
        exact iff_of_false nofun fun h => hbc (List.cons.inj h).1.symm

theorem mem_collect_iff (htree : fs.IsTree) {start : Path} {relative : Path.Components} :
    relative ∈ collect fs directory start ↔
      (∃ content, Reaches fs start (directory.components ++ relative) content) ∧
        installed ∉ relative := by
  unfold collect
  rw [List.mem_filterMap]
  constructor
  · rintro ⟨components, hmem, h⟩
    obtain ⟨hstrip, hinstalled⟩ := Option.filter_eq_some_iff.mp h
    obtain rfl := stripBase?_eq_some_iff.mp hstrip
    exact ⟨(mem_reach_iff htree).mp hmem, by simpa using hinstalled⟩
  · rintro ⟨hreaches, hinstalled⟩
    refine ⟨_, (mem_reach_iff htree).mpr hreaches, ?_⟩
    exact Option.filter_eq_some_iff.mpr ⟨stripBase?_eq_some_iff.mpr rfl, by simpa using hinstalled⟩

/-! ### From an entry to paths -/

/-- Whether a text is left of an entry without any `./` in front. -/
def Leaves (entry rest : String) : Prop :=
  ∃ count, entry.toList = (List.replicate count ['.', '/']).flatten ++ rest.toList ∧
    ¬ ['.', '/'] <+: rest.toList

/-- Whether a text has a character with a meaning in patterns. -/
def IsPattern (text : String) : Prop := ∃ c ∈ text.toList, c = '*' ∨ c = '?' ∨ c = '['

/-- The pattern of an entry: only the entry is one, the directory stands for itself. -/
def patternText (directory : Path) (rest : String) : String :=
  (Path.join ⟨Glob.escape directory.text⟩ ⟨rest⟩).text

/-- The paths that an entry of the list stands for. -/
inductive StandsFor (fs : FileSystem) (directory : Path) (entry : String) : Path → Prop where
  /-- The whole directory. -/
  | whole {rest : String} (hrest : Leaves entry rest) (h : rest = "" ∨ rest = ".") :
      StandsFor fs directory entry directory
  /-- What a pattern matches. -/
  | matching {rest : String} {query : Glob.Query} {path : Path} (hrest : Leaves entry rest)
      (hpattern : IsPattern rest)
      (hquery : Glob.Query.parse (patternText directory rest) = .ok query)
      (hpath : query.StandsFor fs path) : StandsFor fs directory entry path
  /-- One path in the directory. -/
  | literal {rest : String} (hrest : Leaves entry rest) (hempty : rest ≠ "") (hdot : rest ≠ ".")
      (hpattern : ¬ IsPattern rest) : StandsFor fs directory entry (directory.join ⟨rest⟩)

/-- Whether an entry is a pattern, if it looks like one. -/
def WellWritten (directory : Path) (entry : String) : Prop :=
  ∀ rest, Leaves entry rest → IsPattern rest →
    ∃ query, Glob.Query.parse (patternText directory rest) = .ok query

theorem withoutDots_append (count : Nat) {rest : List Char} (h : ¬ ['.', '/'] <+: rest) :
    withoutDots ((List.replicate count ['.', '/']).flatten ++ rest) = rest := by
  induction count with
  | zero =>
    rw [List.replicate_zero, List.flatten_nil, List.nil_append, withoutDots.eq_def]
    split
    · next tail => exact absurd ⟨tail, rfl⟩ h
    · rfl
  | succ count ih => exact ih

theorem withoutDots_leaves (cs : List Char) :
    ∃ count, cs = (List.replicate count ['.', '/']).flatten ++ withoutDots cs ∧
      ¬ ['.', '/'] <+: withoutDots cs := by
  fun_induction withoutDots cs with
  | case1 rest ih =>
    obtain ⟨count, hcs, hrest⟩ := ih
    refine ⟨count + 1, ?_, hrest⟩
    rw [List.replicate_succ, List.flatten_cons, List.append_assoc, ← hcs]
    rfl
  | case2 cs h =>
    refine ⟨0, rfl, ?_⟩
    rintro ⟨tail, rfl⟩
    exact h tail rfl

theorem leaves_iff {entry rest : String} :
    Leaves entry rest ↔ rest = String.ofList (withoutDots entry.toList) := by
  constructor
  · rintro ⟨count, hentry, hrest⟩
    rw [hentry, withoutDots_append count hrest, String.ofList_toList]
  · rintro rfl
    obtain ⟨count, hentry, hrest⟩ := withoutDots_leaves entry.toList
    refine ⟨count, ?_, ?_⟩ <;> rw [String.toList_ofList]
    · exact hentry
    · exact hrest

theorem hasWildcard_iff {text : String} : Glob.hasWildcard text = true ↔ IsPattern text := by
  unfold Glob.hasWildcard IsPattern
  simp [List.any_eq_true, or_assoc]

theorem exists_leaves (entry : String) : ∃ rest, Leaves entry rest :=
  ⟨_, leaves_iff.mpr rfl⟩

section resolved_entries
variable {entry rest : String} (hrest : Leaves entry rest)
include hrest

theorem resolve_whole (h : rest = "" ∨ rest = ".") :
    resolve fs directory entry = .ok [directory] := by
  unfold resolve
  rw [← leaves_iff.mp hrest]
  exact if_pos (by simpa using h)

theorem resolve_literal (hempty : rest ≠ "") (hdot : rest ≠ ".") (h : ¬ IsPattern rest) :
    resolve fs directory entry = .ok [directory.join ⟨rest⟩] := by
  unfold resolve
  rw [← leaves_iff.mp hrest]
  dsimp only
  rw [if_neg (by simp [hempty, hdot]), if_neg (fun hwildcard => h (hasWildcard_iff.mp hwildcard))]

theorem resolve_pattern (h : IsPattern rest) :
    resolve fs directory entry =
      match Glob.Query.parse (patternText directory rest) with
      | .ok query => .ok (query.search fs)
      | .error fault =>
        .error (.validation (.invalidValue "files"
          ("bad pattern '" ++ entry ++ "': " ++ fault.message))) := by
  -- neither of the two texts for the whole directory has a wildcard
  have hneither : ¬ (rest.isEmpty = true ∨ rest = ".") := by
    obtain ⟨c, hc, hwild⟩ := h
    rintro (hempty | rfl)
    · rw [String.isEmpty_iff.mp hempty] at hc
      cases hc
    · obtain rfl : c = '.' := by simpa using hc
      revert hwild
      decide
  unfold resolve
  rw [← leaves_iff.mp hrest]
  dsimp only
  rw [if_neg hneither, if_pos (hasWildcard_iff.mpr h)]
  rfl

end resolved_entries

/-- An entry that is no pattern cannot be written wrongly. -/
theorem wellWritten_of_not_isPattern {entry : String} (h : ¬ IsPattern entry) :
    WellWritten directory entry := by
  rintro rest ⟨count, hentry, -⟩ ⟨c, hc, hwild⟩
  refine absurd ⟨c, ?_, hwild⟩ h
  rw [hentry]
  exact List.mem_append_right _ hc

/-- An entry is resolved to the paths it stands for. -/
theorem mem_of_resolve (htree : fs.IsTree) {entry : String} {paths : List Path}
    (h : resolve fs directory entry = .ok paths) {path : Path} :
    path ∈ paths ↔ StandsFor fs directory entry path := by
  constructor
  · intro hmem
    obtain ⟨rest, hrest⟩ := exists_leaves entry
    -- the three ways of resolving an entry are the three cases of what it stands for
    by_cases hwhole : rest = "" ∨ rest = "."
    · rw [resolve_whole hrest hwhole] at h
      cases h
      obtain rfl := List.mem_singleton.mp hmem
      exact .whole hrest hwhole
    by_cases hpattern : IsPattern rest
    · rw [resolve_pattern hrest hpattern] at h
      cases hquery : Glob.Query.parse (patternText directory rest) with
      | error fault =>
        rw [hquery] at h
        cases h
      | ok query =>
        rw [hquery] at h
        cases h
        exact .matching hrest hpattern hquery ((Glob.Query.mem_search htree).mp hmem)
    · obtain ⟨hempty, hdot⟩ := not_or.mp hwhole
      rw [resolve_literal hrest hempty hdot hpattern] at h
      cases h
      obtain rfl := List.mem_singleton.mp hmem
      exact .literal hrest hempty hdot hpattern
  · intro hstands
    cases hstands with
    | whole hrest hwhole =>
      rw [resolve_whole hrest hwhole] at h
      cases h
      exact List.mem_singleton_self _
    | matching hrest hpattern hquery hpath =>
      rw [resolve_pattern hrest hpattern, hquery] at h
      cases h
      exact (Glob.Query.mem_search htree).mpr hpath
    | literal hrest hempty hdot hpattern =>
      rw [resolve_literal hrest hempty hdot hpattern] at h
      cases h
      exact List.mem_singleton_self _

theorem resolve_of_wellWritten {entry : String} (h : WellWritten directory entry) :
    ∃ paths, resolve fs directory entry = .ok paths := by
  obtain ⟨rest, hrest⟩ := exists_leaves entry
  by_cases hwhole : rest = "" ∨ rest = "."
  · exact ⟨_, resolve_whole hrest hwhole⟩
  by_cases hpattern : IsPattern rest
  · obtain ⟨query, hquery⟩ := h rest hrest hpattern
    rw [resolve_pattern hrest hpattern, hquery]
    exact ⟨_, rfl⟩
  · obtain ⟨hempty, hdot⟩ := not_or.mp hwhole
    exact ⟨_, resolve_literal hrest hempty hdot hpattern⟩

/-! ### From the list to the files -/

/-- How an entry of the list selects a file, seen from the directory. Files of installed packages
    are never selected. -/
def Selects (fs : FileSystem) (directory : Path) (entry : String) (relative : Path.Components)
    (content : Bytes) : Prop :=
  installed ∉ relative ∧ ∃ start, StandsFor fs directory entry start ∧
    Reaches fs start (directory.components ++ relative) content

theorem mem_selected_iff (htree : fs.IsTree) {entry : String} {paths : List Path}
    (h : resolve fs directory entry = .ok paths) {relative : Path.Components} :
    relative ∈ paths.flatMap (collect fs directory) ↔
      ∃ content, Selects fs directory entry relative content := by
  rw [List.mem_flatMap]
  constructor
  · rintro ⟨start, hstart, hmem⟩
    obtain ⟨⟨content, hreaches⟩, hinstalled⟩ := (mem_collect_iff htree).mp hmem
    exact ⟨content, hinstalled, start, (mem_of_resolve htree h).mp hstart, hreaches⟩
  · rintro ⟨content, hinstalled, start, hstart, hreaches⟩
    exact ⟨start, (mem_of_resolve htree h).mpr hstart,
      (mem_collect_iff htree).mpr ⟨⟨content, hreaches⟩, hinstalled⟩⟩

theorem mem_insertAll {files set : List Path.Components} {q : Path.Components} :
    q ∈ insertAll files set ↔ q ∈ files ∨ q ∈ set := by
  unfold insertAll
  induction files generalizing set with
  | nil => simp
  | cons file files ih =>
    rw [List.foldl_cons, ih, Path.mem_insert, List.mem_cons, or_assoc]
    exact or_left_comm

theorem ascending_insertAll (files : List Path.Components) {set : List Path.Components}
    (h : Path.Ascending set) : Path.Ascending (insertAll files set) := by
  unfold insertAll
  induction files generalizing set with
  | nil => exact h
  | cons file files ih => exact ih (Path.ascending_insert file h)

/-- The list is gone through entry by entry, and each has to lead to a file. -/
theorem listed_cons_eq_ok_iff {entry : String} {rest : List String}
    {set result : List Path.Components} :
    listed fs directory (entry :: rest) set = .ok result ↔
      ∃ paths, resolve fs directory entry = .ok paths ∧
        paths.flatMap (collect fs directory) ≠ [] ∧
        listed fs directory rest (insertAll (paths.flatMap (collect fs directory)) set) =
          .ok result := by
  rw [listed, bind_eq_ok]
  refine exists_congr fun paths => and_congr_right fun _ => ?_
  by_cases hempty : paths.flatMap (collect fs directory) = []
  · rw [hempty]
    exact iff_of_false nofun fun h => h.1 rfl
  · rw [if_neg (by simpa using hempty)]
    exact ⟨fun h => ⟨hempty, h⟩, fun h => h.2⟩

/-- The selection keeps what it has and adds what the entries select. The induction is on the list,
    and every entry adds to the files found so far. -/
theorem mem_listed_iff (htree : fs.IsTree) {entries : List String}
    {set result : List Path.Components} (h : listed fs directory entries set = .ok result)
    {relative : Path.Components} :
    relative ∈ result ↔ relative ∈ set ∨
      ∃ entry ∈ entries, ∃ content, Selects fs directory entry relative content := by
  induction entries generalizing set with
  | nil =>
    cases h
    simp
  | cons entry rest ih =>
    obtain ⟨paths, hpaths, -, hrest⟩ := listed_cons_eq_ok_iff.mp h
    rw [ih hrest, mem_insertAll, mem_selected_iff htree hpaths, List.exists_mem_cons_iff,
      ← or_assoc]
    exact or_congr_left or_comm

/-- Each entry of a list that is gone through selects some file. -/
theorem selects_of_listed (htree : fs.IsTree) {entries : List String}
    {set result : List Path.Components} (h : listed fs directory entries set = .ok result) :
    ∀ entry ∈ entries, ∃ relative content, Selects fs directory entry relative content := by
  induction entries generalizing set with
  | nil => exact nofun
  | cons first rest ih =>
    obtain ⟨paths, hpaths, hfiles, hrest⟩ := listed_cons_eq_ok_iff.mp h
    intro entry hmem
    rcases List.mem_cons.mp hmem with rfl | hmem
    · obtain ⟨relative, hrelative⟩ := List.exists_mem_of_ne_nil _ hfiles
      exact ⟨relative, (mem_selected_iff htree hpaths).mp hrelative⟩
    · exact ih hrest entry hmem

theorem ascending_listed {entries : List String} {set result : List Path.Components}
    (h : listed fs directory entries set = .ok result) (hset : Path.Ascending set) :
    Path.Ascending result := by
  induction entries generalizing set with
  | nil =>
    cases h
    exact hset
  | cons entry rest ih =>
    obtain ⟨paths, -, -, hrest⟩ := listed_cons_eq_ok_iff.mp h
    exact ih hrest (ascending_insertAll _ hset)

/-- The first entry that selects nothing ends the selection, and the failure names it. -/
theorem listed_of_missing (htree : fs.IsTree) {front back : List String} {entry : String}
    (hfront : ∀ earlier ∈ front, WellWritten directory earlier ∧
      ∃ relative content, Selects fs directory earlier relative content)
    (hentry : WellWritten directory entry)
    (hmissing : ∀ relative content, ¬ Selects fs directory entry relative content)
    (set : List Path.Components) :
    listed fs directory (front ++ entry :: back) set =
      .error (.validation (.missingArtifact entry directory)) := by
  induction front generalizing set with
  | nil =>
    obtain ⟨paths, hpaths⟩ := resolve_of_wellWritten hentry
    have hempty : paths.flatMap (collect fs directory) = [] := by
      refine List.eq_nil_iff_forall_not_mem.mpr fun relative hmem => ?_
      obtain ⟨content, hselects⟩ := (mem_selected_iff htree hpaths).mp hmem
      exact hmissing relative content hselects
    rw [List.nil_append, listed, hpaths]
    change (if (paths.flatMap (collect fs directory)).isEmpty then _ else _) = _
    rw [hempty]
    rfl
  | cons first front ih =>
    -- the first entry leads to some file, so the selection goes on behind it
    obtain ⟨hfirst, relative, content, hselects⟩ := hfront first List.mem_cons_self
    obtain ⟨paths, hpaths⟩ := resolve_of_wellWritten hfirst
    have hmem := (mem_selected_iff htree hpaths).mpr ⟨content, hselects⟩
    rw [List.cons_append, listed, hpaths]
    change (if (paths.flatMap (collect fs directory)).isEmpty then _ else _) = _
    rw [if_neg (by simpa using List.ne_nil_of_mem hmem)]
    exact ih (fun earlier hearlier => hfront earlier (List.mem_cons_of_mem _ hearlier)) _

/-! ### All files of a package -/

/-- The list of a manifest. Without one it is the whole directory. -/
inductive Lists (m : Manifest) : List String → Prop where
  /-- The manifest has a list of texts. -/
  | given {listed : List String} (h : m.files? = some listed) : Lists m listed
  /-- The manifest has no field of that name. -/
  | absent (h : m.get? "files" = none) : Lists m ["."]

/-- Which files belong to a package beside its manifest, seen from its directory. -/
inductive Belongs (fs : FileSystem) (directory : Path) (m : Manifest) :
    Path.Components → Bytes → Prop where
  /-- An entry of the list selects the file. -/
  | selected {listed : List String} {entry : String} {relative : Path.Components} {content : Bytes}
      (hlists : Lists m listed) (hentry : entry ∈ listed)
      (h : Selects fs directory entry relative content) : Belongs fs directory m relative content
  /-- The file stands in the directory itself and has one of the names that always belong to it. -/
  | standing {location : Location} {name lead : String} {content : Bytes}
      (hdirectory : fs.find true directory = .ok (location, .directory))
      (hfile : fs.get? (location ++ [name]) = some (.file content))
      (hlead : lead ∈ alwaysIncluded) (h : lead.toList <+: (Text.lower name).toList) :
      Belongs fs directory m [.name name] content

theorem entries_eq_ok_iff {m : Manifest} {listed : List String} :
    entries m = .ok listed ↔ Lists m listed := by
  unfold entries
  cases hfiles : m.files? with
  | some files =>
    constructor
    · intro h
      cases h
      exact .given hfiles
    · rintro (h | h)
      · rw [hfiles] at h
        cases h
        rfl
      · unfold Manifest.files? at hfiles
        rw [h] at hfiles
        cases hfiles
  | none =>
    cases hfield : m.get? "files" with
    | some value =>
      refine iff_of_false nofun ?_
      rintro (h | h)
      · rw [hfiles] at h
        cases h
      · rw [hfield] at h
        cases h
    | none =>
      constructor
      · intro h
        cases h
        exact .absent hfield
      · rintro (h | h)
        · rw [hfiles] at h
          cases h
        · rfl

theorem Lists.unique {m : Manifest} {listed other : List String} (h : Lists m listed)
    (hother : Lists m other) : other = listed :=
  Except.ok.inj ((entries_eq_ok_iff.mpr hother).symm.trans (entries_eq_ok_iff.mpr h))

theorem mem_standing_iff (htree : fs.IsTree) {location : Location} {name : String} :
    name ∈ standing (fs.children location) ↔
      ∃ content, fs.get? (location ++ [name]) = some (.file content) ∧
        ∃ lead ∈ alwaysIncluded, lead.toList <+: (Text.lower name).toList := by
  unfold standing
  rw [List.mem_map]
  constructor
  · rintro ⟨⟨other, entry⟩, hmem, rfl⟩
    obtain ⟨hchild, hkeep⟩ := List.mem_filter.mp hmem
    obtain ⟨hfile, hlead⟩ := Bool.and_eq_true_iff.mp hkeep
    obtain ⟨lead, halways, hstart⟩ := List.any_eq_true.mp hlead
    cases entry with
    | file content =>
      exact ⟨content, htree.mem_children_iff.mp hchild, lead, halways,
        Text.isSome_after?_iff.mp hstart⟩
    | directory => cases hfile
    | link target => cases hfile
  · rintro ⟨content, hentry, lead, hmem, hstart⟩
    refine ⟨(name, .file content), List.mem_filter.mpr ⟨htree.mem_children_iff.mpr hentry, ?_⟩, rfl⟩
    exact List.any_eq_true.mpr ⟨lead, hmem, Text.isSome_after?_iff.mpr hstart⟩

/-- The selection goes through the list and the directory one after the other. -/
theorem files_eq_ok_iff {m : Manifest} {result : List Path.Components} :
    files fs directory m = .ok result ↔
      ∃ entries set location, Lists m entries ∧ listed fs directory entries [] = .ok set ∧
        fs.find true directory = .ok (location, .directory) ∧
        result = (insertAll ((standing (fs.children location)).map fun name => [.name name])
          set).filter (· ≠ [.name "package.json"]) := by
  unfold files
  rw [bind_eq_ok]
  constructor
  · rintro ⟨listedEntries, hentries, h⟩
    obtain ⟨set, hset, h⟩ := bind_eq_ok.mp h
    cases hlist : fs.list directory with
    | error error =>
      rw [hlist] at h
      cases h
    | ok present =>
      obtain ⟨location, hfind, rfl⟩ := FileSystem.list_eq_ok_iff.mp hlist
      rw [hlist] at h
      cases h
      exact ⟨_, set, location, entries_eq_ok_iff.mp hentries, hset, hfind, rfl⟩
  · rintro ⟨listedEntries, set, location, hlists, hset, hfind, rfl⟩
    refine ⟨_, entries_eq_ok_iff.mpr hlists, bind_eq_ok.mpr ⟨set, hset, ?_⟩⟩
    rw [FileSystem.list_eq_ok_iff.mpr ⟨location, hfind, rfl⟩]
    rfl

/-- The selected files are those that belong to the package, besides the file of the manifest. -/
theorem mem_files_iff (htree : fs.IsTree) {m : Manifest} {result : List Path.Components}
    (h : files fs directory m = .ok result) {relative : Path.Components} :
    relative ∈ result ↔
      relative ≠ [.name "package.json"] ∧ ∃ content, Belongs fs directory m relative content := by
  obtain ⟨listedEntries, set, location, hlists, hset, hfind, rfl⟩ := files_eq_ok_iff.mp h
  rw [List.mem_filter, decide_eq_true_iff, and_comm]
  refine and_congr_right fun _ => ?_
  rw [mem_insertAll, mem_listed_iff htree hset, List.mem_map]
  -- at the beginning the set is empty, so each file comes from an entry or from the directory
  constructor
  · rintro (⟨name, hmem, rfl⟩ | hnothing | ⟨entry, hentry, content, hselects⟩)
    · obtain ⟨content, hfile, lead, hlead, hstart⟩ := (mem_standing_iff htree).mp hmem
      exact ⟨content, .standing hfind hfile hlead hstart⟩
    · cases hnothing
    · exact ⟨content, .selected hlists hentry hselects⟩
  · rintro ⟨content, hbelongs⟩
    cases hbelongs with
    | selected hothers hentry hselects =>
      obtain rfl := hlists.unique hothers
      exact .inr (.inr ⟨_, hentry, content, hselects⟩)
    | standing hdirectory hfile hlead hstart =>
      rw [hfind] at hdirectory
      cases hdirectory
      exact .inl ⟨_, (mem_standing_iff htree).mpr ⟨content, hfile, _, hlead, hstart⟩, rfl⟩

theorem ascending_files {m : Manifest} {result : List Path.Components}
    (h : files fs directory m = .ok result) : Path.Ascending result := by
  obtain ⟨_, set, location, -, hset, -, rfl⟩ := files_eq_ok_iff.mp h
  exact (ascending_insertAll _ (ascending_listed hset List.Pairwise.nil)).filter _

/-- A selection succeeds only if each entry of the list selects some file. -/
theorem selects_of_files (htree : fs.IsTree) {m : Manifest} {result : List Path.Components}
    (h : files fs directory m = .ok result) {entries : List String} (hlists : Lists m entries) :
    ∀ entry ∈ entries, ∃ relative content, Selects fs directory entry relative content := by
  obtain ⟨others, set, location, hothers, hset, -, -⟩ := files_eq_ok_iff.mp h
  obtain rfl := hlists.unique hothers
  exact selects_of_listed htree hset

theorem files_of_missing (htree : fs.IsTree) {m : Manifest} {front back : List String}
    {entry : String} (hlists : Lists m (front ++ entry :: back))
    (hfront : ∀ earlier ∈ front, WellWritten directory earlier ∧
      ∃ relative content, Selects fs directory earlier relative content)
    (hentry : WellWritten directory entry)
    (hmissing : ∀ relative content, ¬ Selects fs directory entry relative content) :
    files fs directory m = .error (.validation (.missingArtifact entry directory)) := by
  unfold files
  rw [entries_eq_ok_iff.mpr hlists]
  change listed fs directory (front ++ entry :: back) [] >>= _ = _
  rw [listed_of_missing htree hfront hentry hmissing]
  rfl

end Selection

end PackageRelease
