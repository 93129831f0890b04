import PackageRelease.Proofs.Glob.Dotted

/-! # Packing twins

  A package does not depend on where its directory stands, nor on how the path of the directory is
  written: two directories that hold the same are packed alike. The key idea: an entry of the list
  leads to the same pieces behind both, and behind the same pieces the same files are found and
  read.

  An entry that leads out of the directory asks for something that the directory does not hold, so
  it is left aside. A pattern is also left aside if the path of a directory begins with a `.`: then
  it selects nothing.
-/

namespace PackageRelease

namespace Selection

open FileSystem

variable {fs : FileSystem} {d₁ d₂ : Path}

/-! ### What is reached -/

theorem Reaches.isPresent {start : Path} {components : Path.Components} {content : Bytes}
    (h : Reaches fs start components content) : fs.isPresent start = true := by
  cases h with
  | itself h => exact isPresent_iff.mpr ⟨_, find_true_of_file h⟩
  | below h _ => exact isPresent_iff.mpr ⟨_, h⟩

/-- The same pieces reach the same files. -/
theorem Reaches.beside {count : Nat} {pieces : List String} {p₁ p₂ : Path}
    (halike : fs.Alike count d₁ d₂) (hbeside : Path.Beside d₁ d₂ count pieces p₁ p₂)
    {relative : Path.Components} {content : Bytes}
    (h : Reaches fs p₁ (d₁.components ++ relative) content) :
    Reaches fs p₂ (d₂.components ++ relative) content ∧
      ∃ names : List String, relative = names.map .name ∧ ∀ name ∈ names, IsName name := by
  obtain ⟨home₁, hhome₁⟩ := halike.first
  obtain ⟨home₂, hhome₂⟩ := halike.second
  have hcomponents₁ := hbeside.first.components_eq (leads_of_find hhome₁).1 hbeside.descend
  have hcomponents₂ := hbeside.second.components_eq (leads_of_find hhome₂).1 hbeside.descend
  have hnames := Path.isName_of_mem_named hbeside.descend
  generalize hwhole : d₁.components ++ relative = components at h
  cases h with
  | itself hfind =>
    rw [hcomponents₁] at hwhole
    obtain rfl := List.append_cancel_left hwhole
    obtain ⟨other, hother⟩ := halike.find_file hbeside hfind
    rw [← hcomponents₂]
    exact ⟨.itself hother, _, rfl, hnames⟩
  | @below location names content hfind hunder =>
    rw [hcomponents₁, List.append_assoc, ← List.map_append] at hwhole
    obtain rfl := List.append_cancel_left hwhole
    obtain ⟨other, hother⟩ := halike.find hbeside hfind
    rw [List.map_append, ← List.append_assoc, ← hcomponents₂]
    refine ⟨.below hother ?_, Path.named pieces ++ names, List.map_append.symm, fun name hname => ?_⟩
    · exact halike.twins.under halike.grounded hnames
        (behind_of_find hhome₁ hbeside.first hbeside.descend hfind)
        (behind_of_find hhome₂ hbeside.second hbeside.descend hother) hunder
    · rcases List.mem_append.mp hname with hname | hname
      · exact hnames name hname
      · exact hunder.isName halike.grounded.tree name hname

/-! ### What an entry stands for -/

/-- Whether an entry asks for something in the directory only, with so many octets. -/
structure Inside (size : Nat) (entry : String) : Prop where
  /-- It does not begin at the root. -/
  relative : ∀ rest, Leaves entry rest → (⟨rest⟩ : Path).isAbsolute = false
  /-- None of the texts between its slashes leads upwards. -/
  not_ascends : ∀ rest, Leaves entry rest → ∀ piece ∈ Text.split '/' rest, ∀ pattern,
    Glob.Pattern.parse piece.toList = .ok pattern → ¬ pattern.Ascends
  /-- It has so many octets at most. -/
  size_le : entry.utf8ByteSize ≤ size

/-- Whether an entry stays inside is read off the texts between its slashes. -/
theorem inside_iff {size : Nat} {entry : String} : Inside size entry ↔
    (⟨String.ofList (withoutDots entry.toList)⟩ : Path).isAbsolute = false ∧
    (∀ piece ∈ Text.split '/' (String.ofList (withoutDots entry.toList)),
      ∀ pattern ∈ (Glob.Pattern.parse piece.toList).toOption.toList, ¬ pattern.Ascends) ∧
    entry.utf8ByteSize ≤ size := by
  have hparse : ∀ (piece : String) (pattern : Glob.Pattern),
      pattern ∈ (Glob.Pattern.parse piece.toList).toOption.toList ↔
        Glob.Pattern.parse piece.toList = .ok pattern := by
    intro piece pattern
    cases Glob.Pattern.parse piece.toList with
    | error fault => exact iff_of_false nofun nofun
    | ok found =>
      rw [Except.toOption, Option.toList_some, List.mem_singleton, Except.ok.injEq]
      exact eq_comm
  simp only [hparse]
  constructor
  · rintro ⟨hrelative, hascends, hsize⟩
    exact ⟨hrelative _ (leaves_iff.mpr rfl), hascends _ (leaves_iff.mpr rfl), hsize⟩
  · rintro ⟨hrelative, hascends, hsize⟩
    refine ⟨fun rest hrest => ?_, fun rest hrest => ?_, hsize⟩
    · exact leaves_iff.mp hrest ▸ hrelative
    · exact leaves_iff.mp hrest ▸ hascends

instance (size : Nat) (entry : String) : Decidable (Inside size entry) :=
  decidable_of_iff _ inside_iff.symm

section inside
variable {size : Nat} {entry rest : String} (h : Inside size entry) (hrest : Leaves entry rest)
include h hrest

theorem Inside.rest_le : rest.utf8ByteSize ≤ size := by
  obtain ⟨count, hentry, -⟩ := hrest
  have htext : entry = String.ofList (List.replicate count ['.', '/']).flatten ++ rest := by
    rw [← String.toList_inj, String.toList_append, String.toList_ofList, hentry]
  have hsize := h.size_le
  rw [htext, String.utf8ByteSize_append] at hsize
  omega

theorem Inside.descend : Path.Descend (Text.split '/' rest) := by
  intro piece hpiece
  refine ⟨Text.slash_notMem_of_mem_pieces hpiece, ?_⟩
  rintro rfl
  have hparent : Glob.Pattern.parse "..".toList = .ok [.char '.', .char '.'] := rfl
  exact h.not_ascends rest hrest ".." hpiece _ hparent ⟨rfl, by simp [Glob.Pattern.accepts]⟩

theorem Inside.stays {patterns : List Glob.Pattern} (hread : Glob.Reads rest patterns) :
    ∀ pattern ∈ patterns, pattern.Stays := by
  intro pattern hpattern
  obtain ⟨piece, hpiece, hparse⟩ := hread.exists_piece hpattern
  exact ⟨h.not_ascends rest hrest piece hpiece pattern hparse,
    fun hslash => Text.slash_notMem_of_mem_pieces hpiece (Glob.mem_of_readTokens hparse hslash)⟩

end inside

/-- The path of a directory does not begin with a `.`. -/
def Plain (d : Path) : Prop := d.components.head? ≠ some .current

instance (d : Path) : Decidable (Plain d) := inferInstanceAs (Decidable (_ ≠ _))

theorem IsPattern.ne_empty {text : String} (h : IsPattern text) : text ≠ "" := by
  rintro rfl
  obtain ⟨c, hc, -⟩ := h
  cases hc

/-- The `./` in front of an entry are no patterns. -/
theorem isPattern_leaves_iff {entry rest : String} (hrest : Leaves entry rest) :
    IsPattern entry ↔ IsPattern rest := by
  obtain ⟨count, hentry, -⟩ := hrest
  constructor
  · rintro ⟨c, hc, hwild⟩
    rw [hentry] at hc
    rcases List.mem_append.mp hc with hc | hc
    · obtain ⟨dots, hdots, hc⟩ := List.mem_flatten.mp hc
      rw [List.eq_of_mem_replicate hdots] at hc
      rcases List.mem_pair.mp hc with rfl | rfl
      · exact absurd hwild (by decide)
      · exact absurd hwild (by decide)
    · exact ⟨c, hc, hwild⟩
  · rintro ⟨c, hc, hwild⟩
    exact ⟨c, hentry ▸ List.mem_append_right _ hc, hwild⟩

section stands_for
variable {size : Nat} {entry : String} (halike : fs.Alike (size + 1) d₁ d₂)
  (hinside : Inside size entry)
include hinside

theorem Inside.length_pieces_le {rest : String} (hrest : Leaves entry rest) :
    (Text.split '/' rest).length ≤ size + 1 :=
  Nat.le_trans (Text.length_split_le rest) (Nat.succ_le_succ (hinside.rest_le hrest))

include halike

/-- The pattern of an entry can be read behind one directory if it can behind the other. -/
theorem wellWritten_of_alike (h : WellWritten d₁ entry) : WellWritten d₂ entry := by
  obtain ⟨home₁, hhome₁⟩ := halike.first
  obtain ⟨home₂, hhome₂⟩ := halike.second
  intro rest hrest hpattern
  have hrelative := hinside.relative rest hrest
  obtain ⟨query, hquery⟩ := h rest hrest hpattern
  obtain ⟨patterns, hread, -⟩ := (Glob.parse_pattern_eq_ok_iff (leads_of_find hhome₁).1 hrelative
    hpattern.ne_empty).mp hquery
  exact ⟨_, (Glob.parse_pattern_eq_ok_iff (leads_of_find hhome₂).1 hrelative
    hpattern.ne_empty).mpr ⟨patterns, hread, rfl⟩⟩

/-- An entry stands for paths with the same pieces. -/
theorem StandsFor.beside (hplain : IsPattern entry → Plain d₁ ∧ Plain d₂) {start : Path}
    (h : StandsFor fs d₁ entry start) :
    ∃ pieces other, Path.Beside d₁ d₂ (size + 1) pieces start other ∧
      (fs.isPresent start = true → StandsFor fs d₂ entry other) := by
  obtain ⟨home₁, hhome₁⟩ := halike.first
  obtain ⟨home₂, hhome₂⟩ := halike.second
  have hne₁ := (leads_of_find hhome₁).1
  have hne₂ := (leads_of_find hhome₂).1
  cases h with
  | whole hrest hwhole =>
    exact ⟨[], d₂, ⟨Path.extends_self hne₁, Path.extends_self hne₂, nofun, Nat.zero_le _⟩,
      fun _ => .whole hrest hwhole⟩
  | @literal rest hrest hempty hdot hpattern =>
    have hrelative := hinside.relative rest hrest
    refine ⟨Text.split '/' rest, d₂.join ⟨rest⟩, ⟨Path.extends_join hne₁ hempty hrelative,
      Path.extends_join hne₂ hempty hrelative, hinside.descend hrest, ?_⟩,
      fun _ => .literal hrest hempty hdot hpattern⟩
    exact Nat.le_trans (Path.blanks_le _) (hinside.length_pieces_le hrest)
  | @matching rest query path hrest hpattern hquery hpath =>
    have htree := halike.grounded.tree
    have hrelative := hinside.relative rest hrest
    obtain ⟨hplain₁, hplain₂⟩ := hplain ((isPattern_leaves_iff hrest).mpr hpattern)
    have hroom₁ := halike.first_roomy.self_lt hhome₁
    have hroom₂ := halike.second_roomy.self_lt hhome₂
    -- the search starts at the directory, however it is written, on both sides
    obtain ⟨patterns, hread, hfinds⟩ := (Glob.mem_search_iff halike.grounded hhome₁ hplain₁
      (by omega) hpattern.ne_empty hrelative).mp
        ⟨query, hquery, (Glob.Query.mem_search htree).mpr hpath⟩
    have hbase : Path.Beside d₁ d₂ 0 [] (Glob.base d₁) (Glob.base d₂) :=
      ⟨Glob.extends_base hne₁, Glob.extends_base hne₂, nofun, Nat.le_refl _⟩
    have hlength := hread.length_le
    have hsize := hinside.rest_le hrest
    obtain ⟨pieces, other, hbeside, hother⟩ :=
      hfinds.beside halike hplain₁ hplain₂ (hinside.stays hrest hread) hbase (by omega)
    refine ⟨pieces, other, hbeside, fun hpresent => ?_⟩
    obtain ⟨query', hquery', hpath'⟩ := (Glob.mem_search_iff halike.grounded hhome₂ hplain₂
      (by omega) hpattern.ne_empty hrelative).mpr ⟨patterns, hread, (hother hpresent).2⟩
    exact .matching hrest hpattern hquery' ((Glob.Query.mem_search htree).mp hpath')

/-- An entry selects the same files in both directories, seen from there by their names. -/
theorem Selects.beside (hplain : IsPattern entry → Plain d₁ ∧ Plain d₂)
    {relative : Path.Components} {content : Bytes} (h : Selects fs d₁ entry relative content) :
    Selects fs d₂ entry relative content ∧
      ∃ names : List String, relative = names.map .name ∧ ∀ name ∈ names, IsName name := by
  obtain ⟨hinstalled, start, hstands, hreaches⟩ := h
  obtain ⟨pieces, other, hbeside, hother⟩ := hstands.beside halike hinside hplain
  obtain ⟨hsame, hnames⟩ := hreaches.beside halike hbeside
  exact ⟨⟨hinstalled, other, hother hreaches.isPresent, hsame⟩, hnames⟩

end stands_for

/-! ### All files of a package -/

/-- Two ascending lists with the same members are the same. -/
theorem eq_of_ascending {paths others : List Path.Components} (h : Path.Ascending paths)
    (hothers : Path.Ascending others) (hmem : ∀ p, p ∈ paths ↔ p ∈ others) : paths = others := by
  have hperm := (List.perm_ext_iff_of_nodup (Path.nodup_of_ascending h)
    (Path.nodup_of_ascending hothers)).mpr hmem
  refine hperm.eq_of_pairwise (fun p q _ _ hpq hqp => ?_) h hothers
  exact absurd (Path.before_trans hpq hqp) (Path.before_irrefl p)

theorem wellWritten_of_resolve {directory : Path} {entry : String} {paths : List Path}
    (h : resolve fs directory entry = .ok paths) : WellWritten directory entry := by
  intro rest hrest hpattern
  rw [resolve_pattern hrest hpattern] at h
  cases hquery : Glob.Query.parse (patternText directory rest) with
  | error fault =>
    rw [hquery] at h
    cases h
  | ok query => exact ⟨query, rfl⟩

/-- Whether two directories can be compared by the entries of a list. -/
structure Comparable (size : Nat) (d₁ d₂ : Path) (listed : List String) : Prop where
  /-- Each entry asks for something in the directory, with so many octets. -/
  inside : ∀ entry ∈ listed, Inside size entry
  /-- If there is a pattern, neither of the paths begins with a `.`. -/
  plain : ∀ entry ∈ listed, IsPattern entry → Plain d₁ ∧ Plain d₂

theorem Comparable.symm {size : Nat} {listed : List String} (h : Comparable size d₁ d₂ listed) :
    Comparable size d₂ d₁ listed :=
  ⟨h.inside, fun entry hentry hpattern => (h.plain entry hentry hpattern).symm⟩

/-- Behind a path that begins with a `.`, a pattern selects nothing. -/
theorem not_selects_of_current (htree : fs.IsTree) {directory : Path} (hne : directory.text ≠ "")
    (hcurrent : ¬ Plain directory) {size : Nat} {entry : String} (hinside : Inside size entry)
    (hpattern : IsPattern entry) (relative : Path.Components) (content : Bytes) :
    ¬ Selects fs directory entry relative content := by
  rintro ⟨-, start, hstands, hreaches⟩
  have hhead := hreaches.head?_eq htree hne
  cases hstands with
  | whole hrest hwhole =>
    obtain ⟨c, hc, hwild⟩ := (isPattern_leaves_iff hrest).mp hpattern
    rcases hwhole with rfl | rfl
    · cases hc
    · obtain rfl : c = '.' := by simpa using hc
      exact absurd hwild (by decide)
  | literal hrest _ _ hnot => exact hnot ((isPattern_leaves_iff hrest).mp hpattern)
  | @matching rest query path hrest hwildcard hquery hpath =>
    obtain ⟨c, hc, hwild⟩ := hwildcard
    have hshed := Glob.shed_of_search htree hne (hinside.relative rest hrest) hc hwild
      (fun patterns hread => hinside.stays hrest hread) hquery
      ((Glob.Query.mem_search htree).mpr hpath)
    unfold Plain at hcurrent
    rw [← hhead] at hcurrent
    exact hcurrent hshed.2

section compared
variable {size : Nat} (halike : fs.Alike (size + 1) d₁ d₂)
include halike

/-- If the entries of a list lead to files in one directory, they do so in the other one. -/
theorem exists_listed {entries : List String} (h : Comparable size d₁ d₂ entries)
    {set result : List Path.Components} (hlisted : listed fs d₁ entries set = .ok result)
    (other : List Path.Components) : ∃ found, listed fs d₂ entries other = .ok found := by
  induction entries generalizing set other with
  | nil => exact ⟨other, rfl⟩
  | cons entry rest ih =>
    obtain ⟨paths, hpaths, hne, hrest⟩ := listed_cons_eq_ok_iff.mp hlisted
    have hinside := h.inside entry List.mem_cons_self
    obtain ⟨paths', hpaths'⟩ :=
      resolve_of_wellWritten (wellWritten_of_alike halike hinside (wellWritten_of_resolve hpaths))
    obtain ⟨relative, hrelative⟩ := List.exists_mem_of_ne_nil _ hne
    obtain ⟨content, hselects⟩ := (mem_selected_iff halike.grounded.tree hpaths).mp hrelative
    have hsame := (hselects.beside halike hinside (h.plain entry List.mem_cons_self)).1
    have hne' := List.ne_nil_of_mem
      ((mem_selected_iff halike.grounded.tree hpaths').mpr ⟨content, hsame⟩)
    obtain ⟨found, hfound⟩ := ih ⟨fun e he => h.inside e (List.mem_cons_of_mem _ he),
      fun e he => h.plain e (List.mem_cons_of_mem _ he)⟩ hrest _
    exact ⟨found, listed_cons_eq_ok_iff.mpr ⟨paths', hpaths', hne', hfound⟩⟩

variable {m : Manifest} (hcompare : ∀ entries, Lists m entries → Comparable size d₁ d₂ entries)
include hcompare

/-- The same files belong to a package in both directories. -/
theorem Belongs.beside {relative : Path.Components} {content : Bytes}
    (h : Belongs fs d₁ m relative content) :
    Belongs fs d₂ m relative content ∧
      ∃ names : List String, relative = names.map .name ∧ ∀ name ∈ names, IsName name := by
  cases h with
  | selected hlists hentry hselects =>
    have hentries := hcompare _ hlists
    obtain ⟨hsame, hnames⟩ := hselects.beside halike (hentries.inside _ hentry)
      (hentries.plain _ hentry)
    exact ⟨.selected hlists hentry hsame, hnames⟩
  | @standing location name lead content hdirectory hfile hlead hstart =>
    obtain ⟨home₂, hhome₂⟩ := halike.second
    have hname := (halike.grounded.tree.name _ _ _ hfile).1
    obtain ⟨place, hplace, hsame⟩ := (halike.twins.stands_iff [] name (.file content) nofun hname
      nofun).mp ⟨location, behind_home hdirectory, hfile⟩
    rw [hplace.unique (behind_home hhome₂)] at hsame
    exact ⟨.standing hhome₂ hsame hlead hstart, [name], rfl,
      fun other hother => List.mem_singleton.mp hother ▸ hname⟩

/-- The selection finds the same files in both directories. -/
theorem files_of_alike {result : List Path.Components} (h : files fs d₁ m = .ok result) :
    files fs d₂ m = .ok result := by
  obtain ⟨entries, set, location, hlists, hset, hfind, -⟩ := files_eq_ok_iff.mp h
  obtain ⟨home₂, hhome₂⟩ := halike.second
  obtain ⟨found, hfound⟩ := exists_listed halike (hcompare entries hlists) hset []
  have hother := files_eq_ok_iff.mpr ⟨entries, found, home₂, hlists, hfound, hhome₂, rfl⟩
  have hback : ∀ entries, Lists m entries → Comparable size d₂ d₁ entries :=
    fun entries hlists => (hcompare entries hlists).symm
  rw [hother]
  refine congrArg _ (eq_of_ascending (ascending_files hother) (ascending_files h) fun p => ?_)
  rw [mem_files_iff halike.grounded.tree hother, mem_files_iff halike.grounded.tree h]
  refine and_congr_right fun _ => exists_congr fun content => ⟨fun hbelongs => ?_, fun hbelongs => ?_⟩
  · exact (hbelongs.beside halike.symm hback).1
  · exact (hbelongs.beside halike hcompare).1

end compared

end Selection

namespace Tarball

open Selection FileSystem

variable {fs : FileSystem} {d₁ d₂ : Path} {m : Manifest}

/-- The files are read alike through both paths. -/
theorem addFiles_of_readFile {files : List Path.Components}
    {result : List (String × Bytes) × Bytes} (h : addFiles fs d₁ files = .ok result)
    (hread : ∀ file ∈ files, ∀ content, fs.readFile (d₁.join ⟨Path.slashed file⟩) = .ok content →
      fs.readFile (d₂.join ⟨Path.slashed file⟩) = .ok content) :
    addFiles fs d₂ files = .ok result := by
  induction files generalizing result with
  | nil => exact h
  | cons file files ih =>
    obtain ⟨entries, archive⟩ := result
    obtain ⟨content, first, others, tail, hcontent, hfirst, hrest, rfl, rfl⟩ := addFiles_cons_eq_ok h
    unfold addFiles
    rw [hread file List.mem_cons_self content hcontent]
    dsimp only [bind, Except.bind, pure, Except.pure]
    rw [hfirst, ih hrest fun other hother => hread other (List.mem_cons_of_mem _ hother)]
    rfl

/-- The directory counts only for the files that are found and for what is read of them. -/
theorem pack_eq_of_addFiles {files : List Path.Components}
    (h₁ : Selection.files fs d₁ m = .ok files) (h₂ : Selection.files fs d₂ m = .ok files)
    (h : addFiles fs d₁ files = addFiles fs d₂ files) : pack fs d₁ m = pack fs d₂ m := by
  unfold pack
  rw [h₁, h₂]
  dsimp only [bind, Except.bind]
  rw [h]

theorem pack_of_alike {size : Nat} (halike : fs.Alike (size + 1) d₁ d₂)
    (hcompare : ∀ entries, Lists m entries → Comparable size d₁ d₂ entries) {t : Tarball}
    (h : pack fs d₁ m = .ok t) : pack fs d₂ m = .ok t := by
  obtain ⟨files, entries, archive, hfiles, hentries, -, -⟩ := exists_of_pack h
  have hfiles₂ := files_of_alike halike hcompare hfiles
  obtain ⟨home₁, hhome₁⟩ := halike.first
  obtain ⟨home₂, hhome₂⟩ := halike.second
  have hread : ∀ file ∈ files, ∀ content,
      fs.readFile (d₁.join ⟨Path.slashed file⟩) = .ok content →
      fs.readFile (d₂.join ⟨Path.slashed file⟩) = .ok content := by
    intro file hfile content hread
    obtain ⟨-, _, hbelongs⟩ := (mem_files_iff halike.grounded.tree hfiles).mp hfile
    obtain ⟨-, names, rfl, hnames⟩ := hbelongs.beside halike hcompare
    have hbeside : Path.Beside d₁ d₂ (size + 1) names
        (d₁.join ⟨Path.slashed (names.map .name)⟩) (d₂.join ⟨Path.slashed (names.map .name)⟩) :=
      ⟨Path.extends_join_slashed (leads_of_find hhome₁).1 hnames,
        Path.extends_join_slashed (leads_of_find hhome₂).1 hnames,
        fun name hname => ⟨(hnames name hname).2.1, (hnames name hname).2.2.2⟩,
        by rw [Path.blanks_of_isName hnames]; exact Nat.zero_le _⟩
    obtain ⟨location, hfind⟩ := readFile_eq_ok_iff.mp hread
    exact readFile_eq_ok_iff.mpr (halike.find hbeside hfind)
  have hentries₂ := addFiles_of_readFile hentries hread
  rw [← pack_eq_of_addFiles hfiles hfiles₂ (hentries.trans hentries₂.symm)]
  exact h

/-- Whether a manifest lists a pattern. -/
def ListsPattern (m : Manifest) : Prop :=
  ∃ entries, Lists m entries ∧ ∃ entry ∈ entries, IsPattern entry

/-- Directories that hold the same are packed alike, however their paths are written: packing one of
    them succeeds exactly if packing the other one does, and with the same result. If a pattern is
    listed, neither path may begin with a `.`; a directory whose path does is not packed then. -/
theorem packed_alike {size : Nat} (halike : fs.Alike (size + 1) d₁ d₂)
    (hinside : ∀ entries, Lists m entries → ∀ entry ∈ entries, Inside size entry) :
    ((ListsPattern m → Plain d₁ ∧ Plain d₂) → ∀ t, pack fs d₁ m = .ok t ↔ pack fs d₂ m = .ok t) ∧
      (ListsPattern m → ¬ Plain d₁ → ∀ t, pack fs d₁ m ≠ .ok t) := by
  refine ⟨fun hplain t => ?_, fun hpattern hcurrent t h => ?_⟩
  · have hcompare : ∀ entries, Lists m entries → Comparable size d₁ d₂ entries :=
      fun entries hlists => ⟨hinside entries hlists,
        fun entry hentry hpattern => hplain ⟨entries, hlists, entry, hentry, hpattern⟩⟩
    exact ⟨pack_of_alike halike hcompare,
      pack_of_alike halike.symm fun entries hlists => (hcompare entries hlists).symm⟩
  · obtain ⟨entries, hlists, entry, hentry, hpattern⟩ := hpattern
    obtain ⟨files, -, -, hfiles, -⟩ := exists_of_pack h
    have htree := halike.grounded.tree
    obtain ⟨relative, content, hselects⟩ := selects_of_files htree hfiles hlists entry hentry
    exact not_selects_of_current htree (text_ne_empty_of_files hfiles) hcurrent
      (hinside entries hlists entry hentry) hpattern relative content hselects

/-- A directory and a copy of it with brackets in its name. -/
def copiedFiles : FileSystem where
  entries := [(["p"], .directory), (["p", "a.js"], .file [0x61]), (["q[1]"], .directory),
    (["q[1]", "a.js"], .file [0x61])]
  workingDirectory := []

/-- Short paths to the directory or to its copy lead to twins. -/
theorem alike_copiedFiles {d₁ d₂ : Path} (home₁ home₂ : Location)
    (hhome₁ : copiedFiles.find true d₁ = .ok (home₁, .directory))
    (hhome₂ : copiedFiles.find true d₂ = .ok (home₂, .directory))
    (h₁ : home₁ = ["p"] ∨ home₁ = ["q[1]"]) (h₂ : home₂ = ["p"] ∨ home₂ = ["q[1]"])
    (hsize₁ : d₁.text.utf8ByteSize ≤ 10) (hsize₂ : d₂.text.utf8ByteSize ≤ 10) :
    copiedFiles.Alike 5 d₁ d₂ := by
  have hfs : copiedFiles.Grounded := ⟨by decide +kernel, by decide⟩
  have hlinks : ∀ home names target, copiedFiles.get? (home ++ names) ≠ some (.link target) :=
    fun home names => get?_ne_link hfs.tree (by decide) (home ++ names)
  have hcopy : ∀ names, copiedFiles.get? (["p"] ++ names) = copiedFiles.get? (["q[1]"] ++ names) := by
    intro names
    simp [FileSystem.get?, copiedFiles, List.lookup_cons]
  have hlimit : pathLengthLimit = 4096 := rfl
  have hentries : ∀ entry ∈ copiedFiles.entries, Text.octets entry.1 ≤ 10 := by decide
  refine ⟨hfs, twins_of_entries hfs hhome₁ hhome₂ (hlinks home₁) fun names => ?_, ⟨_, hhome₁⟩,
    ⟨_, hhome₂⟩, ?_, ?_⟩
  · rcases h₁ with rfl | rfl <;> rcases h₂ with rfl | rfl
    · rfl
    · exact hcopy names
    · exact (hcopy names).symm
    · rfl
  · refine roomy_of_linkless hfs hhome₁ (hlinks home₁) (by omega) fun entry hentry => ?_
    have := hentries entry hentry
    omega
  · refine roomy_of_linkless hfs hhome₂ (hlinks home₂) (by omega) fun entry hentry => ?_
    have := hentries entry hentry
    omega

theorem exists_pack_copiedFiles :
    ∃ t, pack copiedFiles ⟨"p"⟩ (sampleManifest ["*.js"]) = .ok t := by
  have hok : (pack copiedFiles ⟨"p"⟩ (sampleManifest ["*.js"])).isOk = true := by decide +kernel
  cases h : pack copiedFiles ⟨"p"⟩ (sampleManifest ["*.js"]) with
  | ok t => exact ⟨t, rfl⟩
  | error failure =>
    rw [h] at hok
    cases hok

theorem packed_alike_of_copiedFiles :
    (∃ t, pack copiedFiles ⟨"p"⟩ (sampleManifest ["*.js"]) = .ok t ∧
      pack copiedFiles ⟨"q[1]//"⟩ (sampleManifest ["*.js"]) = .ok t) ∧
    ∀ t, pack copiedFiles ⟨"./p"⟩ (sampleManifest ["*.js"]) ≠ .ok t := by
  have hfiles : Lists (sampleManifest ["*.js"]) ["*.js"] := .given (by decide +kernel)
  have hinside : ∀ entries, Lists (sampleManifest ["*.js"]) entries →
      ∀ entry ∈ entries, Inside 4 entry := by
    intro entries hlists
    rw [hfiles.unique hlists]
    decide +kernel
  have hpattern : ListsPattern (sampleManifest ["*.js"]) :=
    ⟨_, hfiles, "*.js", List.mem_cons_self, '*', by decide, .inl rfl⟩
  have hcopy : copiedFiles.Alike 5 ⟨"p"⟩ ⟨"q[1]//"⟩ :=
    alike_copiedFiles ["p"] ["q[1]"] (by decide +kernel) (by decide +kernel) (.inl rfl) (.inr rfl)
      (by decide) (by decide)
  have hsame : copiedFiles.Alike 5 ⟨"./p"⟩ ⟨"p"⟩ :=
    alike_copiedFiles ["p"] ["p"] (by decide +kernel) (by decide +kernel) (.inl rfl) (.inl rfl)
      (by decide) (by decide)
  obtain ⟨t, ht⟩ := exists_pack_copiedFiles
  have hplain : Plain ⟨"p"⟩ ∧ Plain ⟨"q[1]//"⟩ := by decide +kernel
  exact ⟨⟨t, ht, ((packed_alike hcopy hinside).1 (fun _ => hplain) t).mp ht⟩,
    (packed_alike hsame hinside).2 hpattern (by decide +kernel)⟩

/-- One directory under two paths: it is packed under the first one, but not under the second one.
    -/
theorem dotted_not_alike : ∃ home,
    copiedFiles.find true ⟨"p"⟩ = .ok (home, .directory) ∧
    copiedFiles.find true ⟨"./p"⟩ = .ok (home, .directory) ∧
    (∃ t, pack copiedFiles ⟨"p"⟩ (sampleManifest ["*.js"]) = .ok t) ∧
    pack copiedFiles ⟨"./p"⟩ (sampleManifest ["*.js"]) =
      .error (.validation (.missingArtifact "*.js" ⟨"./p"⟩)) :=
  ⟨["p"], by decide +kernel, by decide +kernel, exists_pack_copiedFiles, by decide +kernel⟩

end Tarball

end PackageRelease
