import PackageRelease.Proofs.Glob.Reading
import PackageRelease.Proofs.Glob.Searching
import PackageRelease.Proofs.Package.Twins

/-! # Searching through the directory

  The search for the pattern of an entry first goes through the directory that stands in front of
  it. The key idea: every text of the directory stands for itself only, and the directory exists, so
  there is one way through it and the search comes out at a path that spells the directory anew.
  That path has lost nothing but a `.` at its beginning.
-/

namespace PackageRelease

namespace Glob

variable {fs : FileSystem} {directoriesOnly : Bool}

/-! ### Patterns without a meaning -/

theorem accepts_verbatim_iff {cs name : List Char} :
    (verbatim cs).accepts name = true ↔ name = cs := by
  unfold verbatim
  induction cs generalizing name with
  | nil => simp [Pattern.accepts]
  | cons c cs ih =>
    rw [List.map_cons]
    cases name with
    | nil => split <;> simp [Pattern.accepts]
    | cons d name =>
      rw [List.cons.injEq, ← ih]
      by_cases hc : IsSpecial c
      · rw [if_pos hc, Pattern.accepts]
        simp [inRanges]
      · rw [if_neg hc, Pattern.accepts]
        simp

theorem isRecursive_verbatim (cs : List Char) : (verbatim cs).isRecursive = false := by
  unfold verbatim Pattern.isRecursive
  rw [Bool.eq_false_iff]
  intro h
  obtain ⟨c, -, hc⟩ := List.mem_map.mp (List.contains_iff_mem.mp h)
  split at hc <;> cases hc

/-- A text without special characters is looked up, any other one is searched for. -/
theorem literal?_verbatim (cs : List Char) :
    (verbatim cs).literal? = some cs ∧ (∀ c ∈ cs, ¬ IsSpecial c) ∨
      (verbatim cs).literal? = none ∧ ∃ c ∈ cs, IsSpecial c := by
  unfold verbatim
  induction cs with
  | nil => exact .inl ⟨rfl, nofun⟩
  | cons c cs ih =>
    rw [List.map_cons]
    by_cases hc : IsSpecial c
    · rw [if_pos hc]
      exact .inr ⟨rfl, c, List.mem_cons_self, hc⟩
    · rw [if_neg hc, Pattern.literal?]
      rcases ih with ⟨hliteral, hnone⟩ | ⟨hliteral, d, hd, hspecial⟩
      · left
        rw [hliteral]
        exact ⟨rfl, fun d hd => (List.mem_cons.mp hd).elim (fun h => h ▸ hc) (hnone d)⟩
      · right
        rw [hliteral]
        exact ⟨rfl, d, List.mem_cons_of_mem c hd, hspecial⟩

theorem isName_of_isSpecial {name : String} (hslash : '/' ∉ name.toList)
    (h : ∃ c ∈ name.toList, IsSpecial c) : IsName name := by
  obtain ⟨c, hc, hspecial⟩ := h
  have hdot : ¬ IsSpecial '.' := by decide
  refine ⟨?_, hslash, ?_, ?_⟩ <;> rintro rfl
  · cases hc
  · obtain rfl : c = '.' := by simpa using hc
    exact hdot hspecial
  · obtain rfl : c = '.' := by simpa using hc
    exact hdot hspecial

/-- The text of a directory leads to that name only, if it is there. -/
theorem next_verbatim_iff {here path : Path} {name : String} (hslash : '/' ∉ name.toList)
    (hhere : fs.isDirectory here = true) (hthere : fs.isPresent (childPath here name) = true)
    (hlisted : IsName name → Listed fs here name) :
    Next fs here (verbatim name.toList) path ↔ path = childPath here name := by
  rcases literal?_verbatim name.toList with ⟨hliteral, -⟩ | ⟨hliteral, hspecial⟩
  · rw [next_iff_of_literal hliteral]
    exact and_iff_left ⟨fun _ => hhere, fun _ => .inl hthere⟩
  · have hname := isName_of_isSpecial hslash hspecial
    constructor
    · intro h
      cases h with
      | named h =>
        rw [hliteral] at h
        cases h
      | dots h =>
        rw [hliteral] at h
        cases h
      | listed _ _ _ haccepts =>
        rw [String.toList_injective (accepts_verbatim_iff.mp haccepts)]
      | special _ _ _ hdots haccepts =>
        -- neither of the two names has a special character
        rw [String.toList_injective (accepts_verbatim_iff.mp haccepts)] at hdots
        exact absurd hdots (not_or.mpr ⟨hname.2.2.1, hname.2.2.2⟩)
    · rintro rfl
      exact .listed hliteral (isRecursive_verbatim _) (hlisted hname) (accepts_verbatim_iff.mpr rfl)

/-! ### The front of a directory -/

/-- A name behind which something is found stands in the directory. -/
theorem listed_of_find {p q : Path} {place goal : Location} {entry : Entry} {name : String}
    (hp : fs.find true p = .ok (place, .directory)) (hq : fs.find true q = .ok (goal, entry))
    (habsolute : q.isAbsolute = p.isAbsolute)
    (hsteps : q.components.steps = p.components.steps ++ [name]) (hname : IsName name) :
    Listed fs p name := by
  have hplace := (FileSystem.leads_of_find hp).2.2
  have hgoal := Selection.leads_steps_components hq
  have horigin : q.origin fs.workingDirectory = p.origin fs.workingDirectory := by
    unfold Path.origin
    rw [habsolute]
  rw [hsteps, horigin] at hgoal
  obtain ⟨left, hback, -⟩ := (Selection.leads_steps_components hp).append hplace
  obtain ⟨found, hfound⟩ := Option.isSome_iff_exists.mp
    ((hback _ _ hgoal).isSome_get? hname.2.2.1 hname.2.2.2)
  exact ⟨place, found, hp, hfound⟩

section front
variable {d p : Path} {home : Location} (hfs : fs.Grounded)
  (hhome : fs.find true d = .ok (home, .directory))

include hfs hhome in
/-- The front of a directory is a directory. -/
theorem find_front (more : List String) (hne : p.text ≠ "")
    (hsize : p.text.utf8ByteSize < FileSystem.pathLengthLimit)
    (habsolute : p.isAbsolute = d.isAbsolute)
    (hsteps : d.components.steps = p.components.steps ++ more) :
    ∃ place, fs.find true p = .ok (place, .directory) := by
  have hleads := Selection.leads_steps_components hhome
  have horigin : p.origin fs.workingDirectory = d.origin fs.workingDirectory := by
    unfold Path.origin
    rw [habsolute]
  rw [hsteps, ← horigin] at hleads
  obtain ⟨place, left, -, hplace, hmore⟩ := hleads.cut
  have hdirectory : fs.get? place = some .directory := by
    cases more with
    | nil =>
      rw [List.append_nil] at hleads
      rw [hplace.unique hleads]
      exact (FileSystem.leads_of_find hhome).2.2
    | cons name more =>
      exact hplace.directory_of_append hfs.tree (FileSystem.directory_start hfs p) hleads
        (List.cons_ne_nil _ _)
  refine ⟨place, FileSystem.find_of_leads hne hsize (FileSystem.Leads.dotted ?_ (.inr hdirectory))
    hdirectory⟩
  rw [Path.filter_steps]
  exact hplace

/-- A path that names something at its beginning goes on with a name as any path does. -/
theorem childPath_eq_join (hplain : p.components.head? ≠ some .current) (name : String) :
    childPath p name = p.join ⟨name⟩ := by
  unfold childPath
  refine if_neg fun hcurrent => hplain ?_
  rw [hcurrent]
  rfl

/-- A text of the directory takes the search to that name, if it leads to a directory. -/
theorem finds_verbatim_iff {q : Path} {place next : Location} {name : String}
    (hslash : '/' ∉ name.toList) (hchild : childPath p name = q)
    (hp : fs.find true p = .ok (place, .directory)) (hq : fs.find true q = .ok (next, .directory))
    (habsolute : q.isAbsolute = p.isAbsolute)
    (hsteps : q.components.steps = p.components.steps ++ Path.named [name])
    {patterns : List Pattern} {steps : Nat} {goal : Path} :
    Finds fs directoriesOnly (steps + 1) (verbatim name.toList :: patterns) p goal ↔
      Finds fs directoriesOnly steps patterns q goal := by
  subst hchild
  have hnext : ∀ path, Next fs p (verbatim name.toList) path ↔ path = childPath p name := by
    intro path
    refine next_verbatim_iff hslash (FileSystem.isDirectory_iff.mpr ⟨place, hp⟩)
      (FileSystem.isPresent_iff.mpr ⟨_, hq⟩) fun hname => listed_of_find hp hq habsolute ?_ hname
    rw [hsteps, Path.named_of_isName fun s hs => List.mem_singleton.mp hs ▸ hname]
  rw [finds_iff_of_simple (isRecursive_verbatim _)]
  simp only [hnext, exists_eq_left]

include hfs hhome in
/-- There is one way through the texts of a directory. The induction is on the texts that are left,
    and the path so far is always the front of the directory. -/
theorem finds_through_iff {names : List String} {patterns : List Pattern} {steps : Nat} {goal : Path}
    (hslash : ∀ s ∈ names, '/' ∉ s.toList) (hne : p.text ≠ "")
    (habsolute : p.isAbsolute = d.isAbsolute)
    (hsteps : d.components.steps = p.components.steps ++ Path.named names)
    (hplain : p.components.head? ≠ some .current)
    (hsize : p.text.utf8ByteSize + Text.octets names < FileSystem.pathLengthLimit) :
    Finds fs directoriesOnly (steps + names.length)
        (names.map (fun s => verbatim s.toList) ++ patterns) p goal ↔
      Finds fs directoriesOnly steps patterns (Path.extend p names) goal := by
  induction names generalizing p with
  | nil => exact Iff.rfl
  | cons name names ih =>
    have hname := hslash name List.mem_cons_self
    have hrelative := Path.isAbsolute_of_notMem hname
    rw [Text.octets_cons] at hsize
    rw [← List.singleton_append, Path.named_append, ← List.append_assoc] at hsteps
    -- the path with the next text is a front of the directory too
    have hjoined : (p.join ⟨name⟩).components.steps = p.components.steps ++ Path.named [name] :=
      Path.steps_join_piece hne hname
    have hjoinsize : (p.join ⟨name⟩).text.utf8ByteSize ≤
        p.text.utf8ByteSize + (name.utf8ByteSize + 1) := Path.size_join_le p hrelative
    obtain ⟨place, hhere⟩ := find_front hfs hhome _ hne (by omega) habsolute
      (hsteps.trans (List.append_assoc _ _ _))
    have habsolute' : (p.join ⟨name⟩).isAbsolute = d.isAbsolute :=
      (Path.isAbsolute_join hne hrelative).trans habsolute
    have hne' := Path.text_join_ne hne hrelative
    obtain ⟨next, hthere⟩ := find_front hfs hhome (Path.named names) hne' (by omega) habsolute'
      (by rw [hjoined]; exact hsteps)
    rw [List.map_cons, List.cons_append, List.length_cons, ← Nat.add_assoc,
      finds_verbatim_iff hname (childPath_eq_join hplain name) hhere hthere
        (Path.isAbsolute_join hne hrelative) hjoined]
    refine ih (fun s hs => hslash s (List.mem_cons_of_mem _ hs)) hne' habsolute' ?_ ?_ (by omega)
    · rw [hjoined]
      exact hsteps
    · rw [Path.head?_components_join hne hname]
      exact hplain

end front

/-! ### The whole directory -/

/-- The path to which the search through a directory leads. -/
def base (d : Path) : Path :=
  if d.isAbsolute then Path.extend ⟨"/"⟩ (texts d)
  else match texts d with
    | [] => d
    | first :: others => Path.extend ⟨first⟩ others

section whole_directory
variable {d : Path}

theorem steps_texts (d : Path) : d.components.steps = Path.named (texts d) := by
  rw [Path.steps_components, pieces_eq_texts, Path.filter_eq_named]

theorem head?_components_of_piece {s : String} (hslash : '/' ∉ s.toList) (hempty : s ≠ "")
    (hdot : s ≠ ".") : (⟨s⟩ : Path).components.head? ≠ some .current := by
  rcases Path.components_of_relative (Path.isAbsolute_of_notMem hslash) with
    ⟨_, hfirst, -⟩ | ⟨-, hcomponents⟩
  · rw [Path.pieces_of_notMem hslash, List.filter_cons_of_pos (by simpa using hempty)] at hfirst
    cases hfirst
    exact absurd rfl hdot
  · rw [hcomponents]
    intro hhead
    obtain ⟨piece, -, hpiece⟩ := List.mem_filterMap.mp (List.mem_of_head? hhead)
    unfold Path.Component.ofPiece? at hpiece
    split at hpiece
    · cases hpiece
    · split at hpiece <;> cases hpiece

/-- A directory that does not begin with a `.` begins with its first text. -/
theorem head?_components_of_relative (hrelative : d.isAbsolute = false)
    (hplain : d.components.head? ≠ some .current) {first : String} {others : List String}
    (htexts : texts d = first :: others) (hempty : first ≠ "") :
    (⟨first⟩ : Path).components.head? ≠ some .current := by
  have hslash : '/' ∉ first.toList := slash_notMem_texts (d := d) (by rw [htexts]; simp)
  have hpieces : d.pieces = first :: others.filter (· ≠ "") := by
    rw [pieces_eq_texts, htexts, List.filter_cons_of_pos (by simpa using hempty)]
  refine head?_components_of_piece hslash hempty ?_
  rintro rfl
  rcases Path.components_of_relative hrelative with ⟨_, -, hcomponents⟩ | ⟨hdot, -⟩
  · rw [hcomponents] at hplain
    exact hplain rfl
  · rw [hpieces] at hdot
    exact hdot rfl

/-- The path to which the search leads asks for the same names as the directory. -/
theorem extends_base (hd : d.text ≠ "") : Path.Extends d [] (base d) := by
  have hsum := octets_texts_le d
  have hpieces := pieces_eq_texts d
  have hnone : Text.octets [] = 0 := rfl
  have hslash : ∀ s ∈ texts d, '/' ∉ s.toList := fun s hs => slash_notMem_texts hs
  unfold base
  cases habsolute : d.isAbsolute with
  | true =>
    rw [habsolute, if_pos rfl] at hsum
    rw [if_pos rfl]
    have hroot : (⟨"/"⟩ : Path).isAbsolute = true := rfl
    have hnothing : (⟨"/"⟩ : Path).pieces = [] := rfl
    have hone : (⟨"/"⟩ : Path).text.utf8ByteSize = 1 := rfl
    have hextends := (Path.extends_self (d := ⟨"/"⟩) (by decide)).extend hslash
    have hsize := Path.size_extend_le ⟨"/"⟩ hslash
    refine ⟨hextends.text_ne, hextends.isAbsolute_eq.trans (hroot.trans habsolute.symm), ?_, nofun, ?_⟩
    · rw [hextends.pieces_eq, hnothing, List.nil_append, List.nil_append, hpieces,
        List.filter_nil, List.append_nil]
    · rw [hnone]
      omega
  | false =>
    rw [habsolute, if_neg Bool.false_ne_true] at hsum
    rw [if_neg Bool.false_ne_true]
    -- the search starts at the first text, which is not empty
    obtain ⟨first, others, htexts, hempty⟩ := texts_of_relative hd habsolute
    rw [htexts] at hslash hsum hpieces
    rw [Text.octets_cons] at hsum
    rw [htexts]
    have hfirst := hslash first List.mem_cons_self
    have hrest : ∀ s ∈ others, '/' ∉ s.toList := fun s hs => hslash s (List.mem_cons_of_mem _ hs)
    have hextends := (Path.extends_self (d := ⟨first⟩) hempty).extend hrest
    have hsize := Path.size_extend_le ⟨first⟩ hrest
    have hone : (⟨first⟩ : Path).text.utf8ByteSize = first.utf8ByteSize := rfl
    refine ⟨hextends.text_ne, hextends.isAbsolute_eq.trans
      ((Path.isAbsolute_of_notMem hfirst).trans habsolute.symm), ?_, nofun, ?_⟩
    · rw [hextends.pieces_eq, Path.pieces_of_notMem hfirst, hpieces, List.nil_append,
        List.filter_nil, List.append_nil, ← List.filter_append, List.singleton_append]
    · rw [hnone]
      dsimp only at hsize ⊢
      omega

/-- The search for an entry goes through the directory first, unless the directory begins with
    a `.`. -/
theorem finds_base_iff (hfs : fs.Grounded) {home : Location}
    (hhome : fs.find true d = .ok (home, .directory))
    (hplain : d.components.head? ≠ some .current)
    (hroom : d.text.utf8ByteSize + 1 < FileSystem.pathLengthLimit)
    {patterns : List Pattern} {steps : Nat} {goal : Path} :
    Finds fs directoriesOnly (steps + (texts d).length)
        ((texts d).map (fun s => verbatim s.toList) ++ patterns)
        ⟨if d.isAbsolute then "/" else "."⟩ goal ↔
      Finds fs directoriesOnly steps patterns (base d) goal := by
  have hd := (FileSystem.leads_of_find hhome).1
  have hslash : ∀ s ∈ texts d, '/' ∉ s.toList := fun s hs => slash_notMem_texts hs
  have hsum := octets_texts_le d
  have hsteps := steps_texts d
  unfold base
  cases habsolute : d.isAbsolute with
  | true =>
    rw [habsolute, if_pos rfl] at hsum
    rw [if_pos rfl, if_pos rfl]
    have hroot : (⟨"/"⟩ : Path).text.utf8ByteSize = 1 := rfl
    exact finds_through_iff hfs hhome hslash (by decide) habsolute.symm hsteps (by decide) (by omega)
  | false =>
    rw [habsolute, if_neg Bool.false_ne_true] at hsum
    rw [if_neg Bool.false_ne_true, if_neg Bool.false_ne_true]
    obtain ⟨first, others, htexts, hempty⟩ := texts_of_relative hd habsolute
    have hhead := head?_components_of_relative habsolute hplain htexts hempty
    rw [htexts] at hslash hsum hsteps
    rw [Text.octets_cons] at hsum
    rw [← List.singleton_append, Path.named_append] at hsteps
    rw [htexts]
    have hfirst := hslash first List.mem_cons_self
    have hrelative := Path.isAbsolute_of_notMem hfirst
    have hsize : (⟨first⟩ : Path).text.utf8ByteSize = first.utf8ByteSize := rfl
    have hfirststeps : (⟨first⟩ : Path).components.steps = Path.named [first] :=
      Path.steps_piece hfirst
    -- the first text is looked up where the search starts
    obtain ⟨place, hhere⟩ := find_front hfs hhome (p := ⟨"."⟩) d.components.steps (by decide)
      (by decide) habsolute.symm rfl
    obtain ⟨next, hthere⟩ := find_front hfs hhome (p := ⟨first⟩) _ hempty (by omega)
      (hrelative.trans habsolute.symm) (hsteps.trans (by rw [hfirststeps]))
    have hchild : childPath ⟨"."⟩ first = ⟨first⟩ := rfl
    rw [List.map_cons, List.cons_append, List.length_cons, ← Nat.add_assoc,
      finds_verbatim_iff hfirst hchild hhere hthere hrelative hfirststeps]
    exact finds_through_iff hfs hhome (fun s hs => hslash s (List.mem_cons_of_mem _ hs)) hempty
      (hrelative.trans habsolute.symm) (hsteps.trans (by rw [hfirststeps])) hhead (by omega)

/-- What is found for an entry is found from there, with steps for its own patterns. -/
theorem mem_search_iff (hfs : fs.Grounded) {home : Location}
    (hhome : fs.find true d = .ok (home, .directory))
    (hplain : d.components.head? ≠ some .current)
    (hroom : d.text.utf8ByteSize + 1 < FileSystem.pathLengthLimit) {rest : String}
    (hrest : rest ≠ "") (hrelative : (⟨rest⟩ : Path).isAbsolute = false) {goal : Path} :
    (∃ query, Query.parse (Path.join ⟨escape d.text⟩ ⟨rest⟩).text = .ok query ∧
        goal ∈ query.search fs) ↔
      ∃ patterns, Reads rest patterns ∧
        Finds fs (⟨rest⟩ : Path).endsInSlash
          (patterns.length + (FileSystem.maxLinks + 1) * (fs.entries.length + 2)) patterns (base d)
          goal := by
  have hd := (FileSystem.leads_of_find hhome).1
  simp only [parse_pattern_eq_ok_iff hd hrelative hrest]
  have hsteps : ∀ patterns : List Pattern,
      ((texts d).map (fun s => verbatim s.toList) ++ patterns).length +
          (FileSystem.maxLinks + 1) * (fs.entries.length + 2) =
        patterns.length + (FileSystem.maxLinks + 1) * (fs.entries.length + 2) +
          (texts d).length := by
    intro patterns
    rw [List.length_append, List.length_map]
    omega
  constructor
  · rintro ⟨query, ⟨patterns, hread, rfl⟩, hmem⟩
    unfold Query.search maxSteps at hmem
    rw [mem_expand_iff hfs.tree, hsteps, finds_base_iff hfs hhome hplain hroom] at hmem
    exact ⟨patterns, hread, hmem.2⟩
  · rintro ⟨patterns, hread, hfinds⟩
    refine ⟨_, ⟨patterns, hread, rfl⟩, ?_⟩
    unfold Query.search maxSteps
    rw [mem_expand_iff hfs.tree, hsteps, finds_base_iff hfs hhome hplain hroom]
    exact ⟨List.append_ne_nil_of_right_ne_nil _ (hread.ne_nil hrest hrelative), hfinds⟩

end whole_directory

end Glob

end PackageRelease
