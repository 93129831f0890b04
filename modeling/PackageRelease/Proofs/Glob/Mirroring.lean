import PackageRelease.Proofs.Glob.Descending

/-! # The same search in twins

  Two directories that hold the same are searched with the same result. The key idea: the searches
  go side by side. Each step adds the same piece to the paths in both directories, and what the step
  asks of one path is asked of the other one with the same answer, because both name the same behind
  twins. Only a link that leads nowhere may be in one of them alone; nothing comes of it.
-/

namespace PackageRelease

namespace Glob

/-- Whether a pattern leads to `..`, or to `.` beside it. -/
def Pattern.Ascends (pattern : Pattern) : Prop :=
  pattern.startsWithDot = true ∧ pattern.accepts "..".toList = true

instance (pattern : Pattern) : Decidable pattern.Ascends :=
  inferInstanceAs (Decidable (_ ∧ _))

/-- Whether a pattern stays below the directory in which it is searched for. -/
structure Pattern.Stays (pattern : Pattern) : Prop where
  /-- It does not lead upwards. -/
  not_ascends : ¬ pattern.Ascends
  /-- It is one of a name. -/
  slash_notMem : .char '/' ∉ pattern

/-! ### Where patterns lead -/

theorem Pattern.Stays.slash_notMem_literal {pattern : Pattern} (h : pattern.Stays) {name : String}
    (hliteral : pattern.literal? = some name.toList) : '/' ∉ name.toList := by
  intro hslash
  have hmem : Token.char '/' ∈ name.toList.map Token.char := List.mem_map.mpr ⟨_, hslash, rfl⟩
  exact h.slash_notMem (eq_map_of_literal hliteral ▸ hmem)

theorem Pattern.Stays.ne_parent {pattern : Pattern} (h : pattern.Stays) {name : String}
    (hliteral : pattern.literal? = some name.toList) : name ≠ ".." := by
  rintro rfl
  refine h.not_ascends ?_
  rw [eq_map_of_literal hliteral]
  exact ⟨rfl, by simp [Pattern.accepts]⟩

/-- A pattern with a wildcard that accepts nothing accepts one character too. -/
theorem accepts_singleton {pattern : Pattern} (hliteral : pattern.literal? = none)
    (h : pattern.accepts [] = true) (c : Char) : pattern.accepts [c] = true := by
  cases pattern with
  | nil => cases hliteral
  | cons token rest =>
    have hend : acceptsEnd (Pattern.accepts rest) [] = true →
        acceptsEnd (Pattern.accepts rest) [c] = true := by
      intro h
      rw [acceptsEnd, h, Bool.or_true]
    cases token with
    | anySequence =>
      rw [Pattern.accepts] at h ⊢
      exact hend h
    | anyDirectories =>
      rw [Pattern.accepts] at h ⊢
      exact hend h
    | char d => simp [Pattern.accepts] at h
    | anyChar => simp [Pattern.accepts] at h
    | within set => simp [Pattern.accepts] at h
    | except set => simp [Pattern.accepts] at h

/-- A pattern with a wildcard that leads to `.` leads to `..` too. -/
theorem Pattern.Stays.not_special {pattern : Pattern} (h : pattern.Stays)
    (hliteral : pattern.literal? = none) (hdot : pattern.startsWithDot = true) {name : String}
    (hname : name = "." ∨ name = "..") : pattern.accepts name.toList = false := by
  rw [Bool.eq_false_iff]
  intro haccepts
  rcases hname with rfl | rfl
  · refine h.not_ascends ⟨hdot, ?_⟩
    cases pattern with
    | nil => cases hliteral
    | cons token rest =>
      obtain rfl : token = .char '.' := by simpa [Pattern.startsWithDot] using hdot
      have hrest : Pattern.literal? rest = none := by simpa [Pattern.literal?] using hliteral
      have hnothing : Pattern.accepts rest [] = true := by simpa [Pattern.accepts] using haccepts
      simpa [Pattern.accepts] using accepts_singleton hrest hnothing '.'
  · exact h.not_ascends ⟨hdot, haccepts⟩

theorem mem_afterRecursive {patterns : List Pattern} {pattern : Pattern}
    (h : pattern ∈ afterRecursive patterns) : pattern ∈ patterns :=
  (List.dropWhile_suffix _).subset h

theorem length_afterRecursive_le (patterns : List Pattern) :
    (afterRecursive patterns).length ≤ patterns.length :=
  (List.dropWhile_suffix _).length_le

/-! ### Side by side -/

section side_by_side
variable {fs : FileSystem} {d₁ d₂ p₁ p₂ : Path} {count taken : Nat} {pieces : List String}
  (halike : fs.Alike count d₁ d₂)
  (hplain₁ : d₁.components.head? ≠ some .current) (hplain₂ : d₂.components.head? ≠ some .current)

theorem head?_of_extends {d p : Path} (hd : d.text ≠ "") (h : Path.Extends d pieces p)
    (hpieces : Path.Descend pieces) : p.components.head? = d.components.head? := by
  rw [h.components_eq hd hpieces, List.head?_append_of_ne_nil _ (Path.components_ne_nil hd)]

theorem Listed.isName (htree : fs.IsTree) {here : Path} {name : String}
    (h : Listed fs here name) : IsName name := by
  obtain ⟨place, entry, -, hentry⟩ := h
  exact (htree.name _ _ _ hentry).1

theorem isPresent_of_isDirectory {p : Path} (h : fs.isDirectory p = true) :
    fs.isPresent p = true := by
  obtain ⟨location, hfind⟩ := FileSystem.isDirectory_iff.mp h
  exact FileSystem.isPresent_iff.mpr ⟨_, hfind⟩

include halike hplain₁ hplain₂

theorem childPath_of_beside (hbeside : Path.Beside d₁ d₂ taken pieces p₁ p₂) (name : String) :
    childPath p₁ name = p₁.join ⟨name⟩ ∧ childPath p₂ name = p₂.join ⟨name⟩ := by
  obtain ⟨home₁, hhome₁⟩ := halike.first
  obtain ⟨home₂, hhome₂⟩ := halike.second
  have hhead₁ := head?_of_extends (FileSystem.leads_of_find hhome₁).1 hbeside.first hbeside.descend
  have hhead₂ := head?_of_extends (FileSystem.leads_of_find hhome₂).1 hbeside.second hbeside.descend
  exact ⟨childPath_eq_join (hhead₁ ▸ hplain₁) name, childPath_eq_join (hhead₂ ▸ hplain₂) name⟩

/-- A name in a directory adds the same piece on both sides. -/
theorem Listed.child (hbeside : Path.Beside d₁ d₂ taken pieces p₁ p₂) {name : String}
    (hlisted : Listed fs p₁ name) :
    Path.Beside d₁ d₂ taken (pieces ++ [name]) (childPath p₁ name) (childPath p₂ name) := by
  obtain ⟨hchild₁, hchild₂⟩ := childPath_of_beside halike hplain₁ hplain₂ hbeside name
  rw [hchild₁, hchild₂]
  exact hbeside.join_name (hlisted.isName halike.grounded.tree)

/-- A name in a directory behind the one is in that behind the other too, unless it is a link that
    leads nowhere. -/
theorem Listed.beside (hbeside : Path.Beside d₁ d₂ taken pieces p₁ p₂) (htaken : taken ≤ count)
    {name : String} (hlisted : Listed fs p₁ name)
    (hpresent : fs.isPresent (childPath p₁ name) = true) : Listed fs p₂ name := by
  have hname := hlisted.isName halike.grounded.tree
  have hchild := (hlisted.child halike hplain₁ hplain₂ hbeside).mono htaken
  obtain ⟨place, entry, hfind, -⟩ := hlisted
  obtain ⟨other, hother⟩ := halike.find (hbeside.mono htaken) hfind
  obtain ⟨⟨goal, found⟩, hgoal⟩ := FileSystem.isPresent_iff.mp (halike.isPresent hchild hpresent)
  rw [(childPath_of_beside halike hplain₁ hplain₂ hbeside name).2] at hgoal
  have hrelative := Path.isAbsolute_of_notMem hname.2.1
  have hne := (FileSystem.leads_of_find hother).1
  refine listed_of_find hother hgoal (Path.isAbsolute_join hne hrelative) ?_ hname
  rw [Path.steps_join_piece hne hname.2.1,
    Path.named_of_isName fun s hs => List.mem_singleton.mp hs ▸ hname]

/-- A pattern adds the same piece on both sides. -/
theorem Next.beside (hbeside : Path.Beside d₁ d₂ taken pieces p₁ p₂) (htaken : taken + 1 ≤ count)
    {pattern : Pattern} (hstay : pattern.Stays) {path : Path} (h : Next fs p₁ pattern path) :
    ∃ name : String, Path.Beside d₁ d₂ (taken + 1) (pieces ++ [name]) path (childPath p₂ name) ∧
      (fs.isPresent path = true →
        fs.isPresent p₁ = true ∧ Next fs p₂ pattern (childPath p₂ name)) := by
  have hbefore := hbeside.mono (Nat.le_trans (Nat.le_succ taken) htaken)
  -- a pattern for one name adds that name, though it may name nothing
  have hliteral : ∀ {name : String}, pattern.literal? = some name.toList →
      Path.Beside d₁ d₂ (taken + 1) (pieces ++ [name]) (childPath p₁ name) (childPath p₂ name) := by
    intro name hliteral
    obtain ⟨hchild₁, hchild₂⟩ := childPath_of_beside halike hplain₁ hplain₂ hbeside name
    rw [hchild₁, hchild₂]
    exact (hbeside.join (hstay.slash_notMem_literal hliteral) (hstay.ne_parent hliteral)).mono
      (Nat.add_le_add_left (Path.blanks_le [name]) taken)
  cases h with
  | @named name hsome hname hthere =>
    refine ⟨name, hliteral hsome, fun hfound => ⟨isPresent_of_isDirectory ?_, ?_⟩⟩
    · rw [(childPath_of_beside halike hplain₁ hplain₂ hbeside name).1] at hfound
      exact halike.isDirectory_of_join hbefore (hstay.slash_notMem_literal hsome)
        (hstay.ne_parent hsome) hfound
    · exact .named hsome hname (.inl (halike.isPresent ((hliteral hsome).mono htaken) hfound))
  | @dots name hsome hname hdirectory =>
    exact ⟨name, hliteral hsome, fun _ => ⟨isPresent_of_isDirectory hdirectory,
      .dots hsome hname (halike.isDirectory hbefore hdirectory)⟩⟩
  | @listed name hnone hrecursive hlisted haccepts =>
    refine ⟨name, (hlisted.child halike hplain₁ hplain₂ hbeside).mono (Nat.le_succ taken),
      fun hfound => ⟨isPresent_of_isDirectory hlisted.isDirectory, ?_⟩⟩
    exact .listed hnone hrecursive (hlisted.beside halike hplain₁ hplain₂ hbeside
      (Nat.le_trans (Nat.le_succ taken) htaken) hfound) haccepts
  | @special name hnone _ hdot hname haccepts =>
    rw [hstay.not_special hnone hdot hname] at haccepts
    cases haccepts

/-- What is found in the one directory is found behind the same pieces in the other one, unless it
    is a link that leads nowhere. The induction is on the way of the search. -/
theorem Finds.beside {directoriesOnly : Bool} {steps : Nat} {patterns : List Pattern} {goal : Path}
    (h : Finds fs directoriesOnly steps patterns p₁ goal)
    (hstay : ∀ pattern ∈ patterns, pattern.Stays)
    (hbeside : Path.Beside d₁ d₂ taken pieces p₁ p₂) (htaken : taken + patterns.length ≤ count) :
    ∃ found other, Path.Beside d₁ d₂ count found goal other ∧
      (fs.isPresent goal = true →
        fs.isPresent p₁ = true ∧ Finds fs directoriesOnly steps patterns p₂ other) := by
  have hroom : taken ≤ count := Nat.le_trans (Nat.le_add_right _ _) htaken
  induction h generalizing taken pieces p₂ with
  | @done steps path honly =>
    have hbefore := hbeside.mono hroom
    exact ⟨pieces, p₂, hbefore, fun hpresent =>
      ⟨hpresent, .done fun hdirectories => halike.isDirectory hbefore (honly hdirectories)⟩⟩
  | @next steps pattern rest here path goal hnext _ ih =>
    rw [List.length_cons] at htaken
    obtain ⟨name, hpath, hstep⟩ := hnext.beside halike hplain₁ hplain₂ hbeside (by omega)
      (hstay pattern List.mem_cons_self)
    obtain ⟨found, other, hfound, hgoal⟩ :=
      ih (fun p hp => hstay p (List.mem_cons_of_mem _ hp)) hpath (by omega) (by omega)
    refine ⟨found, other, hfound, fun hpresent => ?_⟩
    obtain ⟨hbetween, hrest⟩ := hgoal hpresent
    obtain ⟨hhere, hsame⟩ := hstep hbetween
    exact ⟨hhere, .next hsame hrest⟩
  | @deeper steps pattern rest here goal name hliteral hrecursive hlisted hdirectory _ ih =>
    have hchild := hlisted.child halike hplain₁ hplain₂ hbeside
    have hlength := length_afterRecursive_le rest
    rw [List.length_cons] at htaken
    -- the pattern itself is tried once more in the directory
    have hrest : ∀ p ∈ pattern :: afterRecursive rest, p.Stays := by
      intro p hp
      rcases List.mem_cons.mp hp with rfl | hp
      · exact hstay p List.mem_cons_self
      · exact hstay p (List.mem_cons_of_mem _ (mem_afterRecursive hp))
    obtain ⟨found, other, hfound, hgoal⟩ := ih hrest hchild (by rw [List.length_cons]; omega) hroom
    refine ⟨found, other, hfound, fun hpresent =>
      ⟨isPresent_of_isDirectory hlisted.isDirectory, ?_⟩⟩
    exact .deeper hliteral hrecursive (hlisted.beside halike hplain₁ hplain₂ hbeside hroom
      (isPresent_of_isDirectory hdirectory)) (halike.isDirectory (hchild.mono hroom) hdirectory)
      (hgoal hpresent).2
  | @directory steps pattern rest here name hliteral hrecursive hempty hlisted hdirectory =>
    have hchild := (hlisted.child halike hplain₁ hplain₂ hbeside).mono hroom
    refine ⟨_, _, hchild, fun hpresent => ⟨isPresent_of_isDirectory hlisted.isDirectory, ?_⟩⟩
    exact .directory hliteral hrecursive hempty (hlisted.beside halike hplain₁ hplain₂ hbeside hroom
      hpresent) (halike.isDirectory hchild hdirectory)
  | @behind steps pattern follower rest others here goal name hliteral hrecursive hafter hlisted
      haccepts _ ih =>
    have hchild := hlisted.child halike hplain₁ hplain₂ hbeside
    have hlength := length_afterRecursive_le rest
    rw [hafter, List.length_cons] at hlength
    rw [List.length_cons] at htaken
    obtain ⟨found, other, hfound, hgoal⟩ := ih (fun p hp => hstay p (List.mem_cons_of_mem _
      (mem_afterRecursive (hafter ▸ List.mem_cons_of_mem _ hp)))) hchild (by omega) hroom
    refine ⟨found, other, hfound, fun hpresent =>
      ⟨isPresent_of_isDirectory hlisted.isDirectory, ?_⟩⟩
    -- the name that the pattern behind accepts has to be there
    obtain ⟨hbetween, hrest⟩ := hgoal hpresent
    exact .behind hliteral hrecursive hafter
      (hlisted.beside halike hplain₁ hplain₂ hbeside hroom hbetween) haccepts hrest

end side_by_side

end Glob

end PackageRelease
