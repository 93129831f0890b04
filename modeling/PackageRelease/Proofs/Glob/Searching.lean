import PackageRelease.Glob.Search
import PackageRelease.Proofs.FileSystem.Resolution
import PackageRelease.Proofs.FileSystem.Tree

/-! # What a search finds

  A search takes the patterns one after the other. `Next` says to which paths one pattern leads from
  a path, and `Finds` how a whole search gets from a path to one that it finds: by a step for each
  pattern, where a pattern for any number of directories may take several. The search finds exactly
  these paths, as long as it may take enough steps.
-/

namespace PackageRelease

namespace Glob

/-- Whether a name stands in the directory that a path leads to. -/
def Listed (fs : FileSystem) (here : Path) (name : String) : Prop :=
  ∃ location entry, fs.find true here = .ok (location, .directory) ∧
    fs.get? (location ++ [name]) = some entry

/-- How one pattern leads from a path to the next one. -/
inductive Next (fs : FileSystem) (here : Path) (pattern : Pattern) : Path → Prop where
  /-- It stands for one name, which is there, perhaps as a link that leads nowhere. -/
  | named {name : String} (hliteral : pattern.literal? = some name.toList)
      (hname : ¬ (name = "." ∨ name = ".."))
      (hthere : fs.isPresent (childPath here name) = true ∨
        ∃ found, fs.find false (childPath here name) = .ok found) :
      Next fs here pattern (childPath here name)
  /-- It stands for the directory or the one above. -/
  | dots {name : String} (hliteral : pattern.literal? = some name.toList)
      (hname : name = "." ∨ name = "..") (hdirectory : fs.isDirectory here = true) :
      Next fs here pattern (childPath here name)
  /-- It accepts a name in the directory. -/
  | listed {name : String} (hliteral : pattern.literal? = none)
      (hrecursive : pattern.isRecursive = false) (hlisted : Listed fs here name)
      (haccepts : pattern.accepts name.toList = true) : Next fs here pattern (childPath here name)
  /-- It begins with a dot and accepts the name of the directory or of the one above. -/
  | special {name : String} (hliteral : pattern.literal? = none)
      (hdirectory : fs.isDirectory here = true) (hdot : pattern.startsWithDot = true)
      (hname : name = "." ∨ name = "..") (haccepts : pattern.accepts name.toList = true) :
      Next fs here pattern (here.join ⟨name⟩)

/-- How a search gets from a path to one that it finds. -/
inductive Finds (fs : FileSystem) (directoriesOnly : Bool) :
    Nat → List Pattern → Path → Path → Prop where
  /-- There are no further patterns. -/
  | done {steps : Nat} {path : Path}
      (h : directoriesOnly = true → fs.isDirectory path = true) :
      Finds fs directoriesOnly steps [] path path
  /-- A pattern leads to the path where the search goes on. -/
  | next {steps : Nat} {pattern : Pattern} {rest : List Pattern} {here path goal : Path}
      (hnext : Next fs here pattern path) (hrest : Finds fs directoriesOnly steps rest path goal) :
      Finds fs directoriesOnly (steps + 1) (pattern :: rest) here goal
  /-- A recursive pattern goes on in a directory below. -/
  | deeper {steps : Nat} {pattern : Pattern} {rest : List Pattern} {here goal : Path}
      {name : String} (hliteral : pattern.literal? = none)
      (hrecursive : pattern.isRecursive = true) (hlisted : Listed fs here name)
      (hdirectory : fs.isDirectory (childPath here name) = true)
      (hrest : Finds fs directoriesOnly steps (pattern :: afterRecursive rest) (childPath here name)
        goal) :
      Finds fs directoriesOnly (steps + 1) (pattern :: rest) here goal
  /-- A recursive pattern at the end stands for the directories below. -/
  | directory {steps : Nat} {pattern : Pattern} {rest : List Pattern} {here : Path} {name : String}
      (hliteral : pattern.literal? = none) (hrecursive : pattern.isRecursive = true)
      (hempty : afterRecursive rest = []) (hlisted : Listed fs here name)
      (hdirectory : fs.isDirectory (childPath here name) = true) :
      Finds fs directoriesOnly (steps + 1) (pattern :: rest) here (childPath here name)
  /-- The pattern behind a recursive one accepts a name in the directory. -/
  | behind {steps : Nat} {pattern follower : Pattern} {rest others : List Pattern}
      {here goal : Path} {name : String} (hliteral : pattern.literal? = none)
      (hrecursive : pattern.isRecursive = true) (hafter : afterRecursive rest = follower :: others)
      (hlisted : Listed fs here name) (haccepts : follower.accepts name.toList = true)
      (hrest : Finds fs directoriesOnly steps others (childPath here name) goal) :
      Finds fs directoriesOnly (steps + 1) (pattern :: rest) here goal

variable {fs : FileSystem} {directoriesOnly : Bool}

/-- What a search finds from a path for the patterns that are left. -/
def onward (fs : FileSystem) (directoriesOnly : Bool) (steps : Nat) (rest : List Pattern)
    (path : Path) : List Path :=
  if rest.isEmpty then
    if directoriesOnly && !fs.isDirectory path then [] else [path]
  else expand fs directoriesOnly steps rest path

/-- What a search finds if the first pattern is asked for a name in a directory. -/
def beneath (fs : FileSystem) (directoriesOnly : Bool) (steps : Nat) (here : Path)
    (patterns : List Pattern) (name : String) : List Path :=
  match patterns with
  | [] => []
  | pattern :: rest =>
    if pattern.accepts name.toList then onward fs directoriesOnly steps rest (childPath here name)
    else []

/-- What a search finds for a pattern from a name in a directory on. -/
def under (fs : FileSystem) (directoriesOnly : Bool) (steps : Nat) (here : Path)
    (pattern : Pattern) (rest : List Pattern) (name : String) : List Path :=
  if pattern.isRecursive then
    (if fs.isDirectory (childPath here name) then
      expand fs directoriesOnly steps (pattern :: afterRecursive rest) (childPath here name)
    else []) ++
    if (afterRecursive rest).isEmpty then
      if fs.isDirectory (childPath here name) then [childPath here name] else []
    else beneath fs directoriesOnly steps here (afterRecursive rest) name
  else beneath fs directoriesOnly steps here (pattern :: rest) name

theorem expand_of_literal {steps : Nat} {pattern : Pattern} {rest : List Pattern} {here : Path}
    {name : String} (h : pattern.literal? = some name.toList) :
    expand fs directoriesOnly (steps + 1) (pattern :: rest) here =
      if name = "." ∨ name = ".." then
        if fs.isDirectory here then onward fs directoriesOnly steps rest (childPath here name) else []
      else if fs.isPresent (childPath here name) ∨ (fs.find false (childPath here name)).isOk then
        onward fs directoriesOnly steps rest (childPath here name)
      else [] := by
  rw [expand, h]
  dsimp only
  rw [String.ofList_toList]
  rfl

theorem expand_of_none {steps : Nat} {pattern : Pattern} {rest : List Pattern} {here : Path}
    (h : pattern.literal? = none) (hdirectory : fs.isDirectory here = true) :
    expand fs directoriesOnly (steps + 1) (pattern :: rest) here =
      (((fs.list here).toOption.getD []).map Prod.fst).flatMap
          (under fs directoriesOnly steps here pattern rest) ++
      (if pattern.startsWithDot then
        [".", ".."].filter fun name => pattern.accepts name.toList else []).flatMap fun name =>
          onward fs directoriesOnly steps rest (here.join ⟨name⟩) := by
  rw [expand, h]
  dsimp only
  rw [hdirectory, if_neg (by decide)]
  refine congrArg₂ (· ++ ·) (List.flatMap_congr fun name _ => ?_) rfl
  unfold under beneath onward
  cases pattern.isRecursive with
  | true =>
    cases hafter : afterRecursive rest with
    | nil => rfl
    | cons follower others => cases haccepts : follower.accepts name.toList <;> simp [haccepts]
  | false => cases haccepts : pattern.accepts name.toList <;> simp [haccepts]

theorem expand_of_not_isDirectory {steps : Nat} {pattern : Pattern} {rest : List Pattern}
    {here : Path} (h : pattern.literal? = none) (hdirectory : fs.isDirectory here = false) :
    expand fs directoriesOnly (steps + 1) (pattern :: rest) here = [] := by
  rw [expand, h]
  dsimp only
  rw [hdirectory]
  rfl

/-! ### The search finds what it should -/

/-- A pattern that stands for one name is made of its characters. -/
theorem eq_map_of_literal {pattern : Pattern} {cs : List Char} (h : pattern.literal? = some cs) :
    pattern = cs.map .char := by
  induction pattern generalizing cs with
  | nil =>
    cases h
    rfl
  | cons token rest ih =>
    cases token with
    | char c =>
      obtain ⟨tail, htail, rfl⟩ := Option.map_eq_some_iff.mp h
      rw [List.map_cons, ← ih htail]
    | anyChar => cases h
    | anySequence => cases h
    | anyDirectories => cases h
    | within set => cases h
    | except set => cases h

theorem isRecursive_of_literal {pattern : Pattern} {cs : List Char}
    (h : pattern.literal? = some cs) : pattern.isRecursive = false := by
  rw [eq_map_of_literal h]
  unfold Pattern.isRecursive
  simp

theorem mem_names_iff (htree : fs.IsTree) {here : Path} {name : String} :
    name ∈ ((fs.list here).toOption.getD []).map Prod.fst ↔ Listed fs here name := by
  rw [List.mem_map]
  constructor
  · rintro ⟨⟨other, entry⟩, hmem, rfl⟩
    cases hlist : fs.list here with
    | error error =>
      rw [hlist] at hmem
      cases hmem
    | ok present =>
      rw [hlist] at hmem
      obtain ⟨location, hfind, rfl⟩ := FileSystem.list_eq_ok_iff.mp hlist
      exact ⟨location, entry, hfind, htree.mem_children_iff.mp hmem⟩
  · rintro ⟨location, entry, hfind, hentry⟩
    rw [FileSystem.list_eq_ok_iff.mpr ⟨location, hfind, rfl⟩]
    exact ⟨(name, entry), htree.mem_children_iff.mpr hentry, rfl⟩

theorem Listed.isDirectory {here : Path} {name : String} (h : Listed fs here name) :
    fs.isDirectory here = true := by
  obtain ⟨location, _, hfind, -⟩ := h
  exact FileSystem.isDirectory_iff.mpr ⟨location, hfind⟩

section one_step
variable {steps : Nat} (ih : ∀ {patterns : List Pattern} {here goal : Path},
  goal ∈ expand fs directoriesOnly steps patterns here ↔
    patterns ≠ [] ∧ Finds fs directoriesOnly steps patterns here goal)
include ih

theorem mem_onward_iff {rest : List Pattern} {path goal : Path} :
    goal ∈ onward fs directoriesOnly steps rest path ↔
      Finds fs directoriesOnly steps rest path goal := by
  unfold onward
  cases rest with
  | nil =>
    rw [List.isEmpty_nil, if_pos rfl]
    constructor
    · intro hmem
      split at hmem
      · cases hmem
      · next hkeep =>
        obtain rfl := List.mem_singleton.mp hmem
        exact .done fun honly => by simpa [honly] using hkeep
    · intro h
      cases h with
      | done h =>
        rw [if_neg (by simpa using h)]
        exact List.mem_singleton_self _
  | cons pattern rest =>
    rw [List.isEmpty_cons, if_neg Bool.false_ne_true, ih]
    exact and_iff_right (List.cons_ne_nil _ _)

theorem mem_beneath_iff {here goal : Path} {patterns : List Pattern} {name : String} :
    goal ∈ beneath fs directoriesOnly steps here patterns name ↔
      ∃ pattern rest, patterns = pattern :: rest ∧ pattern.accepts name.toList = true ∧
        Finds fs directoriesOnly steps rest (childPath here name) goal := by
  unfold beneath
  cases patterns with
  | nil => exact iff_of_false nofun nofun
  | cons pattern rest =>
    dsimp only
    split
    · next haccepts =>
      rw [mem_onward_iff ih]
      exact ⟨fun h => ⟨_, _, rfl, haccepts, h⟩, fun ⟨_, _, heq, _, h⟩ => by cases heq; exact h⟩
    · next haccepts =>
      exact iff_of_false nofun fun ⟨_, _, heq, h, _⟩ => by cases heq; exact haccepts h

omit ih in
/-- A pattern that stands for one name leads to that name only. -/
theorem next_iff_of_literal {pattern : Pattern} {here path : Path} {name : String}
    (hliteral : pattern.literal? = some name.toList) :
    Next fs here pattern path ↔ path = childPath here name ∧
      (name = "." ∨ name = ".." → fs.isDirectory here = true) ∧
      (¬ (name = "." ∨ name = "..") → fs.isPresent (childPath here name) = true ∨
        ∃ found, fs.find false (childPath here name) = .ok found) := by
  have hname : ∀ {other : String}, pattern.literal? = some other.toList → other = name := by
    intro other hother
    rw [hliteral, Option.some_inj] at hother
    exact String.toList_injective hother.symm
  have hnone : pattern.literal? ≠ none := by
    rw [hliteral]
    exact nofun
  constructor
  · intro h
    cases h with
    | named hother hdots hthere =>
      obtain rfl := hname hother
      exact ⟨rfl, fun h => absurd h hdots, fun _ => hthere⟩
    | dots hother hdots hdirectory =>
      obtain rfl := hname hother
      exact ⟨rfl, fun _ => hdirectory, fun h => absurd hdots h⟩
    | listed h => exact absurd h hnone
    | special h => exact absurd h hnone
  · rintro ⟨rfl, hdirectory, hthere⟩
    by_cases hdots : name = "." ∨ name = ".."
    · exact .dots hliteral hdots (hdirectory hdots)
    · exact .named hliteral hdots (hthere hdots)

omit ih in
/-- A pattern that is not recursive takes one step. -/
theorem finds_iff_of_simple {pattern : Pattern} {rest : List Pattern} {here goal : Path}
    (hsimple : pattern.isRecursive = false) :
    Finds fs directoriesOnly (steps + 1) (pattern :: rest) here goal ↔
      ∃ path, Next fs here pattern path ∧ Finds fs directoriesOnly steps rest path goal := by
  have hnot : pattern.isRecursive ≠ true := by
    rw [hsimple]
    exact Bool.false_ne_true
  refine ⟨fun h => ?_, fun ⟨_, hnext, hrest⟩ => .next hnext hrest⟩
  cases h with
  | next hnext hrest => exact ⟨_, hnext, hrest⟩
  | deeper _ h => exact absurd h hnot
  | directory _ h => exact absurd h hnot
  | behind _ h => exact absurd h hnot

theorem mem_expand_of_literal {pattern : Pattern} {rest : List Pattern} {here goal : Path}
    {name : String} (hliteral : pattern.literal? = some name.toList) :
    goal ∈ expand fs directoriesOnly (steps + 1) (pattern :: rest) here ↔
      Finds fs directoriesOnly (steps + 1) (pattern :: rest) here goal := by
  have hfound : (fs.find false (childPath here name)).isOk = true ↔
      ∃ found, fs.find false (childPath here name) = .ok found := by
    cases fs.find false (childPath here name) with
    | error error => exact iff_of_false nofun nofun
    | ok found => exact iff_of_true rfl ⟨_, rfl⟩
  rw [expand_of_literal hliteral, finds_iff_of_simple (isRecursive_of_literal hliteral)]
  simp only [next_iff_of_literal hliteral, ← hfound, ← mem_onward_iff ih, and_assoc,
    exists_eq_left]
  by_cases hname : name = "." ∨ name = ".."
  · simp [hname]
  · simp [hname]

theorem finds_of_mem_under {pattern : Pattern} {rest : List Pattern} {here goal : Path}
    {name : String} (hliteral : pattern.literal? = none) (hlisted : Listed fs here name)
    (hmem : goal ∈ under fs directoriesOnly steps here pattern rest name) :
    Finds fs directoriesOnly (steps + 1) (pattern :: rest) here goal := by
  unfold under at hmem
  split at hmem
  · next hrecursive =>
    rcases List.mem_append.mp hmem with hmem | hmem
    · split at hmem
      · next hbelow => exact .deeper hliteral hrecursive hlisted hbelow (ih.mp hmem).2
      · cases hmem
    · split at hmem
      · next hempty =>
        split at hmem
        · next hbelow =>
          obtain rfl := List.mem_singleton.mp hmem
          exact .directory hliteral hrecursive (List.isEmpty_iff.mp hempty) hlisted hbelow
        · cases hmem
      · obtain ⟨follower, others, hafter, haccepts, hrest⟩ := (mem_beneath_iff ih).mp hmem
        exact .behind hliteral hrecursive hafter hlisted haccepts hrest
  · next hrecursive =>
    obtain ⟨_, _, heq, haccepts, hrest⟩ := (mem_beneath_iff ih).mp hmem
    cases heq
    exact .next (.listed hliteral (by simpa using hrecursive) hlisted haccepts) hrest

theorem mem_expand_of_none (htree : fs.IsTree) {pattern : Pattern} {rest : List Pattern}
    {here goal : Path} (hliteral : pattern.literal? = none)
    (hdirectory : fs.isDirectory here = true) :
    goal ∈ expand fs directoriesOnly (steps + 1) (pattern :: rest) here ↔
      Finds fs directoriesOnly (steps + 1) (pattern :: rest) here goal := by
  rw [expand_of_none hliteral hdirectory, List.mem_append, List.mem_flatMap, List.mem_flatMap]
  constructor
  · rintro (⟨name, hname, hmem⟩ | ⟨name, hname, hmem⟩)
    · exact finds_of_mem_under ih hliteral ((mem_names_iff htree).mp hname) hmem
    · split at hname
      · next hdot =>
        obtain ⟨hdots, haccepts⟩ := List.mem_filter.mp hname
        exact .next (.special hliteral hdirectory hdot (by simpa using hdots) haccepts)
          ((mem_onward_iff ih).mp hmem)
      · cases hname
  · -- except for the directory itself and the one above, each way goes through a name
    unfold under
    intro h
    cases h with
    | next hnext hrest =>
      cases hnext with
      | named h => exact absurd (hliteral.symm.trans h) nofun
      | dots h => exact absurd (hliteral.symm.trans h) nofun
      | listed _ hrecursive hlisted haccepts =>
        refine .inl ⟨_, (mem_names_iff htree).mpr hlisted, ?_⟩
        rw [hrecursive, if_neg Bool.false_ne_true]
        exact (mem_beneath_iff ih).mpr ⟨_, _, rfl, haccepts, hrest⟩
      | special _ _ hdot hdots haccepts =>
        refine .inr ⟨_, ?_, (mem_onward_iff ih).mpr hrest⟩
        rw [if_pos hdot]
        exact List.mem_filter.mpr ⟨by simpa using hdots, haccepts⟩
    | deeper _ hrecursive hlisted hbelow hrest =>
      refine .inl ⟨_, (mem_names_iff htree).mpr hlisted, ?_⟩
      rw [if_pos hrecursive, if_pos hbelow]
      exact List.mem_append_left _ (ih.mpr ⟨List.cons_ne_nil _ _, hrest⟩)
    | directory _ hrecursive hempty hlisted hbelow =>
      refine .inl ⟨_, (mem_names_iff htree).mpr hlisted, ?_⟩
      rw [if_pos hrecursive, hempty, List.isEmpty_nil, if_pos rfl, if_pos hbelow,
        if_pos hbelow]
      exact List.mem_append_right _ (List.mem_singleton_self _)
    | behind _ hrecursive hafter hlisted haccepts hrest =>
      refine .inl ⟨_, (mem_names_iff htree).mpr hlisted, ?_⟩
      rw [if_pos hrecursive, hafter, List.isEmpty_cons, if_neg (by decide : ¬ false = true)]
      exact List.mem_append_right _ ((mem_beneath_iff ih).mpr ⟨_, _, rfl, haccepts, hrest⟩)

/-- One pattern leads to what it should lead to. -/
theorem mem_expand_succ_iff (htree : fs.IsTree) {pattern : Pattern} {rest : List Pattern}
    {here goal : Path} :
    goal ∈ expand fs directoriesOnly (steps + 1) (pattern :: rest) here ↔
      Finds fs directoriesOnly (steps + 1) (pattern :: rest) here goal := by
  cases hliteral : pattern.literal? with
  | some cs =>
    obtain ⟨name, rfl⟩ : ∃ name : String, cs = name.toList := ⟨_, String.toList_ofList.symm⟩
    exact mem_expand_of_literal ih hliteral
  | none =>
    cases hdirectory : fs.isDirectory here with
    | true => exact mem_expand_of_none ih htree hliteral hdirectory
    | false =>
      rw [expand_of_not_isDirectory hliteral hdirectory]
      refine iff_of_false List.not_mem_nil fun h => ?_
      -- each step looks into the directory
      have hsearched : fs.isDirectory here = true := by
        cases h with
        | next hnext _ =>
          cases hnext with
          | named h =>
            rw [hliteral] at h
            cases h
          | dots h =>
            rw [hliteral] at h
            cases h
          | listed _ _ hlisted => exact hlisted.isDirectory
          | special _ h => exact h
        | deeper _ _ hlisted => exact hlisted.isDirectory
        | directory _ _ _ hlisted => exact hlisted.isDirectory
        | behind _ _ _ hlisted => exact hlisted.isDirectory
      rw [hdirectory] at hsearched
      cases hsearched

end one_step

/-- The search finds exactly the paths to which some way leads. -/
theorem mem_expand_iff (htree : fs.IsTree) {steps : Nat} {patterns : List Pattern}
    {here goal : Path} :
    goal ∈ expand fs directoriesOnly steps patterns here ↔
      patterns ≠ [] ∧ Finds fs directoriesOnly steps patterns here goal := by
  induction steps generalizing patterns here goal with
  | zero =>
    refine iff_of_false (by rw [expand]; exact List.not_mem_nil) ?_
    rintro ⟨hne, hfinds⟩
    cases hfinds
    exact hne rfl
  | succ steps ih =>
    cases patterns with
    | nil =>
      have hnothing : expand fs directoriesOnly (steps + 1) [] here = [] := rfl
      rw [hnothing]
      exact iff_of_false List.not_mem_nil fun h => h.1 rfl
    | cons pattern rest =>
      rw [mem_expand_succ_iff (@ih) htree]
      exact (and_iff_right (List.cons_ne_nil _ _)).symm

/-- Whether a query stands for a path: a way leads there that is no longer than a search goes. -/
def Query.StandsFor (fs : FileSystem) (query : Query) (path : Path) : Prop :=
  query.components ≠ [] ∧
    Finds fs query.directoriesOnly (maxSteps fs query) query.components query.start path

theorem Query.mem_search (htree : fs.IsTree) {query : Query} {path : Path} :
    path ∈ query.search fs ↔ query.StandsFor fs path :=
  mem_expand_iff htree

end Glob

end PackageRelease
