import Mathlib.Data.List.Nodup
import Mathlib.Data.List.Perm.Basic
import PackageRelease.Proofs.FileSystem.Tree
import PackageRelease.Proofs.Glob.Searching

/-! # The same files in another order

  Two file systems can hold the same entries in different orders, as when the entries were made one
  after the other in different ways. The key idea: following a path asks for one location at a time,
  so it does not see the order at all; listing a directory does see it, and so does a search, but
  only as the order of what is found.
-/

namespace PackageRelease

namespace FileSystem

variable {fs other : FileSystem}

/-- Two file systems hold the same files, directories and links, in whatever order. -/
structure Reordered (fs other : FileSystem) : Prop where
  /-- The one is a tree. -/
  tree : fs.IsTree
  /-- The other is one, too. -/
  otherTree : other.IsTree
  /-- At every location there is the same. -/
  get?_eq : ∀ location, other.get? location = fs.get? location
  /-- Paths start at the same location. -/
  current : other.workingDirectory = fs.workingDirectory

/-- The entries of a tree in another order are the same tree. -/
theorem reordered_of_perm (htree : fs.IsTree) (hperm : other.entries.Perm fs.entries)
    (hcurrent : other.workingDirectory = fs.workingDirectory) : Reordered fs other := by
  have hkeys := hperm.map Prod.fst
  have hnodup : (other.entries.map Prod.fst).Nodup := hkeys.nodup_iff.mpr htree.nodup
  have hget (location : Location) : other.get? location = fs.get? location := by
    unfold get?
    split
    · rfl
    · refine Option.ext fun entry => ?_
      constructor
      · exact fun h => lookup_of_mem htree.nodup (hperm.mem_iff.mp (mem_of_lookup h))
      · exact fun h => lookup_of_mem hnodup (hperm.mem_iff.mpr (mem_of_lookup h))
  refine ⟨htree, ⟨hnodup, mt hkeys.mem_iff.mp htree.root, ?_, ?_⟩, hget, hcurrent⟩
  · intro directory name entry
    rw [hget, hget]
    exact htree.parent directory name entry
  · intro directory name entry
    rw [hget]
    exact htree.name directory name entry

section paths
variable (h : Reordered fs other)
include h

/-! ### Following a path -/

theorem Reordered.stretch_eq (through : Bool) (here : Location) (names : List String) :
    stretch other through here names = stretch fs through here names := by
  induction names generalizing here with
  | nil => rfl
  | cons name rest ih =>
    by_cases hdot : name = "."
    · rw [hdot, stretch_dot, stretch_dot, ih]
    by_cases hparent : name = ".."
    · rw [hparent, stretch_parent, stretch_parent, ih]
    rw [stretch_name through here hdot hparent, stretch_name through here hdot hparent, h.get?_eq,
      ih]

theorem Reordered.walk_eq (through : Bool) (links : Nat) (here : Location) (names : List String) :
    walk other through links here names = walk fs through links here names := by
  induction links generalizing here names with
  | zero => rw [walk, walk, h.stretch_eq]
  | succ links ih =>
    rw [walk, walk, h.stretch_eq]
    simp only [ih]

theorem Reordered.find_eq (through : Bool) (p : Path) :
    other.find through p = fs.find through p := by
  unfold find locate
  simp only [h.walk_eq, h.current, h.get?_eq]

theorem Reordered.entry_eq (p : Path) : other.entry p = fs.entry p := by
  unfold entry
  rw [h.find_eq]

theorem Reordered.isPresent_eq (p : Path) : other.isPresent p = fs.isPresent p := by
  unfold isPresent
  rw [h.entry_eq]

theorem Reordered.isDirectory_eq (p : Path) : other.isDirectory p = fs.isDirectory p := by
  unfold isDirectory
  rw [h.entry_eq]

theorem Reordered.readFile_eq (p : Path) : other.readFile p = fs.readFile p := by
  unfold readFile
  rw [h.entry_eq]

/-! ### Looking through the entries -/

/-- Each entry is kept once, so the entries are the same up to their order. -/
theorem Reordered.perm_entries : other.entries.Perm fs.entries := by
  refine (List.perm_ext_iff_of_nodup (List.Nodup.of_map _ h.otherTree.nodup)
    (List.Nodup.of_map _ h.tree.nodup)).mpr ?_
  rintro ⟨location, entry⟩
  rw [h.otherTree.mem_entries_iff, h.tree.mem_entries_iff, h.get?_eq]

theorem Reordered.perm_children (location : Location) :
    (other.children location).Perm (fs.children location) :=
  h.perm_entries.filterMap _

theorem Reordered.perm_filesBelow (location : Location) :
    (other.filesBelow location).Perm (fs.filesBelow location) :=
  h.perm_entries.filterMap _

/-- A directory is listed in another order, or not at all for the same reason. -/
theorem Reordered.list_cases (p : Path) :
    (∃ present others, fs.list p = .ok present ∧ other.list p = .ok others ∧ others.Perm present) ∨
      ∃ error, fs.list p = .error error ∧ other.list p = .error error := by
  unfold list
  rw [h.find_eq]
  cases fs.find true p with
  | error error => exact .inr ⟨error, rfl, rfl⟩
  | ok found =>
    obtain ⟨location, entry⟩ := found
    cases entry with
    | directory => exact .inl ⟨_, _, rfl, rfl, h.perm_children location⟩
    | file content => exact .inr ⟨_, rfl, rfl⟩
    | link target => exact .inr ⟨_, rfl, rfl⟩

theorem Reordered.perm_names (p : Path) : (((other.list p).toOption.getD []).map Prod.fst).Perm
    (((fs.list p).toOption.getD []).map Prod.fst) := by
  rcases h.list_cases p with ⟨present, others, hlist, hother, hperm⟩ | ⟨error, hlist, hother⟩
  · rw [hlist, hother]
    exact hperm.map _
  · rw [hlist, hother]

end paths

end FileSystem

/-! ### Searching -/

namespace Glob

open FileSystem

variable {fs other : FileSystem} {directoriesOnly : Bool} {steps : Nat} (h : Reordered fs other)
include h

section remaining
variable (hexpand : ∀ patterns here, (expand other directoriesOnly steps patterns here).Perm
  (expand fs directoriesOnly steps patterns here))
include hexpand

theorem perm_onward (rest : List Pattern) (path : Path) :
    (onward other directoriesOnly steps rest path).Perm
      (onward fs directoriesOnly steps rest path) := by
  unfold onward
  rw [h.isDirectory_eq]
  split
  · exact .refl _
  · exact hexpand rest path

theorem perm_beneath (here : Path) (patterns : List Pattern) (name : String) :
    (beneath other directoriesOnly steps here patterns name).Perm
      (beneath fs directoriesOnly steps here patterns name) := by
  cases patterns with
  | nil => exact .refl _
  | cons pattern rest =>
    unfold beneath
    dsimp only
    split
    · exact perm_onward h hexpand rest _
    · exact .refl _

theorem perm_under (here : Path) (pattern : Pattern) (rest : List Pattern) (name : String) :
    (under other directoriesOnly steps here pattern rest name).Perm
      (under fs directoriesOnly steps here pattern rest name) := by
  unfold under
  rw [h.isDirectory_eq]
  split
  · refine List.Perm.append ?_ ?_
    · split
      · exact hexpand _ _
      · exact .refl _
    · split
      · exact .refl _
      · exact perm_beneath h hexpand here _ name
  · exact perm_beneath h hexpand here _ name

end remaining

/-- A search finds the same paths, in another order. The induction is on the steps: a directory is
    listed in another order, and from each name in it the search goes on with fewer steps. -/
theorem perm_expand (directoriesOnly : Bool) (steps : Nat) (patterns : List Pattern) (here : Path) :
    (expand other directoriesOnly steps patterns here).Perm
      (expand fs directoriesOnly steps patterns here) := by
  induction steps generalizing patterns here with
  | zero => exact .refl _
  | succ steps ih =>
    cases patterns with
    | nil => exact .refl _
    | cons pattern rest =>
      cases hliteral : pattern.literal? with
      | some cs =>
        have hname : pattern.literal? = some (String.ofList cs).toList := by
          rw [String.toList_ofList, hliteral]
        rw [expand_of_literal hname, expand_of_literal hname, h.isDirectory_eq, h.isPresent_eq,
          h.find_eq]
        split
        · split
          · exact perm_onward h ih rest _
          · exact .refl _
        · split
          · exact perm_onward h ih rest _
          · exact .refl _
      | none =>
        cases hdirectory : fs.isDirectory here with
        | false =>
          rw [expand_of_not_isDirectory hliteral hdirectory,
            expand_of_not_isDirectory hliteral ((h.isDirectory_eq here).trans hdirectory)]
        | true =>
          rw [expand_of_none hliteral hdirectory,
            expand_of_none hliteral ((h.isDirectory_eq here).trans hdirectory)]
          refine List.Perm.append ?_ ?_
          · exact (h.perm_names here).flatMap fun name _ => perm_under h ih here pattern rest name
          · exact List.Perm.flatMap_left _ fun name _ => perm_onward h ih rest _

/-- A search may take the same number of steps, because there are as many entries. -/
theorem perm_search (query : Query) : (query.search other).Perm (query.search fs) := by
  unfold Query.search maxSteps
  rw [h.perm_entries.length_eq]
  exact perm_expand h _ _ _ _

end Glob

end PackageRelease
