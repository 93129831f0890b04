import Mathlib.Data.List.Basic
import Mathlib.Data.List.Induction
import PackageRelease.Proofs.FileSystem.Resolution
import PackageRelease.Proofs.Path.Components

/-! # Trees of files

  A file system is a tree when each entry stands in a directory and has a name of its own there.
  Then the files below a directory are those that are found by going down from it, and the map of
  entries can be read in both directions.
-/

namespace PackageRelease

namespace FileSystem

/-- Whether the entries of a file system form a tree. -/
structure IsTree (fs : FileSystem) : Prop where
  /-- No location has two entries. -/
  nodup : (fs.entries.map Prod.fst).Nodup
  /-- The root is not kept as an entry. -/
  root : [] ∉ fs.entries.map Prod.fst
  /-- An entry stands in a directory. -/
  parent : ∀ (directory : Location) (name : String) (entry : Entry),
    fs.get? (directory ++ [name]) = some entry → fs.get? directory = some .directory
  /-- An entry has a name. -/
  name : ∀ (directory : Location) (name : String) (entry : Entry),
    fs.get? (directory ++ [name]) = some entry → IsName name ∧ name.utf8ByteSize ≤ maxNameLength

variable {fs : FileSystem}

theorem mem_of_lookup {entries : List (Location × Entry)} {location : Location} {entry : Entry}
    (h : entries.lookup location = some entry) : (location, entry) ∈ entries := by
  induction entries with
  | nil => cases h
  | cons first rest ih =>
    obtain ⟨other, found⟩ := first
    rw [List.lookup_cons] at h
    by_cases hl : location = other
    · subst hl
      rw [beq_self_eq_true] at h
      cases h
      exact List.mem_cons_self
    · rw [beq_eq_false_iff_ne.mpr hl] at h
      exact List.mem_cons_of_mem _ (ih h)

theorem lookup_of_mem {entries : List (Location × Entry)} (hnodup : (entries.map Prod.fst).Nodup)
    {location : Location} {entry : Entry} (h : (location, entry) ∈ entries) :
    entries.lookup location = some entry := by
  induction entries with
  | nil => cases h
  | cons first rest ih =>
    obtain ⟨other, found⟩ := first
    rw [List.map_cons, List.nodup_cons] at hnodup
    rw [List.lookup_cons]
    rcases List.mem_cons.mp h with heq | hrest
    · cases heq
      rw [beq_self_eq_true]
    · have hne : location ≠ other := by
        rintro rfl
        exact hnodup.1 (List.mem_map.mpr ⟨_, hrest, rfl⟩)
      rw [beq_eq_false_iff_ne.mpr hne]
      exact ih hnodup.2 hrest

/-- The entries of a tree are what is found at its locations. -/
theorem IsTree.mem_entries_iff (h : fs.IsTree) {location : Location} {entry : Entry} :
    (location, entry) ∈ fs.entries ↔ location ≠ [] ∧ fs.get? location = some entry := by
  unfold get?
  constructor
  · intro hmem
    have hne : location ≠ [] := by
      rintro rfl
      exact h.root (List.mem_map.mpr ⟨_, hmem, rfl⟩)
    rw [if_neg hne]
    exact ⟨hne, lookup_of_mem h.nodup hmem⟩
  · rintro ⟨hne, hentry⟩
    rw [if_neg hne] at hentry
    exact mem_of_lookup hentry

/-- A file system is a tree if each of its entries has its place. -/
theorem isTree_iff : fs.IsTree ↔ (fs.entries.map Prod.fst).Nodup ∧ [] ∉ fs.entries.map Prod.fst ∧
    ∀ found ∈ fs.entries, fs.get? found.1.dropLast = some .directory ∧
      ∀ name ∈ found.1.getLast?, IsName name ∧ name.utf8ByteSize ≤ maxNameLength := by
  constructor
  · refine fun h => ⟨h.nodup, h.root, fun ⟨location, entry⟩ hmem => ?_⟩
    obtain ⟨hne, hentry⟩ := h.mem_entries_iff.mp hmem
    rcases location.eq_nil_or_concat' with rfl | ⟨directory, name, rfl⟩
    · exact absurd rfl hne
    rw [List.dropLast_concat, List.getLast?_concat]
    refine ⟨h.parent directory name entry hentry, fun other hother => ?_⟩
    cases hother
    exact h.name directory name entry hentry
  · rintro ⟨hnodup, hroot, hentries⟩
    -- what is found at a location is one of the entries
    have hplace : ∀ (directory : Location) (name : String) (entry : Entry),
        fs.get? (directory ++ [name]) = some entry → fs.get? directory = some .directory ∧
          IsName name ∧ name.utf8ByteSize ≤ maxNameLength := by
      intro directory name entry hentry
      unfold get? at hentry
      rw [if_neg (List.append_ne_nil_of_right_ne_nil _ (List.cons_ne_nil _ _))] at hentry
      obtain ⟨hparent, hname⟩ := hentries _ (mem_of_lookup hentry)
      rw [List.dropLast_concat] at hparent
      exact ⟨hparent, hname name List.getLast?_concat⟩
    exact ⟨hnodup, hroot, fun directory name entry h => (hplace directory name entry h).1,
      fun directory name entry h => (hplace directory name entry h).2⟩

instance (fs : FileSystem) : Decidable fs.IsTree := decidable_of_iff _ isTree_iff.symm

/-- Everything on the way to an entry is a directory. -/
theorem IsTree.directory_of_append (h : fs.IsTree) {front back : Location} {entry : Entry}
    (hentry : fs.get? (front ++ back) = some entry) (hback : back ≠ []) :
    fs.get? front = some .directory := by
  induction back using List.reverseRecOn generalizing entry with
  | nil => exact absurd rfl hback
  | append_singleton back name ih =>
    rw [← List.append_assoc] at hentry
    have hparent := h.parent _ _ _ hentry
    by_cases hne : back = []
    · rwa [hne, List.append_nil] at hparent
    · exact ih hparent hne

/-! ### Going down -/

/-- How a regular file is found by going down from a directory, without following a link. -/
inductive Under (fs : FileSystem) : Location → List String → Bytes → Prop where
  /-- It stands in the directory. -/
  | file {here : Location} {name : String} {content : Bytes}
      (hentry : fs.get? (here ++ [name]) = some (.file content)) : Under fs here [name] content
  /-- It stands below a directory in the directory. -/
  | directory {here : Location} {name : String} {names : List String} {content : Bytes}
      (hentry : fs.get? (here ++ [name]) = some .directory)
      (h : Under fs (here ++ [name]) names content) : Under fs here (name :: names) content

theorem Under.get?_eq {here : Location} {names : List String} {content : Bytes}
    (h : Under fs here names content) : fs.get? (here ++ names) = some (.file content) := by
  induction h with
  | file hentry => exact hentry
  | directory _ _ ih => rwa [List.append_assoc, List.singleton_append] at ih

theorem Under.isName (htree : fs.IsTree) {here : Location} {names : List String} {content : Bytes}
    (h : Under fs here names content) : ∀ name ∈ names, IsName name := by
  induction h with
  | file hentry =>
    intro name hname
    obtain rfl := List.mem_singleton.mp hname
    exact (htree.name _ _ _ hentry).1
  | directory hentry _ ih =>
    intro name hname
    rcases List.mem_cons.mp hname with rfl | hname
    · exact (htree.name _ _ _ hentry).1
    · exact ih name hname

/-- The names on the way down to a file or directory lead to it. -/
theorem IsTree.leads_down (htree : fs.IsTree) (links : Nat) {here : Location} {names : List String}
    {entry : Entry} (hentry : fs.get? (here ++ names) = some entry)
    (hlink : ∀ target, entry ≠ .link target) : Leads fs links here names (here ++ names) := by
  induction names generalizing here with
  | nil =>
    rw [List.append_nil]
    exact .here
  | cons name rest ih =>
    have hsplit : here ++ name :: rest = (here ++ [name]) ++ rest := by
      rw [List.append_assoc, List.singleton_append]
    rw [hsplit] at hentry ⊢
    cases rest with
    | nil =>
      rw [List.append_nil] at hentry ⊢
      obtain ⟨⟨-, -, hdot, hparent⟩, hlength⟩ := htree.name _ _ _ hentry
      cases entry with
      | file content => exact .file hdot hparent hlength hentry
      | directory => exact .directory hdot hparent hlength hentry .here
      | link target => exact absurd rfl (hlink target)
    | cons next rest =>
      -- a name that is followed by others is one of a directory
      have hdirectory := htree.directory_of_append hentry (List.cons_ne_nil _ _)
      obtain ⟨⟨-, -, hdot, hparent⟩, hlength⟩ := htree.name _ _ _ hdirectory
      exact .directory hdot hparent hlength hdirectory (ih hentry)

/-- The names on the way down lead to the file. -/
theorem Under.leads (htree : fs.IsTree) {here : Location} {names : List String} {content : Bytes}
    (h : Under fs here names content) (links : Nat) :
    Leads fs links here names (here ++ names) :=
  htree.leads_down links h.get?_eq nofun

/-- In a tree every file with a longer location is found by going down. -/
theorem IsTree.under_of_get? (htree : fs.IsTree) {here : Location} {names : List String}
    {content : Bytes} (h : fs.get? (here ++ names) = some (.file content)) (hnames : names ≠ []) :
    Under fs here names content := by
  induction names generalizing here with
  | nil => exact absurd rfl hnames
  | cons name names ih =>
    cases names with
    | nil => exact .file h
    | cons next names =>
      -- the first name is followed by others, so it is one of a directory
      have hsplit : here ++ name :: next :: names = (here ++ [name]) ++ next :: names := by
        rw [List.append_assoc, List.singleton_append]
      rw [hsplit] at h
      exact .directory (htree.directory_of_append h (List.cons_ne_nil _ _))
        (ih h (List.cons_ne_nil _ _))

theorem below?_eq_some_iff {base location : Location} {names : List String} :
    below? base location = some names ↔ location = base ++ names ∧ names ≠ [] := by
  induction base generalizing location with
  | nil =>
    cases location with
    | nil => exact iff_of_false nofun fun h => h.2 h.1.symm
    | cons l location =>
      rw [below?, Option.some_inj, List.nil_append]
      · exact ⟨fun h => ⟨h, h ▸ List.cons_ne_nil _ _⟩, fun h => h.1⟩
      · exact nofun
  | cons b base ih =>
    cases location with
    | nil => exact iff_of_false nofun nofun
    | cons l location =>
      rw [below?, List.cons_append]
      by_cases hbl : b = l
      · rw [if_pos hbl, ih, hbl, List.cons_inj_right]
      · rw [if_neg hbl]
        exact iff_of_false nofun fun h => hbl (List.cons.inj h.1).1.symm

/-- The files below a directory are those that are found by going down. -/
theorem IsTree.mem_filesBelow_iff (htree : fs.IsTree) {directory : Location} {names : List String} :
    names ∈ fs.filesBelow directory ↔ ∃ content, Under fs directory names content := by
  unfold filesBelow
  rw [List.mem_filterMap]
  constructor
  · rintro ⟨⟨location, entry⟩, hmem, h⟩
    obtain ⟨-, hentry⟩ := htree.mem_entries_iff.mp hmem
    cases entry with
    | file content =>
      obtain ⟨rfl, hnames⟩ := below?_eq_some_iff.mp h
      exact ⟨content, htree.under_of_get? hentry hnames⟩
    | directory => cases h
    | link target => cases h
  · rintro ⟨content, hunder⟩
    have hentry := hunder.get?_eq
    have hne : directory ++ names ≠ [] := by
      intro hnil
      rw [hnil] at hentry
      cases hentry
    have hnames : names ≠ [] := by
      rintro rfl
      cases hunder
    exact ⟨_, htree.mem_entries_iff.mpr ⟨hne, hentry⟩, below?_eq_some_iff.mpr ⟨rfl, hnames⟩⟩

/-- The names in a directory are those of its entries. -/
theorem IsTree.mem_children_iff (htree : fs.IsTree) {directory : Location} {name : String}
    {entry : Entry} :
    (name, entry) ∈ fs.children directory ↔ fs.get? (directory ++ [name]) = some entry := by
  unfold children
  rw [List.mem_filterMap]
  constructor
  · rintro ⟨⟨location, found⟩, hmem, h⟩
    obtain ⟨-, hentry⟩ := htree.mem_entries_iff.mp hmem
    dsimp only at h
    cases hlast : location.getLast? with
    | none =>
      rw [hlast] at h
      cases h
    | some last =>
      obtain ⟨front, rfl⟩ := List.getLast?_eq_some_iff.mp hlast
      rw [hlast, List.dropLast_concat] at h
      dsimp only at h
      split at h
      · next hfront =>
        cases h
        rw [← hfront]
        exact hentry
      · cases h
  · intro hentry
    refine ⟨_, htree.mem_entries_iff.mpr ⟨by simp, hentry⟩, ?_⟩
    simp

end FileSystem

end PackageRelease
