import PackageRelease.Proofs.Glob.Mirroring

/-! # Searching from a `.`

  A search drops a `.` at the beginning: the names in the directory where it starts are paths of
  their own. So no path that is found for a pattern begins with a `.`, even if the directory in
  front of the pattern does. The induction is on the way of the search; only a pattern with a
  wildcard is sure to leave the `.` behind.
-/

namespace PackageRelease

namespace Glob

/-- Whether a path is the `.` where a search starts. -/
def AtStart (p : Path) : Prop := p.components = [.current]

/-- Whether a path has something at its beginning that is not a `.`. -/
def Shed (p : Path) : Prop := p.text ≠ "" ∧ p.components.head? ≠ some .current

/-- Whether a pattern leads to one name in a directory at a time. -/
structure Pattern.Single (pattern : Pattern) : Prop where
  /-- It is one of a name. -/
  slash_notMem : .char '/' ∉ pattern
  /-- It leads to the directory or the one above only if it stands for one of them. -/
  not_special : pattern.literal? = none → pattern.startsWithDot = true →
    ∀ name, name = "." ∨ name = ".." → pattern.accepts name.toList = false

theorem Pattern.Stays.single {pattern : Pattern} (h : pattern.Stays) : pattern.Single :=
  ⟨h.slash_notMem, fun hliteral hdot _ hname => h.not_special hliteral hdot hname⟩

/-- The text of a directory is one name. -/
theorem single_verbatim {name : String} (hslash : '/' ∉ name.toList) :
    Pattern.Single (verbatim name.toList) := by
  constructor
  · intro hmem
    obtain ⟨c, hc, heq⟩ := List.mem_map.mp hmem
    split at heq
    · cases heq
    · cases heq
      exact hslash hc
  · intro hliteral _ other hdots
    rw [Bool.eq_false_iff]
    intro haccepts
    rcases literal?_verbatim name.toList with ⟨hsome, -⟩ | ⟨-, hspecial⟩
    · rw [hsome] at hliteral
      cases hliteral
    · obtain ⟨-, -, hdot, hparent⟩ := isName_of_isSpecial hslash hspecial
      rw [String.toList_injective (accepts_verbatim_iff.mp haccepts)] at hdots
      exact hdots.elim hdot hparent

variable {fs : FileSystem} {p : Path}

theorem Shed.not_atStart (h : Shed p) : ¬ AtStart p := fun hstart => h.2 (by rw [hstart]; rfl)

theorem shed_of_name {name : String} (hslash : '/' ∉ name.toList) (hempty : name ≠ "")
    (hdot : name ≠ ".") : Shed ⟨name⟩ :=
  ⟨hempty, head?_components_of_piece hslash hempty hdot⟩

/-- The next path begins with a `.` only if it is the same one. -/
theorem childPath_cases {name : String} (hp : AtStart p ∨ Shed p) (hslash : '/' ∉ name.toList)
    (hempty : AtStart p → name ≠ "") :
    AtStart p ∧ name = "." ∧ AtStart (childPath p name) ∨ Shed (childPath p name) := by
  rcases hp with hstart | hshed
  · have hchild : childPath p name = ⟨name⟩ := by
      unfold childPath
      exact if_pos hstart
    by_cases hdot : name = "."
    · subst hdot
      exact .inl ⟨hstart, rfl, by rw [hchild]; rfl⟩
    · right
      rw [hchild]
      exact shed_of_name hslash (hempty hstart) hdot
  · right
    rw [childPath_eq_join hshed.2]
    refine ⟨Path.text_join_ne hshed.1 (Path.isAbsolute_of_notMem hslash), ?_⟩
    rw [Path.head?_components_join hshed.1 hslash]
    exact hshed.2

theorem shed_childPath {name : String} (hp : AtStart p ∨ Shed p) (hname : IsName name) :
    Shed (childPath p name) :=
  (childPath_cases hp hname.2.1 fun _ => hname.1).resolve_left fun h => hname.2.2.1 h.2.1

/-- A pattern with a wildcard leads to a name. -/
theorem Next.child (htree : fs.IsTree) {pattern : Pattern} {path : Path}
    (h : Next fs p pattern path) (hsingle : pattern.Single) :
    ∃ name : String, path = childPath p name ∧ '/' ∉ name.toList ∧ (AtStart p → name ≠ "") ∧
      (pattern.literal? = none → IsName name) := by
  have hslash : ∀ {name : String}, pattern.literal? = some name.toList → '/' ∉ name.toList := by
    intro name hliteral hmem
    refine hsingle.slash_notMem (eq_map_of_literal hliteral ▸ ?_)
    exact List.mem_map.mpr ⟨_, hmem, rfl⟩
  have hsome : ∀ {name : String}, pattern.literal? = some name.toList →
      pattern.literal? = none → IsName name := by
    intro name hliteral hnone
    rw [hliteral] at hnone
    cases hnone
  cases h with
  | @named name hliteral hname hthere =>
    refine ⟨name, rfl, hslash hliteral, fun hstart => ?_, hsome hliteral⟩
    -- nothing is found at an empty path
    rintro rfl
    have hchild : childPath p "" = ⟨""⟩ := by
      unfold childPath
      exact if_pos hstart
    rw [hchild] at hthere
    rcases hthere with hpresent | ⟨found, hfound⟩
    · obtain ⟨found, hfound⟩ := FileSystem.isPresent_iff.mp hpresent
      exact (FileSystem.locate_eq_ok_iff.mp (FileSystem.find_eq_ok_iff.mp hfound).1).1 rfl
    · exact (FileSystem.locate_eq_ok_iff.mp (FileSystem.find_eq_ok_iff.mp hfound).1).1 rfl
  | @dots name hliteral hname hdirectory =>
    refine ⟨name, rfl, hslash hliteral, fun _ => ?_, hsome hliteral⟩
    rcases hname with rfl | rfl <;> decide
  | @listed name hliteral hrecursive hlisted haccepts =>
    have hname := hlisted.isName htree
    exact ⟨name, rfl, hname.2.1, fun _ => hname.1, fun _ => hname⟩
  | @special name hliteral hdirectory hdot hname haccepts =>
    rw [hsingle.not_special hliteral hdot name hname] at haccepts
    cases haccepts

/-- A search with a wildcard comes to a path that does not begin with a `.`. -/
theorem Finds.shed (htree : fs.IsTree) {directoriesOnly : Bool} {steps : Nat}
    {patterns : List Pattern} {goal : Path} (h : Finds fs directoriesOnly steps patterns p goal)
    (hsingle : ∀ pattern ∈ patterns, pattern.Single) (hp : AtStart p ∨ Shed p)
    (hwild : AtStart p → ∃ pattern ∈ patterns, pattern.literal? = none) : Shed goal := by
  induction h with
  | done =>
    refine hp.resolve_left fun hstart => ?_
    obtain ⟨pattern, hmem, -⟩ := hwild hstart
    cases hmem
  | @next steps pattern rest here path goal hnext _ ih =>
    have hrest : ∀ other ∈ rest, other.Single := fun other hother =>
      hsingle other (List.mem_cons_of_mem _ hother)
    obtain ⟨name, rfl, hslash, hempty, hname⟩ :=
      hnext.child htree (hsingle pattern List.mem_cons_self)
    rcases childPath_cases hp hslash hempty with ⟨hstart, rfl, hpath⟩ | hshed
    · -- the pattern stands for the `.`, so the wildcard is still to come
      obtain ⟨other, hmem, hnone⟩ := hwild hstart
      refine ih hrest (.inl hpath) fun _ => ⟨other, ?_, hnone⟩
      rcases List.mem_cons.mp hmem with rfl | hmem
      · exact absurd rfl (hname hnone).2.2.1
      · exact hmem
    · exact ih hrest (.inr hshed) fun hstart => absurd hstart hshed.not_atStart
  | @deeper steps pattern rest here goal name hliteral hrecursive hlisted hdirectory _ ih =>
    have hshed := shed_childPath hp (hlisted.isName htree)
    refine ih (fun other hother => ?_) (.inr hshed) fun hstart => absurd hstart hshed.not_atStart
    rcases List.mem_cons.mp hother with rfl | hother
    · exact hsingle _ List.mem_cons_self
    · exact hsingle _ (List.mem_cons_of_mem _ (mem_afterRecursive hother))
  | directory _ _ _ hlisted _ => exact shed_childPath hp (hlisted.isName htree)
  | @behind steps pattern follower rest others here goal name hliteral hrecursive hafter hlisted
      haccepts _ ih =>
    have hshed := shed_childPath hp (hlisted.isName htree)
    refine ih (fun other hother => ?_) (.inr hshed) fun hstart => absurd hstart hshed.not_atStart
    exact hsingle _ (List.mem_cons_of_mem _
      (mem_afterRecursive (hafter ▸ List.mem_cons_of_mem _ hother)))

/-- Nothing that is found for the pattern of an entry begins with a `.`. -/
theorem shed_of_search (htree : fs.IsTree) {d : Path} (hd : d.text ≠ "") {rest : String}
    (hrelative : (⟨rest⟩ : Path).isAbsolute = false) {c : Char} (hc : c ∈ rest.toList)
    (hwild : c = '*' ∨ c = '?' ∨ c = '[')
    (hstays : ∀ patterns, Reads rest patterns → ∀ pattern ∈ patterns, pattern.Stays)
    {query : Query} (hquery : Query.parse (Path.join ⟨escape d.text⟩ ⟨rest⟩).text = .ok query)
    {goal : Path} (hgoal : goal ∈ query.search fs) : Shed goal := by
  have hrest : rest ≠ "" := by
    rintro rfl
    cases hc
  obtain ⟨patterns, hread, rfl⟩ := (parse_pattern_eq_ok_iff hd hrelative hrest).mp hquery
  unfold Query.search at hgoal
  obtain ⟨-, hfinds⟩ := (mem_expand_iff htree).mp hgoal
  refine hfinds.shed htree (fun pattern hpattern => ?_) ?_ fun _ => ?_
  · rcases List.mem_append.mp hpattern with hmem | hmem
    · obtain ⟨text, htext, rfl⟩ := List.mem_map.mp hmem
      exact single_verbatim (slash_notMem_texts htext)
    · exact (hstays patterns hread pattern hmem).single
  · have hroot : Shed ⟨"/"⟩ := ⟨by decide, by decide⟩
    have hhere : AtStart ⟨"."⟩ := by
      unfold AtStart
      decide
    cases d.isAbsolute with
    | true => exact .inr hroot
    | false => exact .inl hhere
  · obtain ⟨pattern, hpattern, hnone⟩ := hread.exists_wildcard hc hwild
    exact ⟨pattern, List.mem_append_right _ hpattern, hnone⟩

end Glob

end PackageRelease
