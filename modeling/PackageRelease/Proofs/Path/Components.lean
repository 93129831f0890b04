import PackageRelease.FileSystem.Resolve

/-! # Components and steps

  A path is followed by its pieces and compared by its components. The two differ only in `.`:
  without it, the pieces are the texts of the components behind the root. A path that is made of
  components again therefore asks for the same names.
-/

namespace PackageRelease

/-! ### Splitting -/

namespace Text

variable {p : Char → Bool} {c : Char}

theorem splitWhere_cons_of_pos (hc : p c = true) (cs : List Char) :
    splitWhere p (c :: cs) = [] :: splitWhere p cs := by
  rw [splitWhere, if_pos hc]

theorem splitWhere_ne_nil (p : Char → Bool) (cs : List Char) : splitWhere p cs ≠ [] := by
  cases cs with
  | nil => exact List.cons_ne_nil _ _
  | cons c cs =>
    rw [splitWhere]
    split
    · exact List.cons_ne_nil _ _
    · split <;> exact List.cons_ne_nil _ _

theorem splitWhere_cons_of_neg (hc : p c = false) (cs : List Char) :
    ∃ first rest, splitWhere p cs = first :: rest ∧
      splitWhere p (c :: cs) = (c :: first) :: rest := by
  cases h : splitWhere p cs with
  | nil => exact absurd h (splitWhere_ne_nil p cs)
  | cons first rest =>
    refine ⟨first, rest, rfl, ?_⟩
    rw [splitWhere, h, hc]
    rfl

/-- Splitting at a character that stands between two texts. -/
theorem splitWhere_append_cons (hc : p c = true) (before after : List Char) :
    splitWhere p (before ++ c :: after) = splitWhere p before ++ splitWhere p after := by
  induction before with
  | nil => exact splitWhere_cons_of_pos hc after
  | cons d before ih =>
    rw [List.cons_append]
    by_cases hd : p d = true
    · rw [splitWhere_cons_of_pos hd, splitWhere_cons_of_pos hd, ih]
      rfl
    · have hd : p d = false := by simpa using hd
      obtain ⟨first, rest, hbefore, hcons⟩ := splitWhere_cons_of_neg hd before
      obtain ⟨first', rest', hwhole, hcons'⟩ := splitWhere_cons_of_neg hd (before ++ c :: after)
      rw [ih, hbefore, List.cons_append] at hwhole
      obtain ⟨rfl, rfl⟩ := List.cons.inj hwhole
      rw [hcons, hcons', List.cons_append]

/-- A text without the character is one piece. -/
theorem splitWhere_of_forall {cs : List Char} (h : ∀ c ∈ cs, p c = false) :
    splitWhere p cs = [cs] := by
  induction cs with
  | nil => rfl
  | cons c cs ih =>
    obtain ⟨first, rest, hcs, hcons⟩ := splitWhere_cons_of_neg (h c List.mem_cons_self) cs
    rw [ih fun d hd => h d (List.mem_cons_of_mem c hd)] at hcs
    obtain ⟨rfl, rfl⟩ := List.cons.inj hcs
    exact hcons

/-- No piece holds the character. -/
theorem eq_false_of_mem_splitWhere {cs piece : List Char} (h : piece ∈ splitWhere p cs) :
    ∀ c ∈ piece, p c = false := by
  induction cs generalizing piece with
  | nil =>
    obtain rfl := List.mem_singleton.mp h
    exact nofun
  | cons d cs ih =>
    by_cases hd : p d = true
    · rw [splitWhere_cons_of_pos hd] at h
      rcases List.mem_cons.mp h with rfl | h
      · exact nofun
      · exact ih h
    · have hd : p d = false := by simpa using hd
      obtain ⟨first, rest, hcs, hcons⟩ := splitWhere_cons_of_neg hd cs
      rw [hcons] at h
      rw [hcs] at ih
      rcases List.mem_cons.mp h with rfl | h
      · intro c hc
        rcases List.mem_cons.mp hc with rfl | hc
        · exact hd
        · exact ih List.mem_cons_self c hc
      · exact ih (List.mem_cons_of_mem _ h)

theorem sublist_of_mem_splitWhere {cs piece : List Char} (h : piece ∈ splitWhere p cs) :
    piece.Sublist cs := by
  induction cs generalizing piece with
  | nil =>
    obtain rfl := List.mem_singleton.mp h
    exact List.Sublist.refl _
  | cons d cs ih =>
    by_cases hd : p d = true
    · rw [splitWhere_cons_of_pos hd] at h
      rcases List.mem_cons.mp h with rfl | h
      · exact List.nil_sublist _
      · exact (ih h).cons d
    · obtain ⟨first, rest, hcs, hcons⟩ := splitWhere_cons_of_neg (by simpa using hd) cs
      rw [hcons] at h
      rw [hcs] at ih
      rcases List.mem_cons.mp h with rfl | h
      · exact (ih List.mem_cons_self).cons_cons d
      · exact (ih (List.mem_cons_of_mem _ h)).cons d

/-- Every other character belongs to some piece. -/
theorem exists_mem_splitWhere (hc : p c = false) {cs : List Char} (h : c ∈ cs) :
    ∃ piece ∈ splitWhere p cs, c ∈ piece := by
  induction cs with
  | nil => cases h
  | cons d cs ih =>
    by_cases hd : p d = true
    · rw [splitWhere_cons_of_pos hd]
      rcases List.mem_cons.mp h with rfl | h
      · rw [hc] at hd
        cases hd
      · obtain ⟨piece, hpiece, hmem⟩ := ih h
        exact ⟨piece, List.mem_cons_of_mem _ hpiece, hmem⟩
    · obtain ⟨first, rest, hcs, hcons⟩ := splitWhere_cons_of_neg (by simpa using hd) cs
      rw [hcons]
      rcases List.mem_cons.mp h with rfl | h
      · exact ⟨c :: first, List.mem_cons_self, List.mem_cons_self⟩
      · obtain ⟨piece, hpiece, hmem⟩ := ih h
        rw [hcs] at hpiece
        rcases List.mem_cons.mp hpiece with rfl | hpiece
        · exact ⟨d :: piece, List.mem_cons_self, List.mem_cons_of_mem _ hmem⟩
        · exact ⟨piece, List.mem_cons_of_mem _ hpiece, hmem⟩

theorem slash_notMem_of_mem_pieces {cs : List Char} {s : String}
    (h : s ∈ (splitWhere (· == '/') cs).map String.ofList) : '/' ∉ s.toList := by
  obtain ⟨piece, hpiece, rfl⟩ := List.mem_map.mp h
  rw [String.toList_ofList]
  intro hslash
  have := eq_false_of_mem_splitWhere hpiece '/' hslash
  cases this

/-- Joined texts are made of their characters and those between them. -/
theorem mem_toList_join {sep : String} {texts : List String} {c : Char}
    (h : c ∈ (join sep texts).toList) : c ∈ sep.toList ∨ ∃ s ∈ texts, c ∈ s.toList := by
  induction texts with
  | nil => cases h
  | cons s rest ih =>
    cases rest with
    | nil => exact .inr ⟨s, List.mem_cons_self, h⟩
    | cons t rest =>
      have hjoin : join sep (s :: t :: rest) = s ++ sep ++ join sep (t :: rest) := rfl
      rw [hjoin, String.toList_append, String.toList_append, List.mem_append, List.mem_append] at h
      rcases h with (hfirst | hsep) | hrest
      · exact .inr ⟨s, List.mem_cons_self, hfirst⟩
      · exact .inl hsep
      · rcases ih hrest with hsep | ⟨u, hu, hc⟩
        · exact .inl hsep
        · exact .inr ⟨u, List.mem_cons_of_mem _ hu, hc⟩

end Text

/-! ### Pieces -/

/-- Whether a text can be the name of an entry. -/
def IsName (s : String) : Prop := s ≠ "" ∧ '/' ∉ s.toList ∧ s ≠ "." ∧ s ≠ ".."

instance (s : String) : Decidable (IsName s) :=
  inferInstanceAs (Decidable (_ ∧ _ ∧ _ ∧ _))

namespace Path

/-- The texts between the slashes of a list of characters, without empty ones. -/
def piecesOf (cs : List Char) : List String :=
  ((Text.splitWhere (· == '/') cs).map String.ofList).filter (! ·.isEmpty)

theorem pieces_eq (p : Path) : p.pieces = piecesOf p.text.toList := rfl

theorem piecesOf_append_slash (before after : List Char) :
    piecesOf (before ++ '/' :: after) = piecesOf before ++ piecesOf after := by
  unfold piecesOf
  rw [Text.splitWhere_append_cons rfl, List.map_append, List.filter_append]

theorem piecesOf_of_notMem {s : String} (hne : s ≠ "") (h : '/' ∉ s.toList) :
    piecesOf s.toList = [s] := by
  unfold piecesOf
  rw [Text.splitWhere_of_forall fun c hc => by
    rw [beq_eq_false_iff_ne]
    rintro rfl
    exact h hc]
  simp [hne]

/-- A piece is not empty and holds no slash. -/
theorem of_mem_pieces {p : Path} {piece : String} (h : piece ∈ p.pieces) :
    piece ≠ "" ∧ '/' ∉ piece.toList := by
  obtain ⟨hmem, hne⟩ := List.mem_filter.mp h
  exact ⟨by simpa using hne, Text.slash_notMem_of_mem_pieces hmem⟩

/-! ### Joining -/

variable {base other : Path}

/-- The text of a joined path: there is a slash between the two, however the first one ends. -/
theorem join_cases (hbase : base.text ≠ "") (hother : other.isAbsolute = false) :
    (∃ front, base.text.toList = front ++ ['/'] ∧
      (base.join other).text.toList = front ++ '/' :: other.text.toList) ∨
    (base.join other).text.toList = base.text.toList ++ '/' :: other.text.toList := by
  have hempty : base.text.isEmpty = false := by simpa using hbase
  unfold join
  rw [hother, hempty, Bool.false_or, if_neg Bool.false_ne_true]
  -- a slash at the end of the first text is not doubled
  by_cases hslash : base.endsInSlash = true
  · left
    rw [if_pos hslash, String.toList_append]
    unfold endsInSlash at hslash
    obtain ⟨front, hfront⟩ := List.getLast?_eq_some_iff.mp (of_decide_eq_true hslash)
    refine ⟨front, hfront, ?_⟩
    rw [hfront, List.append_assoc, List.singleton_append]
  · right
    rw [if_neg hslash, String.toList_append, String.toList_append, List.append_assoc]
    rfl

theorem pieces_join (hbase : base.text ≠ "") (hother : other.isAbsolute = false) :
    (base.join other).pieces = base.pieces ++ other.pieces := by
  rw [pieces_eq, pieces_eq, pieces_eq]
  rcases join_cases hbase hother with ⟨front, hfront, hjoin⟩ | hjoin
  · have hnothing : piecesOf [] = [] := rfl
    rw [hjoin, hfront, piecesOf_append_slash, piecesOf_append_slash, hnothing, List.append_nil]
  · rw [hjoin, piecesOf_append_slash]

theorem isAbsolute_join (hbase : base.text ≠ "") (hother : other.isAbsolute = false) :
    (base.join other).isAbsolute = base.isAbsolute := by
  have hhead : (base.join other).text.toList.head? = base.text.toList.head? := by
    rcases join_cases hbase hother with ⟨front, hfront, hjoin⟩ | hjoin
    · rw [hjoin, hfront, List.head?_append, List.head?_append]
      rfl
    · have hne : base.text.toList ≠ [] := by simpa using hbase
      rw [hjoin, List.head?_append]
      cases h : base.text.toList with
      | nil => exact absurd h hne
      | cons c rest => rfl
  unfold isAbsolute
  rw [hhead]

/-! ### Components -/

/-- The name that a component asks for, if it asks for one. -/
def Component.step? : Component → Option String
  | .root | .current => none
  | .parent => some ".."
  | .name s => some s

/-- Whether a component can stand behind the first one. -/
def Component.IsStep : Component → Prop
  | .root | .current => False
  | .parent => True
  | .name s => IsName s

/-- The names that components ask for, one after the other. -/
def Components.steps (components : Components) : List String := components.filterMap Component.step?

theorem steps_append (front back : Components) :
    (front ++ back : Components).steps = front.steps ++ back.steps :=
  List.filterMap_append

theorem steps_map_name (names : List String) :
    Components.steps (names.map .name) = names := by
  unfold Components.steps
  rw [List.filterMap_map]
  exact List.filterMap_some

theorem steps_filterMap_ofPiece? (pieces : List String) :
    Components.steps (pieces.filterMap Component.ofPiece?) = pieces.filter (· ≠ ".") := by
  unfold Components.steps
  induction pieces with
  | nil => rfl
  | cons piece rest ih =>
    unfold Component.ofPiece? at ih ⊢
    by_cases hdot : piece = "."
    · simpa [hdot] using ih
    · by_cases hparent : piece = ".."
      · simpa [hparent, Component.step?] using ih
      · simpa [hdot, hparent, Component.step?] using ih

theorem components_of_isAbsolute {p : Path} (h : p.isAbsolute = true) :
    p.components = .root :: p.pieces.filterMap Component.ofPiece? := by
  unfold components
  rw [if_pos h]

/-- The components of a path that does not start at the root. -/
theorem components_of_relative {p : Path} (h : p.isAbsolute = false) :
    (∃ rest, p.pieces = "." :: rest ∧
      p.components = .current :: rest.filterMap Component.ofPiece?) ∨
    (p.pieces.head? ≠ some "." ∧ p.components = p.pieces.filterMap Component.ofPiece?) := by
  unfold components
  rw [h, if_neg Bool.false_ne_true]
  split
  · next rest heq => exact .inl ⟨rest, heq, rfl⟩
  · next hne =>
    refine .inr ⟨fun hhead => ?_, rfl⟩
    cases hpieces : p.pieces with
    | nil => rw [hpieces] at hhead; cases hhead
    | cons first rest =>
      rw [hpieces] at hhead
      cases hhead
      exact hne rest hpieces

/-- The components of a path ask for its pieces, without `.`. -/
theorem steps_components (p : Path) : p.components.steps = p.pieces.filter (· ≠ ".") := by
  by_cases h : p.isAbsolute = true
  · rw [components_of_isAbsolute h, ← steps_filterMap_ofPiece?]
    rfl
  · have h : p.isAbsolute = false := by simpa using h
    rcases components_of_relative h with ⟨rest, hpieces, hcomponents⟩ | ⟨-, hcomponents⟩
    · rw [hcomponents, hpieces, List.filter_cons_of_neg (by simp), ← steps_filterMap_ofPiece?]
      rfl
    · rw [hcomponents, steps_filterMap_ofPiece?]

/-- The names that a path asks for are those of its components, with some `.` between them. -/
theorem filter_steps (p : Path) : p.steps.filter (· ≠ ".") = p.components.steps := by
  rw [steps_components]
  unfold steps
  rw [List.filter_append]
  split <;> simp

theorem isStep_of_mem_filterMap {pieces : List String}
    (h : ∀ piece ∈ pieces, piece ≠ "" ∧ '/' ∉ piece.toList) {c : Component}
    (hc : c ∈ pieces.filterMap Component.ofPiece?) : c.IsStep := by
  obtain ⟨piece, hmem, hpiece⟩ := List.mem_filterMap.mp hc
  obtain ⟨hne, hslash⟩ := h piece hmem
  unfold Component.ofPiece? at hpiece
  split at hpiece
  · cases hpiece
  · next hdot =>
    split at hpiece
    · cases hpiece
      trivial
    · next hparent =>
      cases hpiece
      exact ⟨hne, hslash, hdot, hparent⟩

/-- Behind the first component there are only steps. -/
theorem isStep_of_mem_tail {p : Path} {c : Component} (hc : c ∈ p.components.tail) : c.IsStep := by
  by_cases h : p.isAbsolute = true
  · rw [components_of_isAbsolute h] at hc
    exact isStep_of_mem_filterMap (fun piece => of_mem_pieces) hc
  · have h : p.isAbsolute = false := by simpa using h
    rcases components_of_relative h with ⟨rest, hpieces, hcomponents⟩ | ⟨-, hcomponents⟩
    · rw [hcomponents] at hc
      refine isStep_of_mem_filterMap (fun piece hmem => ?_) hc
      exact of_mem_pieces (p := p) (hpieces ▸ List.mem_cons_of_mem _ hmem)
    · rw [hcomponents] at hc
      exact isStep_of_mem_filterMap (fun piece => of_mem_pieces) (List.mem_of_mem_tail hc)

/-- A path starts at the root exactly if its first component is the root. -/
theorem head?_components_eq_root_iff (p : Path) :
    p.components.head? = some .root ↔ p.isAbsolute = true := by
  by_cases h : p.isAbsolute = true
  · rw [components_of_isAbsolute h]
    exact iff_of_true rfl h
  · refine iff_of_false (fun hroot => ?_) h
    have h : p.isAbsolute = false := by simpa using h
    rcases components_of_relative h with ⟨rest, -, hcomponents⟩ | ⟨-, hcomponents⟩
    · rw [hcomponents] at hroot
      cases hroot
    · rw [hcomponents] at hroot
      exact isStep_of_mem_filterMap (fun piece => of_mem_pieces) (List.mem_of_head? hroot)

/-- Only the empty path has no components. -/
theorem components_ne_nil {p : Path} (h : p.text ≠ "") : p.components ≠ [] := by
  by_cases habsolute : p.isAbsolute = true
  · rw [components_of_isAbsolute habsolute]
    exact List.cons_ne_nil _ _
  have habsolute : p.isAbsolute = false := by simpa using habsolute
  -- the text up to the first slash is a piece, and `.` as the first piece is a component
  obtain ⟨piece, rest, hpieces⟩ : ∃ piece rest, p.pieces = piece :: rest := by
    cases htext : p.text.toList with
    | nil => exact absurd (String.toList_eq_nil_iff.mp htext) h
    | cons c cs =>
      have hc : (c == '/') = false := by
        unfold isAbsolute at habsolute
        rw [htext] at habsolute
        simpa using habsolute
      obtain ⟨first, others, -, hsplit⟩ := Text.splitWhere_cons_of_neg (p := (· == '/')) hc cs
      rw [pieces_eq, htext, piecesOf, hsplit, List.map_cons,
        List.filter_cons_of_pos (by simp)]
      exact ⟨_, _, rfl⟩
  rcases components_of_relative habsolute with ⟨_, -, hcomponents⟩ | ⟨hdot, hcomponents⟩
  · rw [hcomponents]
    exact List.cons_ne_nil _ _
  · rw [hpieces] at hdot hcomponents
    have hne : piece ≠ "." := fun heq => hdot (heq ▸ rfl)
    rw [hcomponents]
    unfold Component.ofPiece?
    rw [List.filterMap_cons, if_neg hne]
    split
    · next heq => split at heq <;> cases heq
    · exact List.cons_ne_nil _ _

/-! ### Paths made of components -/

theorem steps_eq_map_text {components : Components} (h : ∀ c ∈ components, c.IsStep) :
    components.steps = components.map Component.text := by
  unfold Components.steps
  induction components with
  | nil => rfl
  | cons c rest ih =>
    have hrest := ih fun d hd => h d (List.mem_cons_of_mem c hd)
    cases c with
    | root => exact absurd (h _ List.mem_cons_self) id
    | current => exact absurd (h _ List.mem_cons_self) id
    | parent => exact congrArg (".." :: ·) hrest
    | name s => exact congrArg (s :: ·) hrest

theorem text_of_isStep {c : Component} (h : c.IsStep) : c.text ≠ "" ∧ '/' ∉ c.text.toList := by
  cases c with
  | root => exact absurd h id
  | current => exact absurd h id
  | parent => decide
  | name s => exact ⟨h.1, h.2.1⟩

theorem pieces_join_texts {texts : List String} (h : ∀ s ∈ texts, s ≠ "" ∧ '/' ∉ s.toList) :
    piecesOf (Text.join "/" texts).toList = texts := by
  induction texts with
  | nil => rfl
  | cons s rest ih =>
    obtain ⟨hne, hslash⟩ := h s List.mem_cons_self
    cases rest with
    | nil => exact piecesOf_of_notMem hne hslash
    | cons t rest =>
      have hrest := ih fun u hu => h u (List.mem_cons_of_mem _ hu)
      have htext : (Text.join "/" (s :: t :: rest)).toList =
          s.toList ++ '/' :: (Text.join "/" (t :: rest)).toList := by
        have hjoin : Text.join "/" (s :: t :: rest) = s ++ "/" ++ Text.join "/" (t :: rest) := rfl
        rw [hjoin, String.toList_append, String.toList_append, List.append_assoc]
        rfl
      rw [htext, piecesOf_append_slash, hrest, piecesOf_of_notMem hne hslash]
      rfl

/-- The pieces of a path made of steps are their names. -/
theorem pieces_slashed {components : Components} (h : ∀ c ∈ components, c.IsStep) :
    (⟨slashed components⟩ : Path).pieces = components.steps := by
  rw [steps_eq_map_text h]
  refine pieces_join_texts fun s hs => ?_
  obtain ⟨c, hc, rfl⟩ := List.mem_map.mp hs
  exact text_of_isStep (h c hc)

/-- A text that is joined to others stands in front. -/
theorem toList_join_cons (s : String) (rest : List String) :
    ∃ tail, (Text.join "/" (s :: rest)).toList = s.toList ++ tail := by
  cases rest with
  | nil => exact ⟨[], (List.append_nil _).symm⟩
  | cons t rest =>
    have hjoin : Text.join "/" (s :: t :: rest) = s ++ "/" ++ Text.join "/" (t :: rest) := rfl
    rw [hjoin, String.toList_append, String.toList_append, List.append_assoc]
    exact ⟨_, rfl⟩

theorem isAbsolute_slashed {components : Components} (h : ∀ c ∈ components, c.IsStep) :
    (⟨slashed components⟩ : Path).isAbsolute = false := by
  cases components with
  | nil => rfl
  | cons c rest =>
    obtain ⟨hne, hslash⟩ := text_of_isStep (h c List.mem_cons_self)
    obtain ⟨tail, htail⟩ := toList_join_cons c.text (rest.map Component.text)
    unfold isAbsolute slashed
    rw [List.map_cons, htail]
    cases htext : c.text.toList with
    | nil => exact absurd (String.toList_eq_nil_iff.mp htext) hne
    | cons d ds =>
      have hd : d ≠ '/' := by
        rintro rfl
        exact hslash (htext ▸ List.mem_cons_self)
      simpa using hd

/-- A path that is made of components behind others asks for the names of both. -/
theorem steps_components_join_slashed (hbase : base.text ≠ "") {components : Components}
    (h : ∀ c ∈ components, c.IsStep) :
    (base.join ⟨slashed components⟩).components.steps = (base.components ++ components).steps := by
  -- no step is a `.`, so only the dots of the base are left out
  have hnodot : components.steps.filter (· ≠ ".") = components.steps := by
    rw [List.filter_eq_self]
    intro name hname
    obtain ⟨c, hc, hstep⟩ := List.mem_filterMap.mp hname
    have hname := h c hc
    cases c with
    | root => cases hstep
    | current => cases hstep
    | parent =>
      cases hstep
      decide
    | name s =>
      cases hstep
      exact decide_eq_true hname.2.2.1
  rw [steps_components, pieces_join hbase (isAbsolute_slashed h), pieces_slashed h,
    List.filter_append, hnodot, steps_append, steps_components]

theorem filterMap_ofPiece?_steps {components : Components} (h : ∀ c ∈ components, c.IsStep) :
    components.steps.filterMap Component.ofPiece? = components := by
  unfold Components.steps
  induction components with
  | nil => rfl
  | cons c rest ih =>
    have hrest := ih fun d hd => h d (List.mem_cons_of_mem c hd)
    have hc := h c List.mem_cons_self
    cases c with
    | root => exact absurd hc id
    | current => exact absurd hc id
    | parent => exact congrArg (.parent :: ·) hrest
    | name s =>
      obtain ⟨-, -, hdot, hparent⟩ := hc
      have hpiece : Component.ofPiece? s = some (.name s) := by
        unfold Component.ofPiece?
        rw [if_neg hdot, if_neg hparent]
      rw [List.filterMap_cons_some (by rfl), List.filterMap_cons_some hpiece, hrest]

/-- A path made of steps has these as its components. -/
theorem components_slashed {components : Components} (h : ∀ c ∈ components, c.IsStep) :
    (⟨slashed components⟩ : Path).components = components := by
  rcases components_of_relative (isAbsolute_slashed h) with ⟨rest, hpieces, -⟩ | ⟨-, hcomponents⟩
  · -- no step is a `.`
    have hdot : "." ∈ components.steps := by
      rw [← pieces_slashed h, hpieces]
      exact List.mem_cons_self
    obtain ⟨c, hc, hstep⟩ := List.mem_filterMap.mp hdot
    have hc := h c hc
    cases c with
    | root => cases hstep
    | current => cases hstep
    | parent => exact absurd (Option.some.inj hstep) (by decide)
    | name s => exact absurd (Option.some.inj hstep) hc.2.2.1
  · rw [hcomponents, pieces_slashed h, filterMap_ofPiece?_steps h]

/-- Different sequences of steps have different texts. -/
theorem slashed_injective {components others : Components} (h : ∀ c ∈ components, c.IsStep)
    (hothers : ∀ c ∈ others, c.IsStep) (heq : slashed components = slashed others) :
    components = others := by
  rw [← components_slashed h, heq, components_slashed hothers]

end Path

end PackageRelease
