import Mathlib.Data.List.DropRight
import PackageRelease.Proofs.Path.Extending

/-! # The last name of a path

  A path with another file name in place of its own asks for the same names in front of it, apart
  from `.`, and starts in the same directory. So both paths lead into one directory. The key idea:
  the text in front of the name is kept but for what asks for nothing, so what it asks for can be
  read off what stands between its slashes.
-/

namespace PackageRelease

namespace Path

/-! ### What asks for nothing at the end -/

/-- Whether a text between slashes asks for nothing. -/
def IsIdle (s : String) : Prop := s = "" ∨ s = "."

instance (s : String) : Decidable (IsIdle s) := inferInstanceAs (Decidable (_ ∨ _))

theorem dropIdle_eq (texts : List String) :
    dropIdle texts = texts.rdropWhile fun s => s = "" || s = "." := rfl

/-- What is left out asks for nothing, and what is kept ends in something that is asked for. -/
theorem dropIdle_spec (texts : List String) :
    (∃ idle, texts = dropIdle texts ++ idle ∧ ∀ s ∈ idle, IsIdle s) ∧
      ∀ last, (dropIdle texts).getLast? = some last → ¬IsIdle last := by
  rw [dropIdle_eq]
  refine ⟨⟨_, List.rdropWhile_append_rtakeWhile.symm, fun s hs => ?_⟩, fun last hlast => ?_⟩
  · simpa [IsIdle] using List.mem_rtakeWhile_imp hs
  · obtain ⟨hne, rfl⟩ := List.mem_getLast?_eq_getLast hlast
    simpa [IsIdle] using List.rdropWhile_last_not _ _ hne

/-- What asks for nothing is left out behind the last text that asks for something. -/
theorem dropIdle_append (front : List String) {last : String} (hlast : ¬IsIdle last)
    {idle : List String} (hidle : ∀ s ∈ idle, IsIdle s) :
    dropIdle (front ++ last :: idle) = front ++ [last] := by
  unfold dropIdle
  rw [List.reverse_append, List.reverse_cons, List.append_assoc,
    List.dropWhile_append_of_pos fun s hs => ?_, List.singleton_append,
    List.dropWhile_cons_of_neg (by simpa [IsIdle] using hlast), List.reverse_cons,
    List.reverse_reverse]
  simpa [IsIdle] using hidle s (List.mem_reverse.mp hs)

/-! ### What is in front of the last name -/

/-- A path starts at the root if there is nothing in front of its first slash. -/
theorem isAbsolute_iff_split (p : Path) :
    p.isAbsolute = true ↔ ∃ rest, rest ≠ [] ∧ Text.split '/' p.text = "" :: rest := by
  unfold isAbsolute Text.split
  rw [decide_eq_true_iff]
  cases p.text.toList with
  | nil =>
    refine iff_of_false nofun ?_
    rintro ⟨rest, hne, heq⟩
    exact hne (List.cons.inj heq).2.symm
  | cons c cs =>
    rw [List.head?_cons, Option.some_inj]
    by_cases hc : c = '/'
    · subst hc
      refine iff_of_true rfl ⟨_, ?_, by rw [Text.splitWhere_cons_of_pos rfl]; rfl⟩
      exact fun hnil => Text.splitWhere_ne_nil _ cs (List.map_eq_nil_iff.mp hnil)
    · refine iff_of_false hc ?_
      rintro ⟨rest, -, heq⟩
      obtain ⟨first, others, -, hsplit⟩ :=
        Text.splitWhere_cons_of_neg (p := (· == '/')) (by simpa using hc) cs
      rw [hsplit, List.map_cons] at heq
      exact absurd (List.cons.inj heq).1 (by simp)

theorem pieces_eq_filter (p : Path) : p.pieces = (Text.split '/' p.text).filter (· ≠ "") := by
  unfold pieces
  apply List.filter_congr
  intro s _
  by_cases h : s = "" <;> simp [h]

/-- The text of a path that ends in a name: behind the name there are only slashes. -/
theorem split_of_pieces {p : Path} {front : List String} {name : String}
    (hp : p.pieces = front ++ [name]) :
    ∃ texts empty, Text.split '/' p.text = texts ++ name :: empty ∧
      texts.filter (· ≠ "") = front ∧ ∀ s ∈ empty, s = "" := by
  have hfilter : (Text.split '/' p.text).filter (· ≠ "") = front ++ [name] := by
    rw [← hp, pieces_eq_filter]
  obtain ⟨before, behind, hsplit, hbefore, hbehind⟩ := List.filter_eq_append_iff.mp hfilter
  obtain ⟨blank, empty, rfl, hblank, -, hempty⟩ := List.filter_eq_cons_iff.mp hbehind
  refine ⟨before ++ blank, empty, by rw [hsplit, List.append_assoc], ?_, ?_⟩
  · rw [List.filter_append, hbefore, List.filter_eq_nil_iff.mpr hblank, List.append_nil]
  · exact fun s hs => by simpa using List.filter_eq_nil_iff.mp hempty s hs

theorem start_spec (p : Path) :
    p.start.pieces.filter (· ≠ ".") = [] ∧ p.start.isAbsolute = p.isAbsolute := by
  have hroot := head?_components_eq_root_iff p
  unfold start
  cases h : p.isAbsolute with
  | true =>
    rw [hroot.mpr h]
    exact ⟨rfl, rfl⟩
  | false =>
    rw [h] at hroot
    cases hhead : p.components.head? with
    | none => exact ⟨rfl, rfl⟩
    | some c =>
      cases c with
      | root => exact absurd (hroot.mp hhead) Bool.false_ne_true
      | _ => exact ⟨rfl, rfl⟩

/-- Texts at the beginning of a path, joined again, if the last of them is not empty. -/
theorem join_texts_spec {p : Path} {texts more : List String}
    (hsplit : Text.split '/' p.text = texts ++ more) (hmore : more ≠ []) (hne : texts ≠ [])
    (hlast : texts.getLast? ≠ some "") :
    (⟨Text.join "/" texts⟩ : Path).pieces = texts.filter (· ≠ "") ∧
      (⟨Text.join "/" texts⟩ : Path).isAbsolute = p.isAbsolute := by
  have hjoin : Text.split '/' (Text.join "/" texts) = texts := by
    refine Text.split_join hne fun s hs => ?_
    have hmem : s ∈ Text.split '/' p.text := hsplit ▸ List.mem_append_left more hs
    exact Text.slash_notMem_of_mem_pieces hmem
  constructor
  · rw [pieces_eq_filter, hjoin]
  · rw [Bool.eq_iff_iff, isAbsolute_iff_split, isAbsolute_iff_split, hjoin, hsplit]
    obtain ⟨first, rest, rfl⟩ := List.exists_cons_of_ne_nil hne
    constructor
    · rintro ⟨rest, -, heq⟩
      obtain ⟨rfl, rfl⟩ := List.cons.inj heq
      exact ⟨rest ++ more, List.append_ne_nil_of_right_ne_nil rest hmore, rfl⟩
    · rintro ⟨_, -, heq⟩
      obtain ⟨rfl, rfl⟩ := List.cons.inj heq
      refine ⟨rest, ?_, rfl⟩
      rintro rfl
      exact hlast rfl

/-- The path in front of a name starts in the same directory, and asks for the names in front of
    it. -/
theorem front_spec {p : Path} {front : List String} {name : String}
    (hp : p.pieces = front ++ [name]) (hname : IsName name) :
    p.front.pieces.filter (· ≠ ".") = front.filter (· ≠ ".") ∧
      p.front.isAbsolute = p.isAbsolute := by
  obtain ⟨texts, empty, hsplit, hfront, hempty⟩ := split_of_pieces hp
  have hdrop : dropIdle (Text.split '/' p.text) = texts ++ [name] := by
    rw [hsplit]
    exact dropIdle_append texts (not_or.mpr ⟨hname.1, hname.2.2.1⟩) fun s hs => .inl (hempty s hs)
  obtain ⟨⟨idle, htexts, hidle⟩, hlast⟩ := dropIdle_spec texts
  -- what asks for nothing is no name in front either
  have hnames : front.filter (· ≠ ".") =
      ((dropIdle texts).filter (· ≠ "")).filter (· ≠ ".") := by
    have hnothing : (idle.filter (· ≠ "")).filter (· ≠ ".") = [] := by
      rw [List.filter_filter, List.filter_eq_nil_iff]
      intro s hs
      rcases hidle s hs with rfl | rfl <;> decide
    calc front.filter (· ≠ ".")
        = ((dropIdle texts ++ idle).filter (· ≠ "")).filter (· ≠ ".") := by rw [← htexts, hfront]
      _ = _ := by rw [List.filter_append, List.filter_append, hnothing, List.append_nil]
  unfold Path.front
  dsimp only
  rw [hdrop, List.dropLast_concat, hnames]
  by_cases hnil : dropIdle texts = []
  · rw [if_pos hnil, hnil]
    exact start_spec p
  · rw [if_neg hnil]
    rw [htexts, List.append_assoc] at hsplit
    obtain ⟨hpieces, habsolute⟩ := join_texts_spec hsplit
      (List.append_ne_nil_of_right_ne_nil _ (List.cons_ne_nil _ _)) hnil
      fun heq => hlast _ heq (.inl rfl)
    exact ⟨by rw [hpieces], habsolute⟩

/-- In front of a last name are the texts in front of it, if they end in what is asked for. -/
theorem front_join_texts {texts : List String} {last name : String}
    (h : ∀ s ∈ texts ++ [last, name], '/' ∉ s.toList) (hlast : ¬IsIdle last)
    (hname : ¬IsIdle name) :
    (⟨Text.join "/" (texts ++ [last, name])⟩ : Path).front = ⟨Text.join "/" (texts ++ [last])⟩ := by
  have hconcat : texts ++ [last, name] = (texts ++ [last]) ++ name :: [] := by
    rw [List.append_assoc]
    rfl
  unfold front
  dsimp only
  rw [Text.split_join (List.append_ne_nil_of_right_ne_nil _ (List.cons_ne_nil _ _)) h, hconcat,
    dropIdle_append _ hname (List.forall_mem_nil _), List.dropLast_concat,
    dropIdle_append _ hlast (List.forall_mem_nil _),
    if_neg (List.append_ne_nil_of_right_ne_nil _ (List.cons_ne_nil _ _))]

/-- A path that ends in a name is that of a file with this name. -/
theorem fileName?_of_pieces {p : Path} {front : List String} {name : String}
    (hp : p.pieces = front ++ [name]) (hname : IsName name) : p.fileName? = some name := by
  have hlast : ∀ texts : List String, (texts ++ [name]).filterMap Component.ofPiece? =
      texts.filterMap Component.ofPiece? ++ [.name name] := by
    intro texts
    unfold Component.ofPiece?
    rw [List.filterMap_append, List.filterMap_cons_some (b := .name name)
      (by rw [if_neg hname.2.2.1, if_neg hname.2.2.2])]
    rfl
  have hcomponents : ∃ inner : Components, p.components = inner ++ [.name name] := by
    cases h : p.isAbsolute with
    | true => exact ⟨_ :: _, by rw [components_of_isAbsolute h, hp, hlast]; rfl⟩
    | false =>
      rcases components_of_relative h with ⟨rest, hpieces, hcomponents⟩ | ⟨-, hcomponents⟩
      · -- a `.` at the front is not the name at the end
        rcases List.append_eq_cons_iff.mp (hp.symm.trans hpieces) with ⟨-, hne⟩ | ⟨rest, rfl, rfl⟩
        · cases hne
          exact absurd rfl hname.2.2.1
        · exact ⟨_ :: _, by rw [hcomponents, hlast]; rfl⟩
      · exact ⟨_, by rw [hcomponents, hp, hlast]⟩
  obtain ⟨inner, hcomponents⟩ := hcomponents
  unfold fileName?
  rw [hcomponents, List.getLast?_concat]

/-! ### Another file name -/

/-- A name behind a path, which may be empty. -/
theorem join_name (base : Path) {name : String} (hname : IsName name) :
    (base.join ⟨name⟩).pieces = base.pieces ++ [name] ∧
      (base.join ⟨name⟩).isAbsolute = base.isAbsolute ∧
      (base.join ⟨name⟩).endsInSlash = false := by
  have hrelative := isAbsolute_of_notMem hname.2.1
  have hpieces : (⟨name⟩ : Path).pieces = [name] := by
    rw [pieces_eq, piecesOf_of_notMem hname.1 hname.2.1]
  have hends : (⟨name⟩ : Path).endsInSlash = false := by
    unfold endsInSlash
    rw [decide_eq_false_iff_not]
    exact fun hlast => hname.2.1 (List.mem_of_getLast? hlast)
  by_cases hbase : base.text = ""
  · have hjoin : base.join ⟨name⟩ = ⟨name⟩ := by
      unfold join
      rw [hrelative, hbase]
      exact congrArg Path.mk String.empty_append
    have hempty : base = ⟨""⟩ := congrArg Path.mk hbase
    rw [hjoin, hempty]
    exact ⟨hpieces, hrelative, hends⟩
  · refine ⟨hpieces ▸ pieces_join hbase hrelative, isAbsolute_join hbase hrelative, ?_⟩
    rw [Bool.eq_false_iff, Ne, endsInSlash_join hbase hrelative, not_or, hends]
    exact ⟨hname.1, Bool.false_ne_true⟩

/-- What a path asks for in front of its last name, without `.`. -/
def above (p : Path) : List String := p.pieces.dropLast.filter (· ≠ ".")

/-- A path with another file name asks for the same names in front of it. -/
theorem withFileName_spec {p : Path} {front : List String} {name new : String}
    (hp : p.pieces = front ++ [name]) (hname : IsName name) (hnew : IsName new) :
    p.fileName? = some name ∧ (p.withFileName new).above = p.above ∧
      (∃ others, (p.withFileName new).pieces = others ++ [new]) ∧
      (p.withFileName new).isAbsolute = p.isAbsolute ∧
      (p.withFileName new).endsInSlash = false := by
  have hfileName := fileName?_of_pieces hp hname
  have hpath : p.withFileName new = p.front.join ⟨new⟩ := by
    unfold withFileName
    rw [hfileName]
  obtain ⟨hpieces, habsolute, hslash⟩ := join_name p.front hnew
  obtain ⟨hnames, hroot⟩ := front_spec hp hname
  rw [hpath]
  refine ⟨hfileName, ?_, ⟨_, hpieces⟩, habsolute.trans hroot, hslash⟩
  unfold above
  rw [hpieces, hp, List.dropLast_concat, List.dropLast_concat, hnames]

end Path

end PackageRelease
