import Mathlib.Data.List.Basic
import Mathlib.Data.List.Induction
import PackageRelease.Proofs.Path.Components

/-! # Paths behind a directory

  A path that begins with a directory goes on with pieces: texts between slashes, of which an empty
  one and a `.` name nothing. The key idea: what such a path asks for behind the directory, and how
  its text ends, can be read off the pieces alone. So it does not matter how the directory is
  written, and the same pieces ask for the same names behind two directories.
-/

namespace PackageRelease

namespace Text

/-- What stands in front of the first piece, without the character, becomes part of it. -/
theorem splitWhere_append_of_forall {p : Char → Bool} {front cs first : List Char}
    {rest : List (List Char)} (hfront : ∀ c ∈ front, p c = false)
    (h : splitWhere p cs = first :: rest) :
    splitWhere p (front ++ cs) = (front ++ first) :: rest := by
  induction front with
  | nil => exact h
  | cons c front ih =>
    have hrest := ih fun d hd => hfront d (List.mem_cons_of_mem c hd)
    obtain ⟨first', rest', hsplit, hcons⟩ :=
      splitWhere_cons_of_neg (hfront c List.mem_cons_self) (front ++ cs)
    rw [hrest] at hsplit
    obtain ⟨rfl, rfl⟩ := List.cons.inj hsplit
    exact hcons

/-- The last piece ends as the text does. -/
theorem splitWhere_concat_of_neg {p : Char → Bool} {c : Char} (hc : p c = false)
    (cs : List Char) : ∃ front last, splitWhere p (cs ++ [c]) = front ++ [last ++ [c]] := by
  induction cs with
  | nil => exact ⟨[], [], splitWhere_of_forall fun d hd => List.mem_singleton.mp hd ▸ hc⟩
  | cons d cs ih =>
    obtain ⟨front, last, hcs⟩ := ih
    rw [List.cons_append]
    by_cases hd : p d = true
    · rw [splitWhere_cons_of_pos hd, hcs]
      exact ⟨[] :: front, last, rfl⟩
    · obtain ⟨first, rest, hsplit, hcons⟩ := splitWhere_cons_of_neg (by simpa using hd) (cs ++ [c])
      rw [hcons]
      rw [hcs] at hsplit
      -- the character belongs to the first piece, which may be the last one too
      cases front with
      | nil =>
        obtain ⟨rfl, rfl⟩ := List.cons.inj hsplit
        exact ⟨[], d :: last, rfl⟩
      | cons next front =>
        obtain ⟨rfl, rfl⟩ := List.cons.inj hsplit
        exact ⟨(d :: next) :: front, last, rfl⟩

theorem getLast?_split {text : String} (h : text ≠ "") :
    (⟨text⟩ : Path).endsInSlash = true ↔ (split '/' text).getLast? = some "" := by
  unfold Path.endsInSlash split
  rw [decide_eq_true_iff, List.getLast?_map]
  rcases text.toList.eq_nil_or_concat' with hnil | ⟨cs, c, hcs⟩
  · exact absurd (String.toList_eq_nil_iff.mp hnil) h
  rw [hcs, List.getLast?_concat, Option.some_inj]
  by_cases hc : c = '/'
  · rw [hc, splitWhere_append_cons rfl, List.getLast?_append]
    exact iff_of_true rfl rfl
  · obtain ⟨front, last, hsplit⟩ := @splitWhere_concat_of_neg (· == '/') c (by simpa using hc) cs
    rw [hsplit, List.getLast?_concat]
    refine iff_of_false hc fun hempty => ?_
    have hlast := congrArg String.toList (Option.some.inj hempty)
    rw [String.toList_ofList] at hlast
    exact List.append_ne_nil_of_right_ne_nil last (List.cons_ne_nil c []) hlast

/-- How many octets texts take, each with a slash behind it. -/
def octets : List String → Nat
  | [] => 0
  | s :: rest => s.utf8ByteSize + 1 + octets rest

theorem octets_cons (s : String) (rest : List String) :
    octets (s :: rest) = s.utf8ByteSize + 1 + octets rest := rfl

theorem octets_append (front back : List String) :
    octets (front ++ back) = octets front + octets back := by
  induction front with
  | nil => exact (Nat.zero_add _).symm
  | cons s front ih =>
    rw [List.cons_append, octets_cons, octets_cons, ih]
    exact (Nat.add_assoc _ _ _).symm

theorem octets_replicate (n : Nat) (s : String) :
    octets (List.replicate n s) = n * (s.utf8ByteSize + 1) := by
  induction n with
  | zero => exact (Nat.zero_mul _).symm
  | succ n ih => rw [List.replicate_succ, octets_cons, ih, Nat.succ_mul, Nat.add_comm]

theorem length_le_octets (texts : List String) : texts.length ≤ octets texts := by
  induction texts with
  | nil => exact Nat.le_refl _
  | cons s rest ih =>
    rw [octets_cons, List.length_cons]
    omega

/-- The pieces hold the whole text but the slashes between them. -/
theorem octets_split (text : String) : octets (split '/' text) = text.utf8ByteSize + 1 := by
  unfold split
  generalize hcs : text.toList = cs
  obtain rfl : String.ofList cs = text := by rw [← hcs, String.ofList_toList]
  clear hcs
  induction cs with
  | nil => rfl
  | cons c cs ih =>
    rw [String.ofList_cons, String.utf8ByteSize_append, String.utf8ByteSize_singleton]
    by_cases hc : c = '/'
    · subst hc
      have hslash : '/'.utf8Size = 1 := rfl
      have hempty : (String.ofList []).utf8ByteSize = 0 := rfl
      rw [splitWhere_cons_of_pos rfl, List.map_cons, octets_cons, hslash]
      omega
    · obtain ⟨first, rest, hsplit, hcons⟩ :=
        @splitWhere_cons_of_neg (· == '/') c (by simpa using hc) cs
      rw [hsplit, List.map_cons, octets_cons] at ih
      rw [hcons, List.map_cons, octets_cons, String.ofList_cons, String.utf8ByteSize_append,
        String.utf8ByteSize_singleton]
      omega

theorem length_split_le (text : String) : (split '/' text).length ≤ text.utf8ByteSize + 1 := by
  rw [← octets_split]
  exact length_le_octets _

/-- A text without a character is a single piece. -/
theorem split_of_not_mem {c : Char} {text : String} (h : c ∉ text.toList) :
    split c text = [text] := by
  unfold split
  rw [splitWhere_of_forall fun d hd => ?_, List.map_singleton, String.ofList_toList]
  rw [beq_eq_false_iff_ne]
  rintro rfl
  exact h hd

/-- The pieces in front of a character and those behind it. -/
theorem split_append {c : Char} {mark : String} (hmark : mark.toList = [c])
    (before after : String) :
    split c (before ++ mark ++ after) = split c before ++ split c after := by
  unfold split
  rw [String.toList_append, String.toList_append, hmark, List.append_assoc,
    List.singleton_append, splitWhere_append_cons (p := (· == c)) (beq_self_eq_true c),
    List.map_append]

/-- Texts without a slash are what stands between the slashes that join them. -/
theorem split_join {texts : List String} (hne : texts ≠ []) (h : ∀ s ∈ texts, '/' ∉ s.toList) :
    split '/' (join "/" texts) = texts := by
  induction texts with
  | nil => exact absurd rfl hne
  | cons s rest ih =>
    have hs := split_of_not_mem (h s List.mem_cons_self)
    cases rest with
    | nil => exact hs
    | cons t rest =>
      have hrest := ih (List.cons_ne_nil _ _) fun u hu => h u (List.mem_cons_of_mem _ hu)
      have hjoin : join "/" (s :: t :: rest) = s ++ "/" ++ join "/" (t :: rest) := rfl
      rw [hjoin, split_append rfl, hs, hrest, List.singleton_append]

end Text

namespace Path

/-- The pieces that name something. -/
def named (pieces : List String) : List String := pieces.filter fun s => s ≠ "" ∧ s ≠ "."

/-- How many pieces name nothing. -/
def blanks (pieces : List String) : Nat := pieces.countP fun s => s = "" ∨ s = "."

/-- Whether pieces stay below where they start: they hold no slash, and none of them is a `..`. -/
def Descend (pieces : List String) : Prop := ∀ s ∈ pieces, '/' ∉ s.toList ∧ s ≠ ".."

/-- Whether the last piece names something. -/
def Settled (pieces : List String) : Prop := ∃ front last, pieces = front ++ [last] ∧
  last ≠ "" ∧ last ≠ "."

section pieces
variable {pieces : List String}

theorem isName_of_mem_named (h : Descend pieces) : ∀ name ∈ named pieces, IsName name := by
  intro name hname
  obtain ⟨hmem, hne⟩ := List.mem_filter.mp hname
  obtain ⟨hslash, hparent⟩ := h name hmem
  obtain ⟨hempty, hdot⟩ : name ≠ "" ∧ name ≠ "." := by simpa using hne
  exact ⟨hempty, hslash, hdot, hparent⟩

theorem filter_eq_named (pieces : List String) :
    (pieces.filter (· ≠ "")).filter (· ≠ ".") = named pieces := by
  unfold named
  rw [List.filter_filter]
  exact List.filter_congr fun s _ => by simp [Bool.and_comm]

theorem named_append (front back : List String) : named (front ++ back) = named front ++ named back :=
  List.filter_append _ _

theorem named_concat {last : String} (hempty : last ≠ "") (hdot : last ≠ ".") (front : List String) :
    named (front ++ [last]) = named front ++ [last] := by
  rw [named_append]
  unfold named
  rw [List.filter_cons_of_pos (by simp [hempty, hdot]), List.filter_nil]

theorem named_of_isName {names : List String} (h : ∀ name ∈ names, IsName name) :
    named names = names := by
  unfold named
  rw [List.filter_eq_self]
  intro name hname
  obtain ⟨hempty, -, hdot, -⟩ := h name hname
  simp [hempty, hdot]

theorem blanks_append (front back : List String) :
    blanks (front ++ back) = blanks front + blanks back := List.countP_append

theorem blanks_le (pieces : List String) : blanks pieces ≤ pieces.length := List.countP_le_length

theorem blanks_of_isName {names : List String} (h : ∀ name ∈ names, IsName name) :
    blanks names = 0 := by
  unfold blanks
  rw [List.countP_eq_zero]
  intro name hname
  obtain ⟨hempty, -, hdot, -⟩ := h name hname
  simp [hempty, hdot]

theorem Descend.append {front back : List String} (hfront : Descend front) (hback : Descend back) :
    Descend (front ++ back) := by
  intro s hs
  rcases List.mem_append.mp hs with h | h
  · exact hfront s h
  · exact hback s h

/-- Behind the first component, a `.` and an empty piece leave no component. -/
theorem filterMap_ofPiece?_eq (h : Descend pieces) :
    (pieces.filter (· ≠ "")).filterMap Component.ofPiece? = (named pieces).map .name := by
  induction pieces with
  | nil => rfl
  | cons s rest ih =>
    have hrest := ih fun t ht => h t (List.mem_cons_of_mem s ht)
    obtain ⟨-, hparent⟩ := h s List.mem_cons_self
    unfold named at hrest ⊢
    by_cases hempty : s = ""
    · rw [List.filter_cons_of_neg (by simp [hempty]), List.filter_cons_of_neg (by simp [hempty])]
      exact hrest
    rw [List.filter_cons_of_pos (by simp [hempty]), List.filterMap_cons]
    by_cases hdot : s = "."
    · subst hdot
      rw [List.filter_cons_of_neg (by simp)]
      exact hrest
    · rw [List.filter_cons_of_pos (by simp [hempty, hdot]), List.map_cons, ← hrest]
      unfold Component.ofPiece?
      rw [if_neg hdot, if_neg hparent]

theorem slashed_map_name (names : List String) :
    slashed (names.map .name) = Text.join "/" names := by
  unfold slashed
  rw [List.map_map]
  exact congrArg (Text.join "/") (List.map_id names)

/-- Names with slashes between them take one octet more for each of them but the last. -/
theorem size_join_names {names : List String} (hne : names ≠ []) :
    (Text.join "/" names).utf8ByteSize + 1 = Text.octets names := by
  induction names with
  | nil => exact absurd rfl hne
  | cons s rest ih =>
    cases rest with
    | nil => rfl
    | cons t rest =>
      have hrest := ih (List.cons_ne_nil _ _)
      have hjoin : Text.join "/" (s :: t :: rest) = s ++ "/" ++ Text.join "/" (t :: rest) := rfl
      have hslash : "/".utf8ByteSize = 1 := rfl
      rw [Text.octets_cons, hjoin, String.utf8ByteSize_append, String.utf8ByteSize_append, hslash]
      omega

theorem size_slashed_le (names : List String) :
    (slashed (names.map .name)).utf8ByteSize ≤ Text.octets names := by
  rw [slashed_map_name]
  by_cases hne : names = []
  · rw [hne]
    exact Nat.le_refl _
  · exact Nat.le_trans (Nat.le_succ _) (Nat.le_of_eq (size_join_names hne))

/-- What pieces take in a text is bounded by what their names take. -/
theorem octets_le_slashed (pieces : List String) : Text.octets pieces ≤
      (slashed ((named pieces).map .name)).utf8ByteSize + 2 * blanks pieces + 1 := by
  have hnamed : Text.octets (named pieces) ≤
      (Text.join "/" (named pieces)).utf8ByteSize + 1 := by
    by_cases hne : named pieces = []
    · rw [hne]
      exact Nat.zero_le _
    · exact Nat.le_of_eq (size_join_names hne).symm
  have hblanks : Text.octets pieces ≤ Text.octets (named pieces) + 2 * blanks pieces := by
    unfold named blanks
    clear hnamed
    induction pieces with
    | nil => exact Nat.zero_le _
    | cons s rest ih =>
      by_cases hblank : s = "" ∨ s = "."
      · -- a piece without a name takes two octets at most, with the slash behind it
        have hsize : s.utf8ByteSize ≤ 1 := by
          rcases hblank with rfl | rfl <;> decide
        rw [List.filter_cons_of_neg (by simpa [← or_iff_not_imp_left] using hblank),
          List.countP_cons_of_pos (by simpa using hblank), Text.octets_cons]
        omega
      · rw [List.filter_cons_of_pos (by simpa [not_or] using hblank),
          List.countP_cons_of_neg (by simpa using hblank), Text.octets_cons, Text.octets_cons]
        omega
  rw [slashed_map_name]
  omega

end pieces

/-! ### Paths -/

/-- Whether a path goes on behind a directory with some pieces. -/
structure Extends (d : Path) (pieces : List String) (p : Path) : Prop where
  /-- The path is not empty. -/
  text_ne : p.text ≠ ""
  /-- It starts where the directory starts. -/
  isAbsolute_eq : p.isAbsolute = d.isAbsolute
  /-- Its pieces are those of the directory and these. -/
  pieces_eq : p.pieces = d.pieces ++ pieces.filter (· ≠ "")
  /-- It ends in a slash if its last piece is empty. -/
  endsInSlash_iff : pieces ≠ [] → (p.endsInSlash = true ↔ pieces.getLast? = some "")
  /-- It has no further octets, but for one slash. -/
  size_le : p.text.utf8ByteSize ≤
    d.text.utf8ByteSize + Text.octets pieces + 1

variable {d p : Path} {pieces : List String}

/-- A directory extends itself by nothing. -/
theorem extends_self (h : d.text ≠ "") : Extends d [] d where
  text_ne := h
  isAbsolute_eq := rfl
  pieces_eq := (List.append_nil _).symm
  endsInSlash_iff hne := absurd rfl hne
  size_le := Nat.le_succ _

theorem isAbsolute_of_notMem {s : String} (h : '/' ∉ s.toList) :
    (⟨s⟩ : Path).isAbsolute = false := by
  unfold isAbsolute
  rw [decide_eq_false_iff_not]
  exact fun hhead => h (List.mem_of_head? hhead)

theorem pieces_of_notMem {s : String} (h : '/' ∉ s.toList) :
    (⟨s⟩ : Path).pieces = [s].filter (· ≠ "") := by
  rw [pieces_eq]
  by_cases hempty : s = ""
  · subst hempty
    rfl
  · rw [piecesOf_of_notMem hempty h, List.filter_cons_of_pos (by simpa using hempty),
      List.filter_nil]

/-- The size of a joined path: there is one slash more at most. -/
theorem size_join_le (base : Path) {other : Path} (hother : other.isAbsolute = false) :
    (base.join other).text.utf8ByteSize ≤
      base.text.utf8ByteSize + (other.text.utf8ByteSize + 1) := by
  have hslash : "/".utf8ByteSize = 1 := rfl
  unfold Path.join
  rw [hother, if_neg Bool.false_ne_true]
  split
  · rw [String.utf8ByteSize_append]
    omega
  · rw [String.utf8ByteSize_append, String.utf8ByteSize_append, hslash]
    omega

theorem le_size_join (base : Path) {other : Path} (hother : other.isAbsolute = false) :
    base.text.utf8ByteSize + other.text.utf8ByteSize ≤ (base.join other).text.utf8ByteSize := by
  unfold Path.join
  rw [hother, if_neg Bool.false_ne_true]
  split
  · exact Nat.le_of_eq String.utf8ByteSize_append.symm
  · rw [String.utf8ByteSize_append, String.utf8ByteSize_append]
    omega

/-- A joined path ends as the second one does, unless that is empty. -/
theorem endsInSlash_join {base other : Path} (hbase : base.text ≠ "")
    (hother : other.isAbsolute = false) :
    (base.join other).endsInSlash = true ↔ other.text = "" ∨ other.endsInSlash = true := by
  have htext : ∃ front, (base.join other).text.toList = front ++ '/' :: other.text.toList := by
    rcases join_cases hbase hother with ⟨front, -, hjoin⟩ | hjoin
    · exact ⟨front, hjoin⟩
    · exact ⟨_, hjoin⟩
  obtain ⟨front, hfront⟩ := htext
  unfold endsInSlash
  rw [hfront, decide_eq_true_iff, decide_eq_true_iff, List.getLast?_append]
  by_cases hempty : other.text = ""
  · rw [hempty]
    exact iff_of_true rfl (.inl rfl)
  · have hne : other.text.toList ≠ [] := fun h => hempty (String.toList_eq_nil_iff.mp h)
    rw [List.getLast?_cons, List.getLast?_eq_some_getLast hne]
    simp [hempty]

theorem text_join_ne {base other : Path} (hbase : base.text ≠ "")
    (hother : other.isAbsolute = false) : (base.join other).text ≠ "" := by
  intro hempty
  rcases join_cases hbase hother with ⟨front, -, hjoin⟩ | hjoin
  all_goals
    rw [hempty] at hjoin
    simp at hjoin

theorem Extends.join (h : Extends d pieces p) {s : String} (hs : '/' ∉ s.toList) :
    Extends d (pieces ++ [s]) (p.join ⟨s⟩) := by
  have hrelative := isAbsolute_of_notMem hs
  refine ⟨text_join_ne h.text_ne hrelative, ?_, ?_, fun _ => ?_, ?_⟩
  · rw [isAbsolute_join h.text_ne hrelative, h.isAbsolute_eq]
  · rw [pieces_join h.text_ne hrelative, h.pieces_eq, pieces_of_notMem hs, List.filter_append,
      List.append_assoc]
  · rw [endsInSlash_join h.text_ne hrelative, List.getLast?_concat, Option.some_inj]
    refine or_iff_left_of_imp fun hends => absurd ?_ hs
    exact List.mem_of_getLast? (of_decide_eq_true hends)
  · have hjoin := size_join_le p hrelative
    have hsize := h.size_le
    have hlast : Text.octets [s] = s.utf8ByteSize + 1 := rfl
    rw [Text.octets_append, hlast]
    have hgiven : (⟨s⟩ : Path).text.utf8ByteSize = s.utf8ByteSize := rfl
    omega

/-- Several names or blanks behind a path, one after the other. -/
def extend (p : Path) (pieces : List String) : Path := pieces.foldl (fun p s => p.join ⟨s⟩) p

theorem size_extend_le (p : Path) {pieces : List String} (hpieces : ∀ s ∈ pieces, '/' ∉ s.toList) :
    (extend p pieces).text.utf8ByteSize ≤
      p.text.utf8ByteSize + Text.octets pieces := by
  induction pieces generalizing p with
  | nil => exact Nat.le_refl _
  | cons s pieces ih =>
    have hrest := ih (p.join ⟨s⟩) fun t ht => hpieces t (List.mem_cons_of_mem s ht)
    have hjoin : (p.join ⟨s⟩).text.utf8ByteSize ≤ p.text.utf8ByteSize + (s.utf8ByteSize + 1) :=
      size_join_le p (isAbsolute_of_notMem (hpieces s List.mem_cons_self))
    have hextend : extend p (s :: pieces) = extend (p.join ⟨s⟩) pieces := rfl
    rw [hextend, Text.octets_cons]
    omega

theorem Extends.extend (h : Extends d pieces p) {more : List String}
    (hmore : ∀ s ∈ more, '/' ∉ s.toList) : Extends d (pieces ++ more) (Path.extend p more) := by
  induction more generalizing pieces p with
  | nil =>
    rw [List.append_nil]
    exact h
  | cons s more ih =>
    have hrest := ih (h.join (hmore s List.mem_cons_self)) fun t ht =>
      hmore t (List.mem_cons_of_mem s ht)
    rw [List.append_assoc] at hrest
    exact hrest

/-- A relative path behind a directory extends it by what stands between its slashes. -/
theorem extends_join (hd : d.text ≠ "") {rest : String} (hrest : rest ≠ "")
    (hrelative : (⟨rest⟩ : Path).isAbsolute = false) :
    Extends d (Text.split '/' rest) (d.join ⟨rest⟩) := by
  refine ⟨text_join_ne hd hrelative, isAbsolute_join hd hrelative, ?_, fun _ => ?_, ?_⟩
  · rw [pieces_join hd hrelative]
    congr 1
    unfold pieces
    exact List.filter_congr fun s _ => by by_cases h : s = "" <;> simp [h]
  · rw [endsInSlash_join hd hrelative, Text.getLast?_split hrest]
    exact or_iff_right hrest
  · exact Nat.le_trans (size_join_le d hrelative)
      (by rw [Text.octets_split]; exact Nat.le_succ _)

/-- Names behind a directory extend it by themselves. -/
theorem extends_join_slashed (hd : d.text ≠ "") {names : List String}
    (h : ∀ name ∈ names, IsName name) :
    Extends d names (d.join ⟨slashed (names.map .name)⟩) := by
  have hstep : ∀ c ∈ names.map Component.name, c.IsStep := by
    intro c hc
    obtain ⟨name, hname, rfl⟩ := List.mem_map.mp hc
    exact h name hname
  have hrelative := isAbsolute_slashed hstep
  cases names with
  | nil =>
    have hnothing : (⟨slashed []⟩ : Path).pieces = [] := rfl
    refine ⟨text_join_ne hd hrelative, isAbsolute_join hd hrelative, ?_, fun hne => absurd rfl hne, ?_⟩
    · rw [pieces_join hd hrelative]
      exact congrArg (d.pieces ++ ·) hnothing
    · exact Nat.le_trans (size_join_le d hrelative) (Nat.le_refl _)
  | cons name names =>
    have hsplit : Text.split '/' (slashed ((name :: names).map .name)) = name :: names := by
      rw [slashed_map_name]
      exact Text.split_join (List.cons_ne_nil _ _) fun s hs => (h s hs).2.1
    have hempty : slashed ((name :: names).map .name) ≠ "" := by
      intro hempty
      rw [hempty] at hsplit
      have hnothing : Text.split '/' "" = [""] := rfl
      rw [hnothing] at hsplit
      cases hsplit
      exact (h "" List.mem_cons_self).1 rfl
    have hextends := extends_join hd hempty hrelative
    rw [hsplit] at hextends
    exact hextends

/-! ### Components -/

/-- Behind a path, the pieces that follow add their components. -/
theorem components_append {more : List String} (hd : d.text ≠ "")
    (habsolute : p.isAbsolute = d.isAbsolute) (hpieces : p.pieces = d.pieces ++ more) :
    p.components = d.components ++ more.filterMap Component.ofPiece? := by
  cases h : d.isAbsolute with
  | true =>
    rw [components_of_isAbsolute (habsolute.trans h), components_of_isAbsolute h, hpieces,
      List.filterMap_append]
    rfl
  | false =>
    have hne := components_ne_nil hd
    rcases components_of_relative h with ⟨rest, hdot, hcomponents⟩ | ⟨hdot, hcomponents⟩
    · rw [hdot, List.cons_append] at hpieces
      rcases components_of_relative (habsolute.trans h) with ⟨rest', hdot', hp⟩ | ⟨hdot', -⟩
      · rw [hpieces] at hdot'
        cases hdot'
        rw [hp, hcomponents, List.filterMap_append]
        rfl
      · rw [hpieces] at hdot'
        exact absurd rfl hdot'
    · -- the first piece is one of the directory
      obtain ⟨first, others, hfirst⟩ : ∃ first others, d.pieces = first :: others := by
        refine List.exists_cons_of_ne_nil fun hnil => hne ?_
        rw [hcomponents, hnil]
        rfl
      rw [hfirst] at hdot
      rcases components_of_relative (habsolute.trans h) with ⟨_, hdot', -⟩ | ⟨-, hp⟩
      · rw [hpieces, hfirst] at hdot'
        cases hdot'
        exact absurd rfl hdot
      · rw [hp, hcomponents, hpieces, List.filterMap_append]

/-- A piece on its own asks for its name, if it has one. -/
theorem steps_piece {s : String} (hs : '/' ∉ s.toList) :
    (⟨s⟩ : Path).components.steps = named [s] := by
  rw [steps_components, pieces_of_notMem hs, filter_eq_named]

/-- A piece behind a path adds its name, if it has one. -/
theorem steps_join_piece {s : String} (hp : p.text ≠ "") (hs : '/' ∉ s.toList) :
    (p.join ⟨s⟩).components.steps = p.components.steps ++ named [s] := by
  rw [steps_components, steps_components, pieces_join hp (isAbsolute_of_notMem hs),
    pieces_of_notMem hs, List.filter_append, filter_eq_named]

theorem head?_components_join {s : String} (hp : p.text ≠ "") (hs : '/' ∉ s.toList) :
    (p.join ⟨s⟩).components.head? = p.components.head? := by
  have hrelative := isAbsolute_of_notMem hs
  rw [components_append hp (isAbsolute_join hp hrelative) (pieces_join hp hrelative),
    List.head?_append_of_ne_nil _ (components_ne_nil hp)]

/-- Behind the components of the directory come the names of the pieces. -/
theorem Extends.components_eq (h : Extends d pieces p) (hd : d.text ≠ "")
    (hpieces : Descend pieces) :
    p.components = d.components ++ (named pieces).map .name := by
  rw [components_append hd h.isAbsolute_eq h.pieces_eq, filterMap_ofPiece?_eq hpieces]

/-- A path that ends in a name asks for nothing behind it. -/
theorem Extends.pieces_concat (h : Extends d pieces p) (hsettled : Settled pieces) :
    ∃ front last, pieces = front ++ [last] ∧ last ≠ "" ∧ last ≠ "." ∧ p.endsInSlash = false ∧
      p.pieces = (d.pieces ++ front.filter (· ≠ "")) ++ [last] := by
  obtain ⟨front, last, rfl, hempty, hdot⟩ := hsettled
  refine ⟨front, last, rfl, hempty, hdot, ?_, ?_⟩
  · have hslash := h.endsInSlash_iff (List.append_ne_nil_of_right_ne_nil _ (List.cons_ne_nil _ _))
    rw [List.getLast?_concat, Option.some_inj] at hslash
    simpa [hempty] using hslash
  · rw [h.pieces_eq, List.filter_append, List.filter_cons_of_pos (by simpa using hempty),
      List.filter_nil, List.append_assoc]

/-! ### Side by side -/

/-- Whether two paths go on behind two directories with the same pieces, of which only so many name
    nothing. -/
structure Beside (d₁ d₂ : Path) (count : Nat) (pieces : List String) (p₁ p₂ : Path) : Prop where
  /-- The first path goes on behind the first directory. -/
  first : Extends d₁ pieces p₁
  /-- The second path goes on behind the second directory. -/
  second : Extends d₂ pieces p₂
  /-- The pieces stay below the directories. -/
  descend : Descend pieces
  /-- Only so many pieces name nothing. -/
  blanks_le : blanks pieces ≤ count

namespace Beside

variable {d₁ d₂ p₁ p₂ : Path} {count : Nat} {pieces : List String}

theorem symm (h : Beside d₁ d₂ count pieces p₁ p₂) : Beside d₂ d₁ count pieces p₂ p₁ :=
  ⟨h.second, h.first, h.descend, h.blanks_le⟩

theorem mono (h : Beside d₁ d₂ count pieces p₁ p₂) {more : Nat} (hmore : count ≤ more) :
    Beside d₁ d₂ more pieces p₁ p₂ :=
  { h with blanks_le := Nat.le_trans h.blanks_le hmore }

/-- A further piece on both sides. -/
theorem join (h : Beside d₁ d₂ count pieces p₁ p₂) {s : String} (hslash : '/' ∉ s.toList)
    (hparent : s ≠ "..") :
    Beside d₁ d₂ (count + blanks [s]) (pieces ++ [s]) (p₁.join ⟨s⟩) (p₂.join ⟨s⟩) where
  first := h.first.join hslash
  second := h.second.join hslash
  descend := h.descend.append fun t ht => List.mem_singleton.mp ht ▸ ⟨hslash, hparent⟩
  blanks_le := by
    rw [blanks_append]
    exact Nat.add_le_add_right h.blanks_le _

/-- A further name on both sides. -/
theorem join_name (h : Beside d₁ d₂ count pieces p₁ p₂) {name : String} (hname : IsName name) :
    Beside d₁ d₂ count (pieces ++ [name]) (p₁.join ⟨name⟩) (p₂.join ⟨name⟩) := by
  have hjoin := h.join hname.2.1 hname.2.2.2
  rw [blanks_of_isName fun s hs => List.mem_singleton.mp hs ▸ hname] at hjoin
  exact hjoin

end Beside

end Path

end PackageRelease
