import Mathlib.Data.List.Induction
import PackageRelease.Proofs.Text.Searching
import PackageRelease.Proofs.Url.Characters
import PackageRelease.Proofs.Url.Extension

/-! # Paths of addresses

  A path in its normal form is read again as it stands, and a segment that is put behind it becomes
  its last one, unless it means a directory. The key idea: resolving only takes away segments that
  mean a directory, and a path in its normal form has none.
-/

namespace PackageRelease.Url

/-! ### Resolving -/

/-- Whether a segment means a directory, this one or the one above. -/
def IsDots (s : List Char) : Prop := isParent s = true ∨ isCurrent s = true

instance (s : List Char) : Decidable (IsDots s) := inferInstanceAs (Decidable (_ ∨ _))

/-- A segment that means a directory decodes to one dot or two. -/
theorem decode_of_isDots {s : List Char} (h : IsDots s) :
    Percent.decode s = Text.encode "." ∨ Percent.decode s = Text.encode ".." := by
  have hsame : ∀ {c d : Char}, Text.isLetter d = false → Text.lowerChar c = d → c = d := by
    intro c d hd hc
    have hcapital : ('A' ≤ d && d ≤ 'Z') = false := (Bool.or_eq_false_iff.mp hd).2
    rcases (Text.lowerChar_eq_iff hcapital).mp hc with rfl | ⟨-, hletter, -⟩
    · rfl
    · rw [hd] at hletter
      cases hletter
  have hdot : ∀ {c : Char} {rest : List Char}, Text.lowerChar c = '.' →
      Percent.decode (c :: rest) = Text.encode "." ++ Percent.decode rest := by
    intro c rest hc
    obtain rfl := hsame rfl hc
    exact Percent.decode_of_ne (by decide) rest
  have hcode : ∀ {a b c : Char} {rest : List Char}, Text.lowerChar a = '%' →
      Text.lowerChar b = '2' → Text.lowerChar c = 'e' →
      Percent.decode (a :: b :: c :: rest) = Text.encode "." ++ Percent.decode rest := by
    intro a b c rest ha hb hc
    obtain rfl := hsame rfl ha
    obtain rfl := hsame rfl hb
    have hdigit : Text.hexValue? c = some 14 := by
      rcases (Text.lowerChar_eq_iff rfl).mp hc with rfl | ⟨hletter, -, hcode | hcode⟩
      · rfl
      · obtain rfl : c = 'E' := Char.toNat_inj.mp (Nat.add_right_cancel (m := 32) hcode)
        rfl
      · obtain rfl : c = '\u0085' := Char.toNat_inj.mp hcode.symm
        cases hletter
    exact Percent.decode_code (m := 2) rfl hdigit rest
  have hnil : Percent.decode [] = [] := by rw [Percent.decode]
  -- each dot is written as itself or as its code, which gives four spellings of two and two of one
  unfold IsDots isParent isCurrent at h
  simp only [List.contains_eq_mem, decide_eq_true_eq, List.mem_cons, List.not_mem_nil, or_false,
    List.map_eq_cons_iff, List.map_eq_nil_iff] at h
  rcases h with (⟨a, _, rfl, ha, b, _, rfl, hb, rfl⟩ |
    ⟨a, _, rfl, ha, b, _, rfl, hb, c, _, rfl, hc, d, _, rfl, hd, rfl⟩ |
    ⟨a, _, rfl, ha, b, _, rfl, hb, c, _, rfl, hc, d, _, rfl, hd, rfl⟩ |
    ⟨a, _, rfl, ha, b, _, rfl, hb, c, _, rfl, hc, d, _, rfl, hd, e, _, rfl, he, f, _, rfl, hf, rfl⟩) |
    ⟨a, _, rfl, ha, rfl⟩ | ⟨a, _, rfl, ha, b, _, rfl, hb, c, _, rfl, hc, rfl⟩
  · rw [hdot ha, hdot hb, hnil]
    exact .inr rfl
  · rw [hcode ha hb hc, hdot hd, hnil]
    exact .inr rfl
  · rw [hdot ha, hcode hb hc hd, hnil]
    exact .inr rfl
  · rw [hcode ha hb hc, hcode hd he hf, hnil]
    exact .inr rfl
  · rw [hdot ha, hnil]
    exact .inl rfl
  · rw [hcode ha hb hc, hnil]
    exact .inl rfl

theorem resolve_cons {s : List Char} (hs : ¬ IsDots s) (directories : List (List Char))
    {rest : List (List Char)} (hrest : rest ≠ []) :
    resolve directories (s :: rest) = resolve (directories ++ [s]) rest := by
  obtain ⟨hparent, hcurrent⟩ := not_or.mp hs
  rw [resolve, if_neg hparent, if_neg hcurrent]
  exact fun h => hrest h

theorem mem_of_mem_leave {directories : List (List Char)} {s : List Char}
    (h : s ∈ leave directories) : s ∈ directories := by
  unfold leave at h
  split at h
  · exact h
  · exact List.dropLast_subset directories h

/-- What is left of a path are segments that mean no directory. -/
theorem mem_resolve {directories segments : List (List Char)} {s : List Char}
    (h : s ∈ resolve directories segments) :
    s ∈ directories ∨ s = [] ∨ s ∈ segments ∧ ¬ IsDots s := by
  have hend : ∀ {front : List (List Char)}, s ∈ front ++ [[]] → s ∈ front ∨ s = [] := by
    intro front h
    exact (List.mem_append.mp h).imp_right List.mem_singleton.mp
  fun_induction resolve directories segments with
  | case1 directories => exact (hend h).imp_right .inl
  | case2 directories last hparent => exact (hend h).imp mem_of_mem_leave .inl
  | case3 directories last hparent hcurrent => exact (hend h).imp_right .inl
  | case4 directories last hparent hcurrent =>
    refine (List.mem_append.mp h).imp_right fun h => .inr ?_
    obtain rfl := List.mem_singleton.mp h
    exact ⟨List.mem_cons_self, not_or.mpr ⟨hparent, hcurrent⟩⟩
  | case5 directories segment rest hrest hparent ih =>
    exact (ih h).imp mem_of_mem_leave (Or.imp_right (And.imp_left (List.mem_cons_of_mem _)))
  | case6 directories segment rest hrest hparent hcurrent ih =>
    exact (ih h).imp_right (Or.imp_right (And.imp_left (List.mem_cons_of_mem _)))
  | case7 directories segment rest hrest hparent hcurrent ih =>
    rcases ih h with h | h | ⟨h, hdots⟩
    · rcases List.mem_append.mp h with h | h
      · exact .inl h
      · obtain rfl := List.mem_singleton.mp h
        exact .inr (.inr ⟨List.mem_cons_self, not_or.mpr ⟨hparent, hcurrent⟩⟩)
    · exact .inr (.inl h)
    · exact .inr (.inr ⟨List.mem_cons_of_mem _ h, hdots⟩)

/-- Segments that mean no directory stay where they are. -/
theorem resolve_append {front : List (List Char)} (hfront : ∀ s ∈ front, ¬ IsDots s)
    (directories : List (List Char)) {back : List (List Char)} (hback : back ≠ []) :
    resolve directories (front ++ back) = resolve (directories ++ front) back := by
  induction front generalizing directories with
  | nil => rw [List.nil_append, List.append_nil]
  | cons s front ih =>
    obtain ⟨hs, hfront⟩ := List.forall_mem_cons.mp hfront
    rw [List.cons_append, resolve_cons hs directories (by simp [hback]), ih hfront,
      List.append_assoc, List.singleton_append]

/-- A resolved path ends in the last segment, unless that means a directory. -/
theorem resolve_eq (directories segments : List (List Char)) :
    ∃ front, resolve directories segments = front ++ [[]] ∨
      ∃ last, segments.getLast? = some last ∧ ¬ IsDots last ∧
        resolve directories segments = front ++ [last] := by
  -- the last segment of the rest is that of the whole
  have hlast : ∀ {segment : List Char} {rest : List (List Char)} {resolved : List (List Char)},
      (∃ front, resolved = front ++ [[]] ∨
        ∃ last, rest.getLast? = some last ∧ ¬ IsDots last ∧ resolved = front ++ [last]) →
      ∃ front, resolved = front ++ [[]] ∨
        ∃ last, (segment :: rest).getLast? = some last ∧ ¬ IsDots last ∧
          resolved = front ++ [last] := by
    rintro segment rest resolved ⟨front, h | ⟨last, hlast, h⟩⟩
    · exact ⟨front, .inl h⟩
    · refine ⟨front, .inr ⟨last, ?_, h⟩⟩
      rw [List.getLast?_cons, hlast]
      rfl
  fun_induction resolve directories segments with
  | case1 directories => exact ⟨_, .inl rfl⟩
  | case2 directories last hparent => exact ⟨_, .inl rfl⟩
  | case3 directories last hparent hcurrent => exact ⟨_, .inl rfl⟩
  | case4 directories last hparent hcurrent =>
    exact ⟨_, .inr ⟨last, rfl, not_or.mpr ⟨hparent, hcurrent⟩, rfl⟩⟩
  | case5 directories segment rest hrest hparent ih => exact hlast ih
  | case6 directories segment rest hrest hparent hcurrent ih => exact hlast ih
  | case7 directories segment rest hrest hparent hcurrent ih => exact hlast ih

/-! ### Segments -/

/-- A path of segments. -/
def pathOf (segments : List (List Char)) : List Char := segments.flatMap fun s => '/' :: s

/-- Whether a segment is in its normal form. -/
structure IsNormal (s : List Char) : Prop where
  /-- What has to be written as a code is. -/
  unreserved : ∀ c ∈ s, (Percent.isAlwaysEncoded c || Percent.inPath c) = false
  /-- It is one segment. -/
  undivided : ∀ c ∈ s, c ≠ '/' ∧ c ≠ '\\'
  /-- It means no directory. -/
  not_isDots : ¬ IsDots s

theorem IsNormal.isInner {s : List Char} (h : IsNormal s) : ∀ c ∈ s, IsInner c := fun c hc =>
  isInner_of_unreserved (h.unreserved c hc) (h.undivided c hc).1 (h.undivided c hc).2

theorem IsNormal.encode_eq {s : List Char} (h : IsNormal s) : Percent.encode Percent.inPath s = s :=
  Percent.encode_of_forall h.unreserved

theorem isNormal_nil : IsNormal [] where
  unreserved := List.forall_mem_nil _
  undivided := List.forall_mem_nil _
  not_isDots := by decide

/-- Where a path is divided. -/
def isDivider (c : Char) : Bool := c = '/' || c = '\\'

/-- The characters of a path behind its first slash. -/
def behindSlash (cs : List Char) : List Char :=
  match cs with
  | '/' :: rest | '\\' :: rest => rest
  | cs => cs

theorem normalPath_eq (cs : List Char) : (normalPath cs).toList =
    pathOf (resolve [] ((Text.splitWhere isDivider (behindSlash cs)).map
      (Percent.encode Percent.inPath))) := by
  unfold normalPath
  rw [String.toList_ofList]
  rfl

/-- What a resolved path is made of, if there was nothing else in front. -/
theorem isNormal_of_mem_resolve {front : List (List Char)} (hfront : ∀ s ∈ front, IsNormal s)
    {cs s : List Char} (h : s ∈ resolve front ((Text.splitWhere isDivider cs).map
      (Percent.encode Percent.inPath))) : IsNormal s := by
  rcases mem_resolve h with hs | rfl | ⟨hs, hdots⟩
  · exact hfront s hs
  · exact isNormal_nil
  · obtain ⟨piece, hpiece, rfl⟩ := List.mem_map.mp hs
    refine ⟨fun c hc => Percent.unreserved_of_mem_encode Percent.reservable_inPath hc, ?_, hdots⟩
    intro c hc
    rcases Percent.of_mem_encode hc with ⟨hc, -⟩ | rfl | hdigit
    · have hkept := Text.eq_false_of_mem_splitWhere hpiece c hc
      unfold isDivider at hkept
      simpa using hkept
    · decide
    · constructor
      · rintro rfl
        cases hdigit
      · rintro rfl
        cases hdigit

/-- A path in its normal form. -/
theorem exists_normalPath_eq (cs : List Char) : ∃ segments,
    (normalPath cs).toList = pathOf segments ∧ ∀ s ∈ segments, IsNormal s :=
  ⟨_, normalPath_eq cs, fun _ => isNormal_of_mem_resolve (List.forall_mem_nil _)⟩

/-! ### Paths that go on -/

theorem pathOf_concat (segments : List (List Char)) (s : List Char) :
    pathOf (segments ++ [s]) = pathOf segments ++ '/' :: s := by
  unfold pathOf
  rw [List.flatMap_append, List.flatMap_singleton]

theorem splitWhere_pathOf {p : Char → Bool} (hp : p '/' = true) {segments : List (List Char)}
    (h : ∀ s ∈ segments, ∀ c ∈ s, p c = false) (back : List Char) :
    Text.splitWhere p (pathOf segments ++ '/' :: back) = [] :: segments ++ Text.splitWhere p back := by
  induction segments using List.reverseRecOn generalizing back with
  | nil => exact Text.splitWhere_cons_of_pos hp back
  | append_singleton segments s ih =>
    obtain ⟨hfront, hs⟩ := List.forall_mem_append.mp h
    rw [pathOf_concat, List.append_assoc, List.cons_append, ih hfront,
      Text.splitWhere_append_cons hp, Text.splitWhere_of_forall (hs s List.mem_cons_self),
      ← List.append_assoc, List.cons_append]

theorem pathOf_injective {xs ys : List (List Char)} (hxs : ∀ s ∈ xs, '/' ∉ s)
    (hys : ∀ s ∈ ys, '/' ∉ s) (h : pathOf xs = pathOf ys) : xs = ys := by
  have hsplit : ∀ {zs : List (List Char)}, (∀ s ∈ zs, '/' ∉ s) →
      Text.splitWhere (· == '/') (pathOf zs ++ '/' :: []) = [] :: zs ++ [[]] := by
    intro zs hzs
    refine splitWhere_pathOf rfl (fun s hs c hc => ?_) []
    refine Bool.eq_false_iff.mpr fun heq => hzs s hs ?_
    rwa [← eq_of_beq heq]
  have hwhole := (hsplit hxs).symm.trans ((h ▸ rfl : _ = _).trans (hsplit hys))
  exact (List.cons.inj (List.append_cancel_right hwhole)).2

/-- A path that goes on behind a slash. -/
theorem normalPath_append {front : List (List Char)} (hfront : ∀ s ∈ front, IsNormal s)
    (back : List Char) : (normalPath (pathOf front ++ '/' :: back)).toList =
      pathOf (resolve front ((Text.splitWhere isDivider back).map
        (Percent.encode Percent.inPath))) := by
  have hslash : ∃ rest, pathOf front ++ '/' :: back = '/' :: rest := by
    cases front with
    | nil => exact ⟨back, rfl⟩
    | cons s front => exact ⟨_, rfl⟩
  obtain ⟨rest, hrest⟩ := hslash
  have hpieces : Text.splitWhere isDivider rest = front ++ Text.splitWhere isDivider back := by
    have hundivided : ∀ s ∈ front, ∀ c ∈ s, isDivider c = false := by
      intro s hs c hc
      unfold isDivider
      simpa using (hfront s hs).undivided c hc
    have hsplit := splitWhere_pathOf rfl hundivided back
    rw [hrest, Text.splitWhere_cons_of_pos rfl, List.cons_append] at hsplit
    exact (List.cons.inj hsplit).2
  have hencode : front.map (Percent.encode Percent.inPath) = front :=
    (List.map_congr_left fun s hs => (hfront s hs).encode_eq).trans (List.map_id front)
  rw [normalPath_eq, hrest]
  show pathOf (resolve [] ((Text.splitWhere isDivider rest).map _)) = _
  rw [hpieces, List.map_append, hencode, resolve_append (fun s hs => (hfront s hs).not_isDots),
    List.nil_append]
  rw [ne_eq, List.map_eq_nil_iff]
  exact Text.splitWhere_ne_nil _ _

/-! ### Slashes at the end -/

/-- A text without the slashes at its end. -/
def trimSlashes (cs : List Char) : List Char := (cs.reverse.dropWhile (· == '/')).reverse

theorem trimSlashes_append {c : Char} (hc : c ≠ '/') (front back : List Char) :
    trimSlashes (front ++ c :: back) = front ++ c :: trimSlashes back := by
  unfold trimSlashes
  rw [List.reverse_append, List.reverse_cons, List.append_assoc, List.singleton_append,
    dropWhile_append_cons (by simpa using hc), List.reverse_append, List.reverse_cons,
    List.reverse_reverse, List.append_assoc, List.singleton_append]

/-- Without the slashes at its end a path is made of the segments in front of them. -/
theorem exists_trimSlashes_eq {segments : List (List Char)} (h : ∀ s ∈ segments, IsNormal s) :
    ∃ front, trimSlashes (pathOf segments) = pathOf front ∧ ∀ s ∈ front, IsNormal s := by
  induction segments using List.reverseRecOn with
  | nil => exact ⟨[], rfl, List.forall_mem_nil _⟩
  | append_singleton segments s ih =>
    obtain ⟨hfront, hs⟩ := List.forall_mem_append.mp h
    cases s using List.reverseRecOn with
    | nil =>
      obtain ⟨front, htrim, hnormal⟩ := ih hfront
      refine ⟨front, ?_, hnormal⟩
      rw [← htrim, pathOf_concat]
      unfold trimSlashes
      rw [List.reverse_append]
      rfl
    | append_singleton t c _ =>
      refine ⟨_, ?_, h⟩
      have hc : c ≠ '/' := ((hs _ List.mem_cons_self).undivided c
        (List.mem_append_right _ List.mem_cons_self)).1
      rw [pathOf_concat, ← List.cons_append, ← List.append_assoc]
      exact trimSlashes_append hc _ []

end PackageRelease.Url
