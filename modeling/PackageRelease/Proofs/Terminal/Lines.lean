import PackageRelease.Proofs.Path.Extending
import PackageRelease.Terminal.Notice

/-! # Lines on a terminal

  Those who ask for details get further lines between the others. The key idea: every notice ends
  with a line break, and behind it may only come what switches its colours off; this stands in front
  of the next line. So a detail leaves the lines around it alone exactly if the colours have been
  switched off in front of it too.
-/

namespace PackageRelease

/-! ### Lines -/

namespace Text

/-- The lines of a text. What follows the last line break is a line unless it is empty. -/
def lines (text : String) : List String :=
  if (split '\n' text).getLast? = some "" then (split '\n' text).dropLast else split '\n' text

theorem split_ne_nil (c : Char) (text : String) : split c text ≠ [] := by
  unfold split
  rw [Ne, List.map_eq_nil_iff]
  exact splitWhere_ne_nil _ _

/-- A text without a line break stands in front of the first line. -/
theorem split_append_of_not_mem {front text first : String} {rest : List String}
    (hfront : '\n' ∉ front.toList) (h : split '\n' text = first :: rest) :
    split '\n' (front ++ text) = (front ++ first) :: rest := by
  unfold split at h ⊢
  obtain ⟨cs, css, hsplit, rfl, rfl⟩ := List.map_eq_cons_iff.mp h
  rw [String.toList_append, splitWhere_append_of_forall (fun c hc => ?_) hsplit, List.map_cons,
    String.ofList_append, String.ofList_toList]
  rw [beq_eq_false_iff_ne]
  rintro rfl
  exact hfront hc

theorem lines_sublist_split (text : String) : (lines text).Sublist (split '\n' text) := by
  unfold lines
  split
  · exact List.dropLast_sublist _
  · exact List.Sublist.refl _

/-- The lines in front of a line break and those behind it. -/
theorem lines_append_break (before after : String) :
    lines (before ++ "\n" ++ after) = split '\n' before ++ lines after := by
  have hne := split_ne_nil '\n' after
  unfold lines
  rw [split_append rfl, List.getLast?_append_of_ne_nil _ hne,
    List.dropLast_append_of_ne_nil hne]
  split <;> rfl

theorem join_cons (text : String) (texts : List String) :
    join "" (text :: texts) = text ++ join "" texts := by
  cases texts with
  | nil => simp [join]
  | cons _ _ => simp [join]

end Text

/-! ### Notices -/

namespace Notice

variable {v : Verbosity} {coloured : Bool} {channel : Channel} {notice : Notice}

theorem printed_cons_of_shown (hchannel : notice.channel = channel)
    (hshown : notice.isShown v = true) (rest : List Notice) :
    printed v coloured channel (notice :: rest) =
      notice.draw coloured ++ printed v coloured channel rest := by
  unfold printed
  rw [List.filter_cons_of_pos (by simp [hchannel, hshown]), List.map_cons, Text.join_cons]

theorem printed_cons_of_hidden (h : notice.channel = channel → notice.isShown v = false)
    (rest : List Notice) :
    printed v coloured channel (notice :: rest) = printed v coloured channel rest := by
  unfold printed
  rw [List.filter_cons_of_neg (by simpa using h)]

/-- Two ways of showing print the same if they show the same. -/
theorem printed_congr {w : Verbosity} {notices : List Notice}
    (h : ∀ notice ∈ notices, notice.channel = channel → notice.isShown v = notice.isShown w) :
    printed v coloured channel notices = printed w coloured channel notices := by
  unfold printed
  refine congrArg (fun shown => Text.join "" (List.map (draw coloured) shown))
    (List.filter_congr fun notice hmem => ?_)
  by_cases hchannel : notice.channel = channel
  · rw [h notice hmem hchannel]
  · simp [hchannel]

/-- Nothing is printed where nothing is shown. -/
theorem printed_eq_empty {notices : List Notice}
    (h : ∀ notice ∈ notices, notice.channel = channel → notice.isShown v = false) :
    printed v coloured channel notices = "" := by
  unfold printed
  rw [List.filter_eq_nil_iff.mpr fun notice hmem => by simpa using h notice hmem]
  rfl

/-- What goes to the other channel is shown to everyone. -/
theorem printed_error (v w : Verbosity) (coloured : Bool) (notices : List Notice) :
    printed v coloured .error notices = printed w coloured .error notices := by
  refine printed_congr fun notice _ hchannel => ?_
  cases notice with
  | failure text => rfl
  | _ => cases hchannel

/-- What stands behind the last line break of a notice. -/
def tail (coloured : Bool) : Notice → String
  | .info _ | .success _ | .warning _ | .failure _ | .detail _ | .heading _ => Style.off coloured
  | .item _ | .line _ | .advice _ | .data _ => ""

/-- Everything but advice is a text with a line break behind it. -/
theorem draw_eq (coloured : Bool) (h : ∀ suggestions, notice ≠ .advice suggestions) :
    ∃ body, notice.draw coloured = body ++ "\n" ++ notice.tail coloured := by
  have htoned (mark text : String) (hue : Hue) : toned coloured mark hue text =
      Style.paint ⟨hue, true⟩ coloured mark ++ Style.on ⟨hue, false⟩ coloured ++ " " ++ text ++
        "\n" ++ Style.off coloured := by
    unfold toned Style.paint
    simp only [String.append_assoc]
  cases notice with
  | advice suggestions => exact absurd rfl (h suggestions)
  | info text =>
    exact ⟨Style.paint ⟨.cyan, false⟩ coloured "ℹ" ++ " " ++ text, rfl⟩
  | success text =>
    exact ⟨Style.paint ⟨.green, true⟩ coloured "✓" ++ " " ++ text, rfl⟩
  | detail text =>
    exact ⟨Style.paint ⟨.blue, false⟩ coloured "→" ++ " " ++ text, rfl⟩
  | warning text => exact ⟨_, htoned "⚠" text .yellow⟩
  | failure text => exact ⟨_, htoned "✗" text .red⟩
  | heading text =>
    refine ⟨"\n" ++ Style.on ⟨.cyan, true⟩ coloured ++ "═══ " ++ text ++ " ═══", ?_⟩
    unfold draw Style.paint tail
    simp [String.append_assoc]
  | item text =>
    refine ⟨"    " ++ text, ?_⟩
    unfold draw indent tail
    rw [String.append_empty]
  | line text | data text =>
    refine ⟨text, ?_⟩
    unfold draw tail
    rw [String.append_empty]

/-! ### Details between other notices -/

/-- The user asks neither for more nor for less than usual. -/
def plain : Verbosity := ⟨false, false⟩

/-- The user asks for details. -/
def detailed : Verbosity := ⟨true, false⟩

/-- The user asks for failures and data only. -/
def quiet : Verbosity := ⟨false, true⟩

/-- Notices behind something that leaves a text in front of the next line: each detail comes where
    this text switches off the colours, and advice comes last. -/
inductive Orderly (coloured : Bool) : String → List Notice → Prop
  /-- Nothing is said. -/
  | nil (front : String) : Orderly coloured front []
  /-- A detail leaves in front of the next line what stood in front of its own. -/
  | detail (text : String) {rest : List Notice} (h : Orderly coloured (Style.off coloured) rest) :
    Orderly coloured (Style.off coloured) (.detail text :: rest)
  /-- Advice comes last. -/
  | advice (front : String) (suggestions : List String) :
    Orderly coloured front [.advice suggestions]
  /-- A failure goes to the other channel. -/
  | failure (text : String) {front : String} {rest : List Notice} (h : Orderly coloured front rest) :
    Orderly coloured front (.failure text :: rest)
  /-- Something that everyone is shown. -/
  | shown (notice : Notice) {front : String} {rest : List Notice}
    (hchannel : notice.channel = .output) (hshown : notice.isShown plain = true)
    (h : Orderly coloured (notice.tail coloured) rest) : Orderly coloured front (notice :: rest)

theorem isShown_detailed (h : notice.isShown plain = true) : notice.isShown detailed = true := by
  cases notice with
  | detail text => cases h
  | advice suggestions => cases h
  | _ => rfl

theorem exists_draw_of_isShown (coloured : Bool) (h : notice.isShown plain = true) :
    ∃ body, notice.draw coloured = body ++ "\n" ++ notice.tail coloured := by
  refine draw_eq coloured ?_
  rintro suggestions rfl
  cases h

/-- The lines of a notice that is shown, and those behind it. -/
theorem lines_cons {body back : String} (hchannel : notice.channel = .output)
    (hshown : notice.isShown v = true) (hdraw : notice.draw coloured = body ++ "\n" ++ back)
    (front : String) (rest : List Notice) :
    Text.lines (front ++ printed v coloured .output (notice :: rest)) =
      Text.split '\n' (front ++ body) ++
        Text.lines (back ++ printed v coloured .output rest) := by
  have hwhole : front ++ printed v coloured .output (notice :: rest) =
      front ++ body ++ "\n" ++ (back ++ printed v coloured .output rest) := by
    rw [printed_cons_of_shown hchannel hshown, hdraw]
    simp only [String.append_assoc]
  rw [hwhole, Text.lines_append_break]

/-- A detail has lines of its own. -/
theorem lines_detail (coloured : Bool) (front text : String) (rest : List Notice) :
    ∃ own, Text.lines (front ++ printed detailed coloured .output (.detail text :: rest)) =
      own ++ Text.lines (Style.off coloured ++ printed detailed coloured .output rest) := by
  obtain ⟨body, hbody⟩ : ∃ body, (Notice.detail text).draw coloured =
      body ++ "\n" ++ (Notice.detail text).tail coloured :=
    draw_eq coloured nofun
  exact ⟨_, lines_cons rfl rfl hbody front rest⟩

theorem printed_detail (coloured : Bool) (text : String) (rest : List Notice) :
    printed plain coloured .output (.detail text :: rest) =
      printed plain coloured .output rest :=
  printed_cons_of_hidden (fun _ => rfl) rest

theorem printed_failure (v : Verbosity) (coloured : Bool) (text : String) (rest : List Notice) :
    printed v coloured .output (.failure text :: rest) = printed v coloured .output rest :=
  printed_cons_of_hidden (fun h : (Notice.failure text).channel = .output => by cases h) rest

/-- Behind the same text, those who do not ask for details see some of the lines of those who do.
    The induction is on the order of the notices; the text in front of the next line is always the
    same for both. -/
theorem Orderly.sublist {front : String} {notices : List Notice}
    (h : Orderly coloured front notices) :
    (Text.lines (front ++ printed plain coloured .output notices)).Sublist
      (Text.lines (front ++ printed detailed coloured .output notices)) := by
  induction h with
  | nil front => exact List.Sublist.refl _
  | @detail text rest h ih =>
    obtain ⟨own, hown⟩ := lines_detail coloured (Style.off coloured) text rest
    rw [printed_detail, hown]
    exact ih.trans (List.sublist_append_right _ _)
  | advice front suggestions =>
    have hdraw : (Notice.advice suggestions).draw coloured = "" ++ "\n" ++
        ("💡 Recovery suggestions:\n" ++
          Text.join "" (suggestions.map fun suggestion => indent ("• " ++ suggestion))) := by
      unfold draw
      rw [← String.append_assoc]
      rfl
    have hplain : printed plain coloured .output [.advice suggestions] = "" :=
      printed_cons_of_hidden (fun _ => rfl) []
    -- advice begins with a line break, so it ends the line in which this text stands
    rw [hplain, lines_cons rfl rfl hdraw front [], String.append_empty]
    exact (Text.lines_sublist_split front).trans (List.sublist_append_left _ _)
  | failure text h ih =>
    rw [printed_failure, printed_failure]
    exact ih
  | @shown notice front rest hchannel hshown h ih =>
    obtain ⟨body, hbody⟩ := exists_draw_of_isShown coloured hshown
    rw [lines_cons hchannel hshown hbody, lines_cons hchannel (isShown_detailed hshown) hbody]
    exact (List.append_sublist_append_left _).mpr ih

/-- Further details stand between others. -/
theorem Orderly.details {rest : List Notice} (texts : List String)
    (h : Orderly coloured (Style.off coloured) rest) :
    Orderly coloured (Style.off coloured) (texts.map .detail ++ rest) := by
  induction texts with
  | nil => exact h
  | cons text texts ih => exact .detail text ih

/-- Details in front of everything else have lines of their own, and leave in front of the next line
    what switches the colours off. -/
theorem lines_details (coloured : Bool) (texts : List String) (rest : List Notice) :
    ∃ own, Text.lines (Style.off coloured ++
        printed detailed coloured .output (texts.map .detail ++ rest)) =
      own ++ Text.lines (Style.off coloured ++ printed detailed coloured .output rest) := by
  induction texts with
  | nil => exact ⟨[], rfl⟩
  | cons text texts ih =>
    obtain ⟨own, hown⟩ :=
      lines_detail coloured (Style.off coloured) text (texts.map .detail ++ rest)
    obtain ⟨others, hothers⟩ := ih
    refine ⟨own ++ others, ?_⟩
    rw [List.map_cons, List.cons_append, hown, hothers, List.append_assoc]

theorem printed_details (coloured : Bool) (texts : List String) (rest : List Notice) :
    printed plain coloured .output (texts.map .detail ++ rest) =
      printed plain coloured .output rest := by
  induction texts with
  | nil => rfl
  | cons text texts ih => rw [List.map_cons, List.cons_append, printed_detail, ih]

theorem not_mem_off (coloured : Bool) : '\n' ∉ (Style.off coloured).toList := by
  cases coloured <;> decide

/-- Details in front of everything else leave the other lines alone, except that the first of these
    may have in front what switches the colours off. -/
theorem sublist_of_details (notice : Notice) {rest : List Notice} (texts : List String)
    (hchannel : notice.channel = .output) (hshown : notice.isShown plain = true)
    (hrest : Orderly coloured (notice.tail coloured) rest) : ∃ first others,
      Text.lines (printed plain coloured .output (texts.map .detail ++ notice :: rest)) =
        first :: others ∧
      ((first :: others).Sublist
          (Text.lines (printed detailed coloured .output (texts.map .detail ++ notice :: rest))) ∨
        ((Style.off coloured ++ first) :: others).Sublist
          (Text.lines
            (printed detailed coloured .output (texts.map .detail ++ notice :: rest)))) := by
  obtain ⟨body, hbody⟩ := exists_draw_of_isShown coloured hshown
  obtain ⟨first, more, hfirst⟩ := List.exists_cons_of_ne_nil (Text.split_ne_nil '\n' body)
  have hplain := lines_cons hchannel hshown hbody "" rest
  rw [String.empty_append, String.empty_append, hfirst] at hplain
  refine ⟨first, more ++ Text.lines (notice.tail coloured ++ printed plain coloured .output rest),
    ?_, ?_⟩
  · rw [printed_details]
    exact hplain
  cases texts with
  | nil =>
    -- without a detail nothing comes between
    have horderly : Orderly coloured "" (notice :: rest) := .shown notice hchannel hshown hrest
    have hsublist := horderly.sublist
    rw [String.empty_append, String.empty_append, hplain] at hsublist
    exact .inl hsublist
  | cons text texts =>
    obtain ⟨own, hown⟩ := lines_detail coloured "" text (texts.map .detail ++ notice :: rest)
    obtain ⟨others, hothers⟩ := lines_details coloured texts (notice :: rest)
    rw [String.empty_append] at hown
    refine .inr ?_
    rw [List.map_cons, List.cons_append, hown, hothers,
      lines_cons hchannel (isShown_detailed hshown) hbody,
      Text.split_append_of_not_mem (not_mem_off coloured) hfirst]
    refine List.Sublist.trans ?_ ((List.sublist_append_right others _).trans
      (List.sublist_append_right own _))
    exact (List.append_sublist_append_left ((Style.off coloured ++ first) :: more)).mpr hrest.sublist

/-- The colours in front of a detail and of a success differ. -/
theorem paint_ne (first second : String) :
    Style.paint ⟨.green, true⟩ true "✓" ++ first ≠ Style.paint ⟨.blue, false⟩ true "→" ++ second := by
  intro h
  have hgreen : (Style.paint ⟨.green, true⟩ true "✓").toList[6]? = some '1' := by decide
  have hblue : (Style.paint ⟨.blue, false⟩ true "→").toList[6]? = some '3' := by decide
  have hsame := congrArg (·.toList[6]?) h
  rw [String.toList_append, String.toList_append, List.getElem?_append_left (by decide),
    List.getElem?_append_left (by decide), hgreen, hblue] at hsame
  cases hsame

/-- A coloured detail right in front of a success takes the line of the success away: in front of it
    the colours are switched off once more. -/
theorem not_sublist_of_detail {text summary : String} {rest : List Notice}
    (htext : '\n' ∉ text.toList) (hrest : ∀ notice ∈ rest, notice.isShown plain = true) :
    ¬ (Text.lines (printed plain true .output (.detail text :: .success summary :: rest))).Sublist
      (Text.lines (printed detailed true .output (.detail text :: .success summary :: rest))) := by
  have hsame : printed plain true .output rest = printed detailed true .output rest :=
    printed_congr fun notice hmem _ => by
      rw [hrest notice hmem, isShown_detailed (hrest notice hmem)]
  -- the line of the success begins with its mark, and the detail is a line of its own
  obtain ⟨first, more, hfirst⟩ :=
    List.exists_cons_of_ne_nil (Text.split_ne_nil '\n' (" " ++ summary))
  have hgreen : '\n' ∉ (Style.paint ⟨.green, true⟩ true "✓").toList := by decide
  have hblue : '\n' ∉ (Style.paint ⟨.blue, false⟩ true "→" ++ " ").toList := by decide
  have hsuccess := Text.split_append_of_not_mem hgreen hfirst
  rw [← String.append_assoc] at hsuccess
  have hdetail := Text.split_append_of_not_mem hblue (Text.split_of_not_mem htext)
  have hreset := Text.split_append_of_not_mem (not_mem_off true) hsuccess
  have hplain := lines_cons (v := plain) rfl rfl (Eq.refl ((Notice.success summary).draw true)) ""
    rest
  rw [String.empty_append, String.empty_append, hsuccess, hsame] at hplain
  have hlast := lines_cons (v := detailed) rfl rfl (Eq.refl ((Notice.success summary).draw true))
    (Style.off true) rest
  rw [hreset] at hlast
  have hown := lines_cons (v := detailed) rfl rfl (Eq.refl ((Notice.detail text).draw true)) ""
    (.success summary :: rest)
  rw [String.empty_append, String.empty_append, hdetail, hlast] at hown
  rw [printed_detail, hplain, hown]
  intro h
  rcases List.sublist_cons_iff.mp h with h | ⟨others, hothers, -⟩
  · -- as many lines on both sides
    have hline := (List.cons.inj (h.eq_of_length (by simp))).1
    have hlength := congrArg String.length hline
    simp only [String.length_append] at hlength
    have hoff : 0 < (Style.off true).length := by decide
    omega
  · have hline := (List.cons.inj hothers).1
    rw [String.append_assoc] at hline
    exact paint_ne _ _ hline

end Notice

end PackageRelease
