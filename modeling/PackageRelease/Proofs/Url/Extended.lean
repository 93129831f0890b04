import PackageRelease.Proofs.Url.Path

/-! # Addresses with something behind them

  The text of an address that was read begins again with the same scheme, user, host and port. So
  what is put behind its path, after the slashes at the end are gone, becomes more path, up to a
  question mark or a hash sign. An address with a query or a fragment keeps having one.
-/

namespace PackageRelease.Url

/-! ### The parts of an address -/

/-- Whether a character belongs to the path and not to what follows it. -/
def isPathChar (c : Char) : Bool := c ≠ '?' && c ≠ '#'

/-- The path with what follows it. -/
def tailOf (cs : List Char) : List Char :=
  (cs.dropWhile fun c => c = '/' || c = '\\').dropWhile fun c => !endsAuthority true c

/-- Whether an address ends with its path. -/
def EndsInPath (url : Url) : Prop := url.query? = none ∧ url.fragment? = none

/-- How an address was read from what follows the colon of its scheme. -/
structure ReadFrom (scheme : Scheme) (cs : List Char) (url : Url) : Prop where
  /-- The scheme is known. -/
  scheme_eq : url.scheme = scheme
  /-- User and host stand in front of the path. -/
  authority : ∃ authority, readAuthority (frontOf cs) = .ok authority ∧
    Host.parse authority.host = .ok url.host ∧
    url.userName = authority.userName ∧ url.password? = authority.password?
  /-- The path ends before a question mark or a hash sign. -/
  path_eq : url.path = normalPath ((tailOf cs).takeWhile isPathChar)
  /-- There is nothing behind the path exactly if there is no such sign. -/
  endsInPath_iff : EndsInPath url ↔ (tailOf cs).dropWhile isPathChar = []

/-- A text divided at its first hash sign has two empty parts exactly if it is empty. -/
theorem divided_eq_none_iff {α : Type} (cs : List Char) (f g : Char → α) :
    (cs.takeWhile (· ≠ '#')).head?.map f = none ∧ (cs.dropWhile (· ≠ '#')).head?.map g = none ↔
      cs = [] := by
  rw [Option.map_eq_none_iff, Option.map_eq_none_iff, List.head?_eq_none_iff,
    List.head?_eq_none_iff]
  constructor
  · rintro ⟨hbefore, hafter⟩
    rw [← List.takeWhile_append_dropWhile (p := (· ≠ '#')) (l := cs), hbefore, hafter]
    rfl
  · rintro rfl
    exact ⟨rfl, rfl⟩

theorem readFrom_of_parseWeb {scheme : Scheme} {cs : List Char} {url : Url}
    (h : parseWeb scheme cs = .ok url) : ReadFrom scheme cs url := by
  unfold parseWeb at h
  dsimp only at h
  obtain ⟨authority, hauthority, h⟩ := bind_eq_ok.mp h
  split at h
  · cases h
  obtain ⟨host, hhost, h⟩ := bind_eq_ok.mp h
  split at h
  · obtain ⟨port?, -, h⟩ := bind_eq_ok.mp h
    cases h
    exact ⟨rfl, ⟨authority, hauthority, hhost, rfl, rfl⟩, rfl, divided_eq_none_iff _ _ _⟩
  · cases h
    exact ⟨rfl, ⟨authority, hauthority, hhost, rfl, rfl⟩, rfl, divided_eq_none_iff _ _ _⟩

/-! ### What stands in front of the path -/

/-- What stands in front of the path, behind the slashes of the scheme. -/
def front (url : Url) : String :=
  url.userInfo ++ url.host.render ++ url.port?.elim "" fun port => ":" ++ Text.decimal port

theorem render_eq (url : Url) : url.render.toList = url.scheme.text.toList ++ ':' :: '/' :: '/' ::
    (url.front.toList ++ url.path.toList ++
      ((url.query?.elim "" fun query => "?" ++ query).toList ++
        (url.fragment?.elim "" fun fragment => "#" ++ fragment).toList)) := by
  unfold render front
  simp only [String.toList_append, List.append_assoc]
  rfl

/-- Whether a text is in the form that user names and passwords have in an address. -/
def IsUserText (s : String) : Prop :=
  ∀ c ∈ s.toList, (Percent.isAlwaysEncoded c || Percent.inUserInfo c) = false

theorem isUserText_encode (part : List Char) :
    IsUserText (String.ofList (Percent.encode Percent.inUserInfo part)) := by
  intro c hc
  rw [String.toList_ofList] at hc
  exact Percent.unreserved_of_mem_encode Percent.reservable_inUserInfo hc

theorem IsUserText.encode_eq {s : String} (h : IsUserText s) :
    String.ofList (Percent.encode Percent.inUserInfo s.toList) = s := by
  rw [Percent.encode_of_forall h, String.ofList_toList]

theorem IsUserText.notMem {s : String} (h : IsUserText s) {c : Char}
    (hc : Percent.inUserInfo c = true) : c ∉ s.toList := by
  intro hmem
  have hfree := h c hmem
  rw [hc, Bool.or_true] at hfree
  cases hfree

theorem IsUserText.isInner {s : String} (h : IsUserText s) : ∀ c ∈ s.toList, IsInner c := by
  intro c hc
  have hkept := h c hc
  unfold Percent.inUserInfo at hkept
  rw [← Bool.or_assoc, Bool.or_eq_false_iff] at hkept
  refine isInner_of_unreserved hkept.1 ?_ ?_
  · rintro rfl
    cases hkept.2
  · rintro rfl
    cases hkept.2

/-- User names and passwords are in their form, and a password is not empty. -/
theorem isUserText_of_readAuthority {cs : List Char} {authority : Authority}
    (h : readAuthority cs = .ok authority) : IsUserText authority.userName ∧
      ∀ password ∈ authority.password?, password ≠ "" ∧ IsUserText password := by
  cases h
  refine ⟨isUserText_encode _, fun password hpassword => ?_⟩
  obtain ⟨part, hpart, rfl⟩ := Option.map_eq_some_iff.mp hpassword
  refine ⟨fun hempty => ?_, isUserText_encode part⟩
  have hne : part ≠ [] := by
    split at hpart
    · dsimp only at hpart
      split at hpart
      · cases hpart
      · next hfull =>
        cases hpart
        exact fun hnil => hfull (List.isEmpty_iff.mpr hnil)
    · cases hpart
  exact Percent.encode_ne_nil hne (String.ofList_eq_empty_iff.mp hempty)

/-- What is written for a port holds no sign that stands beside a host. -/
theorem isInHost_portText (port? : Option Nat) :
    ∀ c ∈ (port?.elim "" fun port => ":" ++ Text.decimal port).toList, IsInHost c := by
  cases port? with
  | none => exact List.forall_mem_nil _
  | some port =>
    rw [Option.elim_some, String.toList_append, List.forall_mem_append]
    constructor
    · exact List.forall_mem_singleton.mpr (by decide)
    · intro c hc
      unfold Text.decimal at hc
      rw [String.toList_ofList] at hc
      exact isInHost_of_mem_toDigits (by decide) (by decide) hc

/-- What is written for a user stays in front of the path. -/
theorem isInner_userInfo {url : Url} (huser : IsUserText url.userName)
    (hpassword : ∀ password ∈ url.password?, password ≠ "" ∧ IsUserText password) :
    ∀ c ∈ url.userInfo.toList, IsInner c := by
  have hat : ∀ c ∈ "@".toList, IsInner c := List.forall_mem_singleton.mpr (by decide)
  have hcolon : ∀ c ∈ ":".toList, IsInner c := List.forall_mem_singleton.mpr (by decide)
  unfold userInfo
  split
  · next password heq =>
    simp only [String.toList_append, List.forall_mem_append]
    exact ⟨⟨⟨huser.isInner, hcolon⟩, (hpassword password heq).2.isInner⟩, hat⟩
  · split
    · exact List.forall_mem_nil _
    · simp only [String.toList_append, List.forall_mem_append]
      exact ⟨huser.isInner, hat⟩

theorem ReadFrom.isInner_front {scheme : Scheme} {cs : List Char} {url : Url}
    (h : ReadFrom scheme cs url) : url.front.toList ≠ [] ∧ ∀ c ∈ url.front.toList, IsInner c := by
  obtain ⟨authority, hauthority, hhost, huser, hpassword⟩ := h.authority
  obtain ⟨huserText, hpasswordText⟩ := isUserText_of_readAuthority hauthority
  rw [← huser] at huserText
  rw [← hpassword] at hpasswordText
  obtain ⟨hne, hhostInner⟩ := Host.isInHost_of_parse hhost
  unfold front
  rw [String.toList_append, String.toList_append]
  constructor
  · intro hnil
    have hempty := List.append_eq_nil_iff.mp (List.append_eq_nil_iff.mp hnil).1
    exact hne (String.toList_eq_nil_iff.mp hempty.2)
  · rw [List.forall_mem_append, List.forall_mem_append]
    exact ⟨⟨isInner_userInfo huserText hpasswordText, fun c hc => (hhostInner c hc).1⟩,
      fun c hc => (isInHost_portText _ c hc).1⟩

/-! ### Reading again -/

/-- What counts of the end of a text. -/
def counted (cs : List Char) : List Char :=
  (cs.reverse.dropWhile isPadding).reverse.filter fun c => !isIgnored c

theorem not_isIgnored {c : Char} (h : isPadding c = false) : isIgnored c = false := by
  unfold isPadding at h
  unfold isIgnored
  simp only [Bool.or_eq_false_iff, decide_eq_false_iff_not] at h ⊢
  refine ⟨⟨?_, ?_⟩, ?_⟩
  all_goals
    rintro rfl
    exact h (by decide)

theorem counted_append {front : List Char} (h : ∀ c ∈ front, isPadding c = false)
    (back : List Char) : counted (front ++ back) = front ++ counted back := by
  have hfilter : front.filter (fun c => !isIgnored c) = front :=
    List.filter_eq_self.mpr fun c hc => by rw [not_isIgnored (h c hc)]; rfl
  have hdrop : front.reverse.dropWhile isPadding = front.reverse := by
    cases hfront : front.reverse with
    | nil => rfl
    | cons c rest =>
      refine List.dropWhile_cons_of_neg ?_
      rw [h c (List.mem_reverse.mp (hfront ▸ List.mem_cons_self))]
      decide
  unfold counted
  rw [List.reverse_append, List.dropWhile_append]
  split
  · next hnil =>
    rw [List.isEmpty_iff.mp hnil, hdrop, List.reverse_reverse, hfilter]
    exact (List.append_nil front).symm
  · rw [List.reverse_append, List.reverse_reverse, List.filter_append, hfilter]

theorem counted_concat_of_pos {c : Char} (hc : isPadding c = true) (cs : List Char) :
    counted (cs ++ [c]) = counted cs := by
  unfold counted
  rw [List.reverse_concat, List.dropWhile_cons_of_pos hc]

theorem counted_concat_of_neg {c : Char} (hc : isPadding c = false) (cs : List Char) :
    counted (cs ++ [c]) = (cs ++ [c]).filter fun c => !isIgnored c := by
  unfold counted
  rw [List.reverse_concat, List.dropWhile_cons_of_neg (by rw [hc]; decide), ← List.reverse_concat,
    List.reverse_reverse]

theorem counted_sublist (cs : List Char) : (counted cs).Sublist cs := by
  induction cs using List.reverseRecOn with
  | nil => exact List.Sublist.refl _
  | append_singleton cs c ih =>
    cases hc : isPadding c with
    | true =>
      rw [counted_concat_of_pos hc]
      exact ih.trans (List.sublist_append_left cs [c])
    | false =>
      rw [counted_concat_of_neg hc]
      exact List.filter_sublist

/-- The whole of a text counts exactly if none of its characters is dropped. -/
theorem counted_eq_self_iff (cs : List Char) : counted cs = cs ↔
    (∀ c ∈ cs, isIgnored c = false) ∧ ∀ c ∈ cs.getLast?, isPadding c = false := by
  induction cs using List.reverseRecOn with
  | nil => exact iff_of_true rfl ⟨List.forall_mem_nil _, nofun⟩
  | append_singleton cs c _ =>
    have hlast : (∀ d ∈ (cs ++ [c]).getLast?, isPadding d = false) ↔ isPadding c = false := by
      rw [List.getLast?_concat]
      exact ⟨fun h => h c rfl, fun h d hd => Option.some.inj hd ▸ h⟩
    rw [hlast]
    cases hc : isPadding c with
    | true =>
      refine iff_of_false (fun h => ?_) (fun h => nomatch h.2)
      rw [counted_concat_of_pos hc] at h
      have hle := (counted_sublist cs).length_le
      rw [h, List.length_append, List.length_singleton] at hle
      omega
    | false =>
      rw [counted_concat_of_neg hc, and_iff_left rfl, List.filter_eq_self]
      simp

theorem significant_append {front : List Char} (hne : front ≠ [])
    (h : ∀ c ∈ front, isPadding c = false) (back : List Char) :
    significant (String.ofList (front ++ back)) = front ++ counted back := by
  have hkeep : (front ++ back).dropWhile isPadding = front ++ back := by
    cases front with
    | nil => exact absurd rfl hne
    | cons c front =>
      refine List.dropWhile_cons_of_neg ?_
      rw [h c List.mem_cons_self]
      decide
  unfold significant Text.stripWhere
  rw [String.toList_ofList, hkeep]
  exact counted_append h back

theorem parse_of_significant {text : String} {scheme : Scheme} {rest : List Char}
    (h : significant text = scheme.text.toList ++ ':' :: rest) :
    parse text = parseWeb scheme rest := by
  unfold parse
  rw [h]
  cases scheme <;> rfl

theorem splitUserInfo?_append (user : List Char) {rest : List Char} (h : '@' ∉ rest) :
    splitUserInfo? (user ++ '@' :: rest) = some (user, rest) := by
  have hreverse : (user ++ '@' :: rest).reverse = rest.reverse ++ '@' :: user.reverse := by simp
  unfold splitUserInfo?
  rw [hreverse, splitOnce?_of_notMem_append (by simpa using h), Option.map_some]
  dsimp only
  rw [List.reverse_reverse, List.reverse_reverse]

/-- The user in front of a host is read as it was written. -/
theorem readAuthority_userInfo {url : Url} (huser : IsUserText url.userName)
    (hpassword : ∀ password ∈ url.password?, password ≠ "" ∧ IsUserText password)
    {rest : List Char} (hrest : '@' ∉ rest) {authority : Authority}
    (h : readAuthority (url.userInfo.toList ++ rest) = .ok authority) :
    authority.userName = url.userName ∧ authority.password? = url.password? := by
  -- the first colon ends the name, because the name holds none
  have hcolon {s : String} (hs : IsUserText s) : ':' ∉ s.toList := hs.notMem rfl
  unfold readAuthority userInfo at h
  cases hsome : url.password? with
  | some password =>
    obtain ⟨hne, hpassword⟩ := hpassword password hsome
    have hsplit : (url.userName ++ ":" ++ password ++ "@").toList ++ rest =
        (url.userName.toList ++ ':' :: password.toList) ++ '@' :: rest := by
      simp only [String.toList_append, List.append_assoc]
      rfl
    have hfull : password.toList.isEmpty = false := by
      rw [List.isEmpty_eq_false_iff]
      exact fun hnil => hne (String.toList_eq_nil_iff.mp hnil)
    rw [hsome] at h
    dsimp only at h
    rw [hsplit, splitUserInfo?_append _ hrest, Option.getD_some] at h
    dsimp only at h
    rw [splitOnce?_of_notMem_append (hcolon huser)] at h
    dsimp only at h
    rw [hfull] at h
    cases h
    exact ⟨huser.encode_eq, congrArg some hpassword.encode_eq⟩
  | none =>
    rw [hsome] at h
    dsimp only at h
    by_cases hempty : url.userName = ""
    · have hnone : splitUserInfo? rest = none := by
        unfold splitUserInfo?
        rw [splitOnce?_of_notMem (by simpa using hrest)]
        rfl
      rw [if_pos (by simpa using hempty), String.toList_empty, List.nil_append, hnone] at h
      cases h
      exact ⟨hempty.symm, rfl⟩
    · have hsplit : (url.userName ++ "@").toList ++ rest = url.userName.toList ++ '@' :: rest := by
        rw [String.toList_append, List.append_assoc]
        rfl
      rw [if_neg (by simpa using hempty), hsplit, splitUserInfo?_append _ hrest,
        Option.getD_some] at h
      dsimp only at h
      rw [splitOnce?_of_notMem (hcolon huser)] at h
      cases h
      exact ⟨huser.encode_eq, rfl⟩

/-- Host and port hold no sign behind a user, so the user is the one that was read. -/
theorem ReadFrom.readAuthority_front {scheme : Scheme} {cs : List Char} {url : Url}
    (h : ReadFrom scheme cs url) {again : Authority}
    (hagain : readAuthority url.front.toList = .ok again) :
    again.userName = url.userName ∧ again.password? = url.password? := by
  obtain ⟨authority, hauthority, hhost, huser, hpassword⟩ := h.authority
  obtain ⟨huserText, hpasswordText⟩ := isUserText_of_readAuthority hauthority
  rw [← huser] at huserText
  rw [← hpassword] at hpasswordText
  have hhostFree : '@' ∉ url.host.render.toList := fun hmem =>
    ((Host.isInHost_of_parse hhost).2 '@' hmem).2 rfl
  have hportFree : '@' ∉ (url.port?.elim "" fun port => ":" ++ Text.decimal port).toList :=
    fun hmem => (isInHost_portText _ '@' hmem).2 rfl
  unfold front at hagain
  rw [String.toList_append, String.toList_append, List.append_assoc] at hagain
  refine readAuthority_userInfo huserText hpasswordText ?_ hagain
  rw [List.mem_append, not_or]
  exact ⟨hhostFree, hportFree⟩

/-- In front of a path stands what stood there before. -/
theorem parts_append {front tail : List Char} (hne : front ≠ [])
    (hfront : ∀ c ∈ front, IsInner c) (htail : ∀ c ∈ tail.head?, endsAuthority true c = true) :
    frontOf ('/' :: '/' :: (front ++ tail)) = front ∧
      tailOf ('/' :: '/' :: (front ++ tail)) = tail := by
  have hends : ∀ c ∈ front, (!endsAuthority true c) = true := fun c hc => by
    rw [(hfront c hc).2]
    rfl
  have hslashes : ('/' :: '/' :: (front ++ tail)).dropWhile (fun c => c = '/' || c = '\\') =
      front ++ tail := by
    cases front with
    | nil => exact absurd rfl hne
    | cons c front =>
      have hinner := (hfront c List.mem_cons_self).2
      unfold endsAuthority at hinner
      simp only [Bool.true_and, Bool.or_eq_false_iff] at hinner
      rw [List.dropWhile_cons_of_pos rfl, List.dropWhile_cons_of_pos rfl, List.cons_append]
      refine List.dropWhile_cons_of_neg ?_
      rw [hinner.1.1.1, hinner.2]
      decide
  unfold frontOf tailOf
  rw [hslashes, List.takeWhile_append_of_pos hends, List.dropWhile_append_of_pos hends]
  cases tail with
  | nil => exact ⟨List.append_nil front, rfl⟩
  | cons d tail =>
    rw [List.takeWhile_cons, List.dropWhile_cons, htail d rfl]
    exact ⟨List.append_nil front, rfl⟩

/-- The characters of a path in its normal form count, and none ends it. -/
theorem counts_pathOf {segments : List (List Char)} (h : ∀ s ∈ segments, IsNormal s) :
    ∀ c ∈ pathOf segments, isPadding c = false ∧ isPathChar c = true := by
  intro c hc
  obtain ⟨s, hs, hc⟩ := List.mem_flatMap.mp hc
  rcases List.mem_cons.mp hc with rfl | hc
  · decide
  · obtain ⟨hcounts, hends⟩ := (h s hs).isInner c hc
    refine ⟨hcounts, ?_⟩
    unfold endsAuthority at hends
    unfold isPathChar
    simp only [Bool.or_eq_false_iff, decide_eq_false_iff_not] at hends
    simp [hends.1.1.2, hends.1.2]

/-- What is read from the parts of an address with another path. -/
theorem ReadFrom.again {scheme : Scheme} {cs : List Char} {url : Url}
    (h : ReadFrom scheme cs url) {segments : List (List Char)} (hsegments : ∀ s ∈ segments, IsNormal s)
    {c : Char} (hc : endsAuthority true c = true) (hcounts : isPadding c = false)
    {back : List Char} {longer : Url}
    (hlonger : parse (String.ofList (scheme.text.toList ++ ':' :: '/' :: '/' ::
      (url.front.toList ++ (pathOf segments ++ c :: back)))) = .ok longer) :
    (longer.userName = url.userName ∧ longer.password? = url.password?) ∧
      longer.path = normalPath (pathOf segments ++ (c :: counted back).takeWhile isPathChar) ∧
      (longer.EndsInPath ↔ (c :: counted back).dropWhile isPathChar = []) := by
  obtain ⟨hne, hfront⟩ := h.isInner_front
  have hpath := counts_pathOf hsegments
  have hscheme : ∀ d ∈ scheme.text.toList ++ [':', '/', '/'], isPadding d = false := by
    intro d hd
    have hall : (scheme.text.toList ++ [':', '/', '/']).all (fun d => !isPadding d) = true := by
      cases scheme <;> decide
    simpa using List.all_eq_true.mp hall d hd
  have hlead : ∀ d ∈ scheme.text.toList ++ [':', '/', '/'] ++ url.front.toList ++
      pathOf segments ++ [c], isPadding d = false := by
    refine List.forall_mem_append.mpr ⟨List.forall_mem_append.mpr ⟨List.forall_mem_append.mpr
      ⟨hscheme, fun d hd => (hfront d hd).1⟩, fun d hd => (hpath d hd).1⟩, ?_⟩
    exact List.forall_mem_singleton.mpr hcounts
  -- nothing is cut off in front of what was added, so it is read behind what was there
  have hsignificant := significant_append (by simp) hlead back
  simp only [List.append_assoc, List.cons_append, List.nil_append] at hsignificant
  rw [parse_of_significant hsignificant] at hlonger
  have hlonger := readFrom_of_parseWeb hlonger
  obtain ⟨hwritten, htail⟩ : frontOf ('/' :: '/' ::
        (url.front.toList ++ (pathOf segments ++ c :: counted back))) = url.front.toList ∧
      tailOf ('/' :: '/' :: (url.front.toList ++ (pathOf segments ++ c :: counted back))) =
        pathOf segments ++ c :: counted back := by
    refine parts_append hne hfront ?_
    cases segments with
    | nil =>
      rintro _ ⟨⟩
      exact hc
    | cons s segments =>
      rintro _ ⟨⟩
      rfl
  have hpathChar : ∀ d ∈ pathOf segments, isPathChar d = true := fun d hd => (hpath d hd).2
  refine ⟨?_, ?_, ?_⟩
  · obtain ⟨authority, hauthority, -, huser, hpassword⟩ := hlonger.authority
    rw [hwritten] at hauthority
    rw [huser, hpassword]
    exact h.readAuthority_front hauthority
  · rw [hlonger.path_eq, htail, List.takeWhile_append_of_pos hpathChar]
  · rw [hlonger.endsInPath_iff, htail, List.dropWhile_append_of_pos hpathChar]

/-! ### What is put behind an address -/

theorem exists_readFrom {text : String} {url : Url} (h : parse text = .ok url) :
    ∃ cs, ReadFrom url.scheme cs url := by
  obtain ⟨scheme, rest, -, ⟨-, hweb⟩ | ⟨-, hweb⟩⟩ := parse_eq_ok h
  · have hread := readFrom_of_parseWeb hweb
    exact ⟨rest, hread.scheme_eq ▸ hread⟩
  · have hread := readFrom_of_parseWeb hweb
    exact ⟨rest, hread.scheme_eq ▸ hread⟩

/-- No slash at the end of an address belongs to what stands in front of the path. -/
theorem ReadFrom.trimSlashes_front {scheme : Scheme} {cs : List Char} {url : Url}
    (hread : ReadFrom scheme cs url) (rest : List Char) :
    trimSlashes (url.scheme.text.toList ++ ':' :: '/' :: '/' :: (url.front.toList ++ rest)) =
      url.scheme.text.toList ++ ':' :: '/' :: '/' :: (url.front.toList ++ trimSlashes rest) := by
  obtain ⟨hne, hinner⟩ := hread.isInner_front
  cases hlast : url.front.toList using List.reverseRecOn with
  | nil => exact absurd hlast hne
  | append_singleton before c _ =>
    have hc : c ≠ '/' := by
      rintro rfl
      have hslash := hinner '/' (hlast ▸ List.mem_append_right _ List.mem_cons_self)
      cases hslash.2
    have h := trimSlashes_append hc (url.scheme.text.toList ++ ':' :: '/' :: '/' :: before) rest
    simpa only [List.append_assoc, List.cons_append, List.nil_append] using h

/-- The text with something behind the address. -/
theorem ReadFrom.extended_eq {scheme : Scheme} {cs : List Char} {url : Url}
    (hread : ReadFrom scheme cs url) {rest : List Char} (hrest : url.render.toList =
      url.scheme.text.toList ++ ':' :: '/' :: '/' :: (url.front.toList ++ rest)) (suffix : String) :
    Text.trimEnd '/' url.render ++ "/" ++ suffix =
      String.ofList (url.scheme.text.toList ++ ':' :: '/' :: '/' ::
        (url.front.toList ++ (trimSlashes rest ++ '/' :: suffix.toList))) := by
  apply String.toList_inj.mp
  have htrimmed : (Text.trimEnd '/' url.render).toList = trimSlashes url.render.toList :=
    String.toList_ofList
  rw [String.toList_append, String.toList_append, htrimmed, hrest, hread.trimSlashes_front,
    String.toList_ofList]
  simp only [List.append_assoc, List.cons_append, List.nil_append]
  exact String.toList_ofList.symm

/-- A query or a fragment begins with its sign. -/
theorem exists_sign {url : Url} (h : ¬ url.EndsInPath) :
    ∃ c more, (c = '?' ∨ c = '#') ∧ (url.query?.elim "" fun query => "?" ++ query).toList ++
      (url.fragment?.elim "" fun fragment => "#" ++ fragment).toList = c :: more := by
  cases hquery : url.query? with
  | some query =>
    refine ⟨'?', query.toList ++
      (url.fragment?.elim "" fun fragment => "#" ++ fragment).toList, .inl rfl, ?_⟩
    rw [Option.elim_some, String.toList_append]
    rfl
  | none =>
    cases hfragment : url.fragment? with
    | some fragment =>
      refine ⟨'#', fragment.toList, .inr rfl, ?_⟩
      rw [Option.elim_some, String.toList_append]
      rfl
    | none => exact absurd ⟨hquery, hfragment⟩ h

/-- What is put behind an address becomes more path, unless the address has more than a path. The
    user is the same. -/
theorem parse_extended {text suffix : String} {url longer : Url} (h : parse text = .ok url)
    (hlonger : parse (Text.trimEnd '/' url.render ++ "/" ++ suffix) = .ok longer) :
    (longer.userName = url.userName ∧ longer.password? = url.password?) ∧
    ((url.EndsInPath ∧ ∃ front, (∀ s ∈ front, IsNormal s) ∧
      trimSlashes url.path.toList = pathOf front ∧
      longer.path.toList = pathOf (resolve front ((Text.splitWhere isDivider
        ((counted suffix.toList).takeWhile isPathChar)).map (Percent.encode Percent.inPath))) ∧
      (longer.EndsInPath ↔ (counted suffix.toList).dropWhile isPathChar = [])) ∨
    ¬ url.EndsInPath ∧ ¬ longer.EndsInPath) := by
  obtain ⟨cs, hread⟩ := exists_readFrom h
  obtain ⟨segments, hpath, hnormal⟩ := exists_normalPath_eq ((tailOf cs).takeWhile isPathChar)
  rw [← hread.path_eq] at hpath
  by_cases hends : url.EndsInPath
  · obtain ⟨front, hfront, hnormal⟩ := exists_trimSlashes_eq hnormal
    have hrender : url.render.toList = url.scheme.text.toList ++ ':' :: '/' :: '/' ::
        (url.front.toList ++ pathOf segments) := by
      rw [render_eq, hends.1, hends.2, hpath]
      simp
    rw [hread.extended_eq hrender, hfront] at hlonger
    obtain ⟨huser, hlongerPath, hlongerEnds⟩ := hread.again hnormal (c := '/') rfl rfl hlonger
    refine ⟨huser, .inl ⟨hends, front, hnormal, hpath ▸ hfront, ?_, hlongerEnds⟩⟩
    rw [hlongerPath, List.takeWhile_cons_of_pos rfl]
    exact normalPath_append hnormal _
  · obtain ⟨c, more, hsign, hmore⟩ := exists_sign hends
    have hrender : url.render.toList = url.scheme.text.toList ++ ':' :: '/' :: '/' ::
        (url.front.toList ++ (pathOf segments ++ c :: more)) := by
      rw [render_eq, hpath, hmore, List.append_assoc]
    -- neither sign is a slash or belongs to a path
    have hc : c ≠ '/' ∧ isPathChar c = false ∧ endsAuthority true c = true ∧
        isPadding c = false := by
      rcases hsign with rfl | rfl <;> decide
    rw [hread.extended_eq hrender, trimSlashes_append hc.1, List.append_assoc,
      List.cons_append] at hlonger
    obtain ⟨huser, -, hlongerEnds⟩ := hread.again hnormal hc.2.2.1 hc.2.2.2 hlonger
    refine ⟨huser, .inr ⟨hends, ?_⟩⟩
    rw [hlongerEnds, List.dropWhile_cons_of_neg (by rw [hc.2.1]; decide)]
    exact List.cons_ne_nil _ _

end PackageRelease.Url
