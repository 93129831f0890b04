import PackageRelease.Proofs.Outcome
import PackageRelease.Url.Parser

/-! # Addresses that go on

  An address that ends in a slash can be gone on with: whatever follows the slash, the longer
  address is one too, and it leads to the same host. The key idea: the host is read before the first
  slash behind it, so what stands behind a slash makes no difference to it.
-/

namespace PackageRelease

/-! ### Lists cut at a character -/

section cut
variable {p : Char → Bool} {c : Char}

theorem takeWhile_append_cons (hc : p c = false) (front back : List Char) :
    (front ++ c :: back).takeWhile p = front.takeWhile p := by
  induction front with
  | nil => exact List.takeWhile_cons_of_neg (by simpa using hc)
  | cons d front ih =>
    rw [List.cons_append, List.takeWhile_cons, List.takeWhile_cons, ih]

theorem dropWhile_append_cons (hc : p c = false) (front back : List Char) :
    (front ++ c :: back).dropWhile p = front.dropWhile p ++ c :: back := by
  induction front with
  | nil => exact List.dropWhile_cons_of_neg (by simpa using hc)
  | cons d front ih =>
    rw [List.cons_append, List.dropWhile_cons, List.dropWhile_cons, ih]
    split <;> rfl

theorem eq_of_splitOnce? {cs before after : List Char}
    (h : Text.splitOnce? c cs = some (before, after)) : cs = before ++ c :: after := by
  induction cs generalizing before with
  | nil => cases h
  | cons d cs ih =>
    rw [Text.splitOnce?] at h
    split at h
    · next heq =>
      cases h
      rw [eq_of_beq heq]
      rfl
    · obtain ⟨⟨front, back⟩, hrest, hpair⟩ := Option.map_eq_some_iff.mp h
      cases hpair
      rw [ih hrest]
      rfl

theorem splitOnce?_append {cs before after : List Char}
    (h : Text.splitOnce? c cs = some (before, after)) (more : List Char) :
    Text.splitOnce? c (cs ++ more) = some (before, after ++ more) := by
  induction cs generalizing before with
  | nil => cases h
  | cons d cs ih =>
    rw [List.cons_append]
    rw [Text.splitOnce?] at h ⊢
    split at h
    · next heq =>
      cases h
      rw [if_pos heq]
    · next hne =>
      obtain ⟨⟨front, back⟩, hrest, hpair⟩ := Option.map_eq_some_iff.mp h
      cases hpair
      rw [if_neg hne, ih hrest]
      rfl

theorem splitOnce?_of_notMem {cs : List Char} (h : c ∉ cs) : Text.splitOnce? c cs = none := by
  induction cs with
  | nil => rfl
  | cons d cs ih =>
    rw [List.mem_cons, not_or] at h
    rw [Text.splitOnce?, if_neg (by simpa using Ne.symm h.1), ih h.2]
    rfl

theorem splitOnce?_of_notMem_append {before : List Char} (h : c ∉ before) (after : List Char) :
    Text.splitOnce? c (before ++ c :: after) = some (before, after) := by
  induction before with
  | nil =>
    rw [List.nil_append, Text.splitOnce?, if_pos (by simp)]
  | cons d before ih =>
    rw [List.mem_cons, not_or] at h
    rw [List.cons_append, Text.splitOnce?, if_neg (by simpa using Ne.symm h.1), ih h.2]
    rfl

end cut

namespace Url

/-! ### What counts in an address -/

/-- Behind a slash there may be more that counts, and what counts in front of it stays the same. -/
theorem significant_append_slash (text : String) : ∃ front, ∀ suffix, ∃ back,
    significant (text ++ "/" ++ suffix) = front ++ '/' :: back ∧
      (suffix = "" → back = []) := by
  refine ⟨(text.toList.dropWhile isPadding).filter fun c => !isIgnored c, fun suffix => ?_⟩
  refine ⟨((suffix.toList.reverse.dropWhile isPadding).reverse).filter fun c => !isIgnored c, ?_, ?_⟩
  · have htext : (text ++ "/" ++ suffix).toList = text.toList ++ '/' :: suffix.toList := by
      rw [String.toList_append, String.toList_append, List.append_assoc]
      rfl
    have hslash : isPadding '/' = false := by decide
    unfold significant Text.stripWhere
    rw [htext, dropWhile_append_cons hslash, List.reverse_append, List.reverse_cons,
      List.append_assoc, List.singleton_append, dropWhile_append_cons hslash, List.reverse_append,
      List.reverse_cons, List.reverse_reverse, List.append_assoc, List.singleton_append,
      List.filter_append, List.filter_cons_of_pos (by decide)]
  · rintro rfl
    rfl

/-! ### The parts in front of the path -/

/-- What is read of the characters in front of the path. -/
def readFront (cs : List Char) : Except UrlFault (Authority × Host × Option Nat) := do
  let authority ← readAuthority cs
  if authority.host.isEmpty then throw .emptyHost
  let host ← Host.parse authority.host
  let port? ← match authority.port? with
    | some digits => parsePort digits
    | none => pure none
  return (authority, host, port?)

/-- The characters in front of the path. -/
def frontOf (cs : List Char) : List Char :=
  (cs.dropWhile fun c => c = '/' || c = '\\').takeWhile fun c => !endsAuthority true c

/-- An address is read exactly if the characters in front of its path are, and they give the host.
    -/
theorem parseWeb_cases (scheme : Scheme) (cs : List Char) :
    (∃ fault, readFront (frontOf cs) = .error fault ∧ parseWeb scheme cs = .error fault) ∨
      ∃ authority host port? url, readFront (frontOf cs) = .ok (authority, host, port?) ∧
        parseWeb scheme cs = .ok url ∧ url.host = host := by
  unfold parseWeb readFront frontOf
  dsimp only
  generalize (cs.dropWhile fun c => c = '/' || c = '\\') = cs
  cases readAuthority (cs.takeWhile fun c => !endsAuthority true c) with
  | error fault => exact .inl ⟨fault, rfl, rfl⟩
  | ok authority =>
    dsimp only [bind, Except.bind, pure, Except.pure]
    by_cases hempty : authority.host.isEmpty = true
    · rw [if_pos hempty, if_pos hempty]
      exact .inl ⟨_, rfl, rfl⟩
    · rw [if_neg hempty, if_neg hempty]
      cases Host.parse authority.host with
      | error fault => exact .inl ⟨fault, rfl, rfl⟩
      | ok host =>
        cases authority.port? with
        | none => exact .inr ⟨authority, host, none, _, rfl, rfl, rfl⟩
        | some digits =>
          dsimp only
          cases parsePort digits with
          | error fault => exact .inl ⟨fault, rfl, rfl⟩
          | ok port? => exact .inr ⟨authority, host, port?, _, rfl, rfl, rfl⟩

/-- The characters in front of the path end before a slash, if there are any. -/
theorem frontOf_append {cs : List Char} (h : frontOf (cs ++ ['/']) ≠ []) (more : List Char) :
    frontOf (cs ++ '/' :: more) = frontOf (cs ++ ['/']) := by
  have hends : (!endsAuthority true '/') = false := by decide
  have hgeneral : ∀ back, cs.dropWhile (fun c => c = '/' || c = '\\') ≠ [] →
      frontOf (cs ++ '/' :: back) =
        (cs.dropWhile fun c => c = '/' || c = '\\').takeWhile fun c => !endsAuthority true c := by
    intro back hne
    unfold frontOf
    rw [List.dropWhile_append, if_neg (by simpa using hne), takeWhile_append_cons hends]
  by_cases hnil : cs.dropWhile (fun c => c = '/' || c = '\\') = []
  · -- slashes alone have no such characters
    refine absurd ?_ h
    unfold frontOf
    rw [List.dropWhile_append, if_pos (by simpa using hnil)]
    rfl
  · rw [hgeneral more hnil, hgeneral [] hnil]

/-- An address of the web that ends in a slash can be gone on with. -/
theorem parseWeb_append {scheme : Scheme} {cs : List Char} {url : Url}
    (h : parseWeb scheme (cs ++ ['/']) = .ok url) (more : List Char) :
    ∃ longer, parseWeb scheme (cs ++ '/' :: more) = .ok longer ∧ longer.host = url.host := by
  have hnoempty : readFront [] = .error .emptyHost := rfl
  rcases parseWeb_cases scheme (cs ++ ['/']) with ⟨fault, -, hfault⟩ | hread
  · rw [h] at hfault
    cases hfault
  obtain ⟨authority, host, port?, found, hfront, hfound, hhost⟩ := hread
  cases hfound.symm.trans h
  have hne : frontOf (cs ++ ['/']) ≠ [] := by
    intro hnil
    rw [hnil, hnoempty] at hfront
    cases hfront
  rw [← frontOf_append hne more] at hfront
  rcases parseWeb_cases scheme (cs ++ '/' :: more) with ⟨fault, hfault, -⟩ | hread
  · rw [hfront] at hfault
    cases hfault
  · obtain ⟨_, other, _, longer, hother, hlonger, hsame⟩ := hread
    cases hfront.symm.trans hother
    exact ⟨longer, hlonger, hsame.trans hhost.symm⟩

/-! ### The whole address -/

/-- An address of the web is read from what follows its scheme. -/
theorem parse_eq_ok {text : String} {url : Url} (h : parse text = .ok url) :
    ∃ scheme rest, splitScheme? (significant text) = some (scheme, rest) ∧
      ((scheme = "http" ∧ parseWeb .http rest = .ok url) ∨
        (scheme = "https" ∧ parseWeb .https rest = .ok url)) := by
  unfold parse at h
  split at h
  · cases h
  · next rest hsplit => exact ⟨_, rest, hsplit, .inl ⟨rfl, h⟩⟩
  · next rest hsplit => exact ⟨_, rest, hsplit, .inr ⟨rfl, h⟩⟩
  · -- another scheme is refused in the end
    dsimp only at h
    repeat' split at h
    all_goals first | cases h | (obtain ⟨_, -, h⟩ := bind_eq_ok.mp h; cases h)

theorem splitScheme?_append {front back rest : List Char} {scheme : String}
    (h : splitScheme? (front ++ ['/']) = some (scheme, rest)) :
    ∃ cs, rest = cs ++ ['/'] ∧
      splitScheme? (front ++ '/' :: back) = some (scheme, cs ++ '/' :: back) := by
  obtain ⟨⟨before, after⟩, hsplit, h⟩ := Option.bind_eq_some_iff.mp h
  obtain ⟨⟨⟩, hguard, h⟩ := Option.bind_eq_some_iff.mp h
  cases h
  have hwhole := eq_of_splitOnce? hsplit
  -- the colon of the scheme is not the slash at the end
  obtain ⟨cs, rfl⟩ : ∃ cs, rest = cs ++ ['/'] := by
    have hlast := congrArg List.getLast? hwhole
    rw [List.getLast?_concat, List.getLast?_append] at hlast
    cases rest with
    | nil => cases hlast
    | cons c rest =>
      rw [List.getLast?_cons_cons] at hlast
      refine List.getLast?_eq_some_iff.mp ?_
      cases hrest : (c :: rest).getLast? with
      | none => exact absurd (List.getLast?_eq_none_iff.mp hrest) (List.cons_ne_nil _ _)
      | some d =>
        rw [hrest] at hlast
        exact hlast.symm
  have hmore := splitOnce?_append hsplit back
  rw [List.append_assoc, List.append_assoc, List.singleton_append] at hmore
  refine ⟨cs, rfl, ?_⟩
  unfold splitScheme?
  rw [hmore]
  exact Option.bind_eq_some_iff.mpr ⟨_, rfl, Option.bind_eq_some_iff.mpr ⟨(), hguard, rfl⟩⟩

/-- An address that ends in a slash can be gone on with, and its host stays the same. -/
theorem parse_append {text : String} {url : Url} (h : parse (text ++ "/") = .ok url)
    (suffix : String) : ∃ longer, parse (text ++ "/" ++ suffix) = .ok longer ∧
      longer.host = url.host := by
  obtain ⟨front, hfront⟩ := significant_append_slash text
  obtain ⟨nothing, hshort, hnothing⟩ := hfront ""
  obtain ⟨back, hlong, -⟩ := hfront suffix
  rw [String.append_empty, hnothing rfl] at hshort
  obtain ⟨scheme, rest, hsplit, hweb⟩ := parse_eq_ok h
  rw [hshort] at hsplit
  obtain ⟨cs, rfl, hscheme⟩ := @splitScheme?_append front back rest scheme hsplit
  rw [← hlong] at hscheme
  unfold parse
  rw [hscheme]
  rcases hweb with ⟨rfl, hweb⟩ | ⟨rfl, hweb⟩
  · exact parseWeb_append hweb back
  · exact parseWeb_append hweb back

end Url

end PackageRelease
