import PackageRelease.Proofs.Outcome
import PackageRelease.Proofs.Path.Components
import PackageRelease.Proofs.Url.Percent
import PackageRelease.Url.Parser

/-! # What an address is made of

  No character of a host, a port, a user name or a segment of the path ends the part that it stands
  in, and none is dropped when the address is read again. The key idea: all of them come from tables
  and codes that leave such characters out.
-/

namespace PackageRelease

namespace Url

/-- Whether a character counts wherever it stands and ends no part of an address. -/
def IsInner (c : Char) : Prop := isPadding c = false ∧ endsAuthority true c = false

instance (c : Char) : Decidable (IsInner c) := inferInstanceAs (Decidable (_ ∧ _))

/-- What is not reserved in a path, and no slash, is an inner character. -/
theorem isInner_of_unreserved {c : Char}
    (h : (Percent.isAlwaysEncoded c || Percent.inPath c) = false) (hslash : c ≠ '/')
    (hback : c ≠ '\\') : IsInner c := by
  obtain ⟨halways, hpath⟩ := Bool.or_eq_false_iff.mp h
  obtain ⟨hfragment, hmore⟩ := Bool.or_eq_false_iff.mp hpath
  have hblank : c ≠ ' ' := by
    rintro rfl
    cases hfragment
  have hquestion : c ≠ '?' := by
    rintro rfl
    cases hmore
  have hhash : c ≠ '#' := by
    rintro rfl
    cases hmore
  unfold Percent.isAlwaysEncoded at halways
  simp only [Bool.or_eq_false_iff, decide_eq_false_iff_not] at halways
  have hcode : c.toNat ≠ ' '.toNat := fun h => hblank (Char.toNat_inj.mp h)
  have hvalue : ' '.toNat = 0x20 := rfl
  constructor
  · unfold isPadding
    rw [decide_eq_false_iff_not]
    omega
  · unfold endsAuthority
    simp [hslash, hquestion, hhash, hback]

/-- Whether a character may stand in a host: it is an inner character, and not the sign that ends
    the part with the user. -/
def IsInHost (c : Char) : Prop := IsInner c ∧ c ≠ '@'

instance (c : Char) : Decidable (IsInHost c) := inferInstanceAs (Decidable (_ ∧ _))

end Url

open Url (IsInHost)

/-! ### Hosts -/

theorem isInHost_of_mem_toDigits {base n : Nat} (hbase : 1 < base) (hle : base ≤ 16) {c : Char}
    (h : c ∈ Nat.toDigits base n) : IsInHost c := by
  have hdigit : ∀ m < 16, IsInHost (Nat.digitChar m) := by decide
  induction n using Nat.strongRecOn with
  | ind n ih =>
    rw [Nat.toDigits_eq_if hbase] at h
    split at h
    · next hsmall =>
      obtain rfl := List.mem_singleton.mp h
      exact hdigit n (by omega)
    · next hlarge =>
      rcases List.mem_append.mp h with hfront | hlast
      · exact ih (n / base) (Nat.div_lt_self (by omega) hbase) hfront
      · obtain rfl := List.mem_singleton.mp hlast
        have := Nat.mod_lt n (by omega : 0 < base)
        exact hdigit (n % base) (by omega)

theorem isInHost_of_mem_join {s : String} (hs : ∀ c ∈ s.toList, IsInHost c)
    {texts : List String} (htexts : ∀ text ∈ texts, ∀ c ∈ text.toList, IsInHost c) {c : Char}
    (h : c ∈ (Text.join s texts).toList) : IsInHost c := by
  rcases Text.mem_toList_join h with hc | ⟨text, htext, hc⟩
  · exact hs c hc
  · exact htexts text htext c hc

theorem Ipv4.isInHost_of_mem_render {address : Nat} {c : Char} (h : c ∈ (render address).toList) :
    IsInHost c := by
  refine isInHost_of_mem_join (s := ".") ?_ (fun s hs => ?_) h
  · exact List.forall_mem_singleton.mpr (by decide)
  · obtain ⟨k, -, rfl⟩ := List.mem_map.mp hs
    intro c hc
    exact isInHost_of_mem_toDigits (by decide) (by decide) (String.toList_ofList ▸ hc)

theorem Ipv6.isInHost_of_mem_render {groups : List Nat} {c : Char} (h : c ∈ (render groups).toList) :
    IsInHost c := by
  have hhex : ∀ gs : List Nat, ∀ c ∈ (Text.join ":" (gs.map fun g =>
      String.ofList (Nat.toDigits 16 g))).toList, IsInHost c := by
    intro gs c hc
    refine isInHost_of_mem_join (List.forall_mem_singleton.mpr (by decide)) (fun s hs => ?_) hc
    obtain ⟨g, -, rfl⟩ := List.mem_map.mp hs
    intro c hc
    exact isInHost_of_mem_toDigits (by decide) (by decide) (String.toList_ofList ▸ hc)
  unfold render at h
  dsimp only at h
  split at h
  · exact hhex _ c h
  · rw [String.toList_append, String.toList_append, List.mem_append, List.mem_append] at h
    rcases h with (h | h) | h
    · exact hhex _ c h
    · have hcolons : ∀ c ∈ [':', ':'], IsInHost c := by
        rintro c (_ | ⟨_, _ | ⟨_, ⟨⟩⟩⟩) <;> decide
      exact hcolons c h
    · exact hhex _ c h

/-! ### Domain names -/

namespace Punycode

theorem isInHost_digit {n : Nat} (h : n < 36) : IsInHost (digit n) := by
  decide +revert

theorem isInHost_of_mem_encodeNumber {bias place n : Nat} {c : Char}
    (h : c ∈ encodeNumber bias place n) : IsInHost c := by
  induction n using Nat.strongRecOn generalizing place with
  | ind n ih =>
    have hlow := one_le_threshold bias place
    have hhigh := threshold_le bias place
    rw [encodeNumber] at h
    split at h
    · obtain rfl := List.mem_singleton.mp h
      exact isInHost_digit (by omega)
    · rcases List.mem_cons.mp h with rfl | h
      · have := Nat.mod_lt (n - threshold bias place) (by omega : 0 < 36 - threshold bias place)
        exact isInHost_digit (by omega)
      · refine ih _ ?_ h
        exact Nat.lt_of_le_of_lt (Nat.div_le_self _ _) (by omega)

/-- Placing characters only adds digits. -/
theorem Progress.isInHost_pass {p : Progress} (hp : ∀ c ∈ p.output, IsInHost c) (basic current : Nat)
    (d : Char) : ∀ c ∈ (p.pass basic current d).output, IsInHost c := by
  unfold pass
  split
  · exact hp
  split
  · intro c hc
    rcases List.mem_append.mp hc with hc | hc
    · exact hp c hc
    · exact isInHost_of_mem_encodeNumber hc
  · exact hp

theorem Progress.isInHost_foldl_pass {p : Progress} (hp : ∀ c ∈ p.output, IsInHost c)
    (basic current : Nat) (label : List Char) :
    ∀ c ∈ (label.foldl (Progress.pass basic current) p).output, IsInHost c := by
  induction label generalizing p with
  | nil => exact hp
  | cons d label ih => exact ih (p.isInHost_pass hp basic current d)

theorem isInHost_placeAll {label : List Char} {basic next : Nat} {points : List Nat} {p : Progress}
    (hp : ∀ c ∈ p.output, IsInHost c) :
    ∀ c ∈ (placeAll label basic next points p).output, IsInHost c := by
  induction points generalizing next p with
  | nil => exact hp
  | cons current rest ih =>
    rw [placeAll]
    refine ih ?_
    exact Progress.isInHost_foldl_pass (by exact hp) basic current label

/-- The written form of a label is made of its own characters, digits and hyphens. -/
theorem isInHost_of_mem_encode {label : List Char} (h : ∀ c ∈ label, IsInHost c) {c : Char}
    (hc : c ∈ encode label) : IsInHost c := by
  refine isInHost_placeAll ?_ c hc
  dsimp only
  split
  · exact List.forall_mem_nil _
  · intro c hc
    rcases List.mem_append.mp hc with hc | hc
    · exact h c (List.mem_filter.mp hc).1
    · obtain rfl := List.mem_singleton.mp hc
      decide

end Punycode

namespace Domain

theorem isInHost_of_not_isForbidden {c : Char} (h : isForbidden c = false) : IsInHost c := by
  unfold isForbidden at h
  simp only [Bool.or_eq_false_iff, List.contains_eq_mem, decide_eq_false_iff_not, List.mem_cons,
    List.not_mem_nil, or_false, not_or] at h
  obtain ⟨⟨hlow, -⟩, -, hhash, hslash, -, -, -, hquestion, hat, -, hback, -⟩ := h
  refine ⟨⟨?_, ?_⟩, hat⟩
  · exact decide_eq_false hlow
  · unfold Url.endsAuthority
    simp [hslash, hquestion, hhash, hback]

/-- What a label stands for holds no forbidden character. -/
theorem not_isForbidden_of_expand? {label expanded : List Char} (h : expand? label = some expanded) :
    ∀ c ∈ expanded, isForbidden c = false := by
  have hvalid : ∀ {cs : List Char}, isValidLabel cs = true → ∀ c ∈ cs, isForbidden c = false := by
    intro cs hcs c hc
    unfold isValidLabel at hcs
    simp only [Bool.and_eq_true] at hcs
    have := List.all_eq_true.mp hcs.1.1.1.2 c hc
    simpa using this
  unfold expand? at h
  split at h
  · obtain ⟨decoded, -, h⟩ := Option.bind_eq_some_iff.mp h
    obtain ⟨⟨⟩, hguard, h⟩ := Option.bind_eq_some_iff.mp h
    cases h
    refine hvalid ?_
    unfold guard at hguard
    split at hguard
    · next hlabel => exact (Bool.and_eq_true _ _ ▸ hlabel).2
    · cases hguard
  · split at h
    · split at h
      · cases h
      · next hnone =>
        cases h
        intro c hc
        exact Bool.eq_false_iff.mpr fun hforbidden => hnone (List.any_eq_true.mpr ⟨c, hc, hforbidden⟩)
    · split at h
      · next hlabel =>
        cases h
        exact hvalid hlabel
      · cases h

theorem isInHost_fold {label : List Char} (h : ∀ c ∈ label, isForbidden c = false) :
    ∀ c ∈ fold label, IsInHost c := by
  have hinner : ∀ c ∈ label, IsInHost c := fun c hc => isInHost_of_not_isForbidden (h c hc)
  unfold fold
  split
  · exact hinner
  · intro c hc
    rcases List.mem_append.mp hc with hc | hc
    · have hmark : ∀ c ∈ mark, IsInHost c := by
        have hall : (mark.all fun c => decide (IsInHost c)) = true := by decide
        simpa using hall
      exact hmark c hc
    · exact Punycode.isInHost_of_mem_encode hinner hc

theorem mem_flatten_intersperse {sep : List Char} {labels : List (List Char)} {c : Char}
    (h : c ∈ (labels.intersperse sep).flatten) : c ∈ sep ∨ ∃ label ∈ labels, c ∈ label := by
  induction labels with
  | nil => cases h
  | cons label rest ih =>
    cases rest with
    | nil => exact .inr ⟨label, List.mem_cons_self, by simpa using h⟩
    | cons next rest =>
      rw [List.intersperse_cons_cons, List.flatten_cons, List.flatten_cons, List.mem_append,
        List.mem_append] at h
      rcases h with hfirst | hsep | hrest
      · exact .inr ⟨label, List.mem_cons_self, hfirst⟩
      · exact .inl hsep
      · rcases ih hrest with hsep | ⟨other, hother, hc⟩
        · exact .inl hsep
        · exact .inr ⟨other, List.mem_cons_of_mem _ hother, hc⟩

theorem exists_of_mapM_expand? {labels expanded : List (List Char)}
    (h : labels.mapM expand? = some expanded) :
    ∀ label ∈ expanded, ∃ written, expand? written = some label := by
  induction labels generalizing expanded with
  | nil =>
    cases h
    exact List.forall_mem_nil _
  | cons written labels ih =>
    rw [List.mapM_cons] at h
    obtain ⟨label, hlabel, h⟩ := Option.bind_eq_some_iff.mp h
    obtain ⟨rest, hrest, h⟩ := Option.bind_eq_some_iff.mp h
    cases h
    exact List.forall_mem_cons.mpr ⟨⟨written, hlabel⟩, ih hrest⟩

theorem isInHost_of_toAscii {name : Bytes} {form : List Char} (h : toAscii name = .ok form) :
    ∀ c ∈ form, IsInHost c := by
  unfold toAscii at h
  dsimp only at h
  split at h
  · next found hfound =>
    cases h
    obtain ⟨text, -, hfound⟩ := Option.bind_eq_some_iff.mp hfound
    obtain ⟨mapped, -, hfound⟩ := Option.bind_eq_some_iff.mp hfound
    obtain ⟨expanded, hexpanded, hfound⟩ := Option.bind_eq_some_iff.mp hfound
    obtain ⟨⟨⟩, -, hfound⟩ := Option.bind_eq_some_iff.mp hfound
    cases hfound
    intro c hc
    rcases mem_flatten_intersperse hc with hc | ⟨folded, hfolded, hc⟩
    · obtain rfl := List.mem_singleton.mp hc
      decide
    · obtain ⟨label, hlabel, rfl⟩ := List.mem_map.mp hfolded
      obtain ⟨written, hwritten⟩ := exists_of_mapM_expand? hexpanded label hlabel
      exact isInHost_fold (not_isForbidden_of_expand? hwritten) c hc
  · cases h

end Domain

theorem Host.exists_of_parse_domain {cs : List Char} {name : String}
    (h : parse cs = .ok (.domain name)) :
    ∃ form, Domain.toAscii (Percent.decode cs) = .ok form ∧ form ≠ [] ∧ name = String.ofList form := by
  unfold parse at h
  split at h
  · unfold parseBracketed at h
    split at h
    · split at h <;> cases h
    · cases h
  · obtain ⟨form, hform, h⟩ := bind_eq_ok.mp h
    refine ⟨form, hform, ?_⟩
    dsimp only [bind, Except.bind, pure, Except.pure] at h
    split at h
    · cases h
    · next hne =>
      refine ⟨fun hnil => hne (List.isEmpty_iff.mpr hnil), ?_⟩
      split at h
      · split at h <;> cases h
      · cases h
        rfl

/-- A host has a text of such characters. -/
theorem Host.isInHost_of_parse {cs : List Char} {host : Host} (h : parse cs = .ok host) :
    host.render ≠ "" ∧ ∀ c ∈ host.render.toList, IsInHost c := by
  cases host with
  | ipv4 address =>
    refine ⟨fun hempty => ?_, fun c => Ipv4.isInHost_of_mem_render⟩
    have hdot : '.' ∈ (Ipv4.render address).toList := by
      unfold Ipv4.render
      rw [List.map_cons, List.map_cons, Text.join, String.toList_append, String.toList_append]
      · exact List.mem_append_left _ (List.mem_append_right _ List.mem_cons_self)
      · exact nofun
    have hnone : (Ipv4.render address).toList = [] := congrArg String.toList hempty
    rw [hnone] at hdot
    cases hdot
  | ipv6 groups =>
    refine ⟨fun hempty => ?_, fun c hc => ?_⟩
    · have := congrArg String.toList hempty
      unfold render at this
      rw [String.toList_append, String.toList_append] at this
      cases this
    · unfold render at hc
      rw [String.toList_append, String.toList_append, List.mem_append, List.mem_append] at hc
      rcases hc with (hc | hc) | hc
      · obtain rfl := List.mem_singleton.mp hc
        decide
      · exact Ipv6.isInHost_of_mem_render hc
      · obtain rfl := List.mem_singleton.mp hc
        decide
  | domain name =>
    obtain ⟨form, hform, hne, rfl⟩ := exists_of_parse_domain h
    refine ⟨fun hempty => hne (String.ofList_eq_empty_iff.mp hempty), fun c hc => ?_⟩
    rw [Host.render, String.toList_ofList] at hc
    exact Domain.isInHost_of_toAscii hform c hc

end PackageRelease
