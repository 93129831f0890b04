import Mathlib.Data.List.Forall2
import PackageRelease.Text.Basic

/-! # Searching a text

  A text begins with another one, or holds it somewhere, exactly if it does so as a list of
  characters. A search in a folded text finds a phrase in whatever case its letters were written.
-/

namespace PackageRelease.Text

/-! ### Beginnings and places -/

theorem isSome_after?_iff {lead cs : List Char} : (after? lead cs).isSome = true ↔ lead <+: cs := by
  induction lead generalizing cs with
  | nil => exact iff_of_true rfl List.nil_prefix
  | cons p lead ih =>
    cases cs with
    | nil => exact iff_of_false nofun (by simp)
    | cons c cs =>
      rw [after?, List.cons_prefix_cons]
      by_cases hpc : p = c
      · rw [if_pos (beq_iff_eq.mpr hpc), ih]
        exact ⟨fun h => ⟨hpc, h⟩, fun h => h.2⟩
      · rw [if_neg (fun h => hpc (beq_iff_eq.mp h))]
        exact iff_of_false nofun fun h => hpc h.1

theorem occursIn_iff {needle cs : List Char} : occursIn needle cs = true ↔ needle <:+: cs := by
  induction cs with
  | nil => rw [occursIn, List.isEmpty_iff, List.infix_nil]
  | cons c cs ih => rw [occursIn, Bool.or_eq_true, isSome_after?_iff, ih, List.infix_cons_iff]

/-! ### Whatever the case -/

/-- Whether two characters are the same but for the case of an ASCII letter. -/
def SameButCase (c d : Char) : Prop :=
  c = d ∨ isLetter c = true ∧ isLetter d = true ∧ (c.toNat + 32 = d.toNat ∨ d.toNat + 32 = c.toNat)

/-- Whether a phrase stands somewhere in a text, whatever the case of its letters. -/
def Mentions (phrase text : String) : Prop :=
  ∃ found, found <:+: text.toList ∧ List.Forall₂ SameButCase found phrase.toList

/-- Folding leads to a character that is no capital from that character and from its capital. -/
theorem lowerChar_eq_iff {c d : Char} (hd : ('A' ≤ d && d ≤ 'Z') = false) :
    lowerChar c = d ↔ SameButCase c d := by
  have hcode : ∀ a b : Char, (a ≤ b) = (a.toNat ≤ b.toNat) := fun _ _ => rfl
  unfold lowerChar SameButCase isLetter
  simp only [hcode, Bool.and_eq_true, Bool.or_eq_true, decide_eq_true_iff, Bool.and_eq_false_iff,
    decide_eq_false_iff_not, Char.reduceToNat] at hd ⊢
  split
  · next hcapital =>
    have hvalid : (c.toNat + 32).isValidChar := .inl (by omega)
    have hsmall : (Char.ofNat (c.toNat + 32)).toNat = c.toNat + 32 := by
      unfold Char.ofNat
      rw [dif_pos hvalid]
      rfl
    rw [← Char.toNat_inj, hsmall, ← Char.toNat_inj]
    omega
  · next hother =>
    rw [← Char.toNat_inj]
    omega

theorem map_lowerChar_eq_iff {found small : List Char}
    (hsmall : ∀ d ∈ small, ('A' ≤ d && d ≤ 'Z') = false) :
    found.map lowerChar = small ↔ List.Forall₂ SameButCase found small := by
  induction small generalizing found with
  | nil => rw [List.map_eq_nil_iff, List.forall₂_nil_right_iff]
  | cons d small ih =>
    obtain ⟨hd, hrest⟩ := List.forall_mem_cons.mp hsmall
    cases found with
    | nil => simp
    | cons c found => rw [List.map_cons, List.cons.injEq, List.forall₂_cons, lowerChar_eq_iff hd,
        ih hrest]

/-- A phrase without capitals is found in a folded text wherever the text mentions it. -/
theorem contains_lower_iff {phrase : String}
    (hphrase : (phrase.toList.any fun d => 'A' ≤ d && d ≤ 'Z') = false) (text : String) :
    contains phrase (lower text) = true ↔ Mentions phrase text := by
  have hsmall : ∀ d ∈ phrase.toList, ('A' ≤ d && d ≤ 'Z') = false := fun d hd =>
    Bool.eq_false_iff.mpr (List.any_eq_false.mp hphrase d hd)
  unfold contains lower Mentions
  rw [String.toList_ofList, occursIn_iff, List.infix_map_iff]
  refine exists_congr fun found => and_congr_right fun _ => ?_
  rw [eq_comm, map_lowerChar_eq_iff hsmall]

end PackageRelease.Text
