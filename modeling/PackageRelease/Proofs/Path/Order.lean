import Mathlib.Data.String.Basic
import PackageRelease.Path

/-! # The order of paths

  Paths are ordered by the first component that differs. Putting paths one after the other into a
  list keeps the list ascending, and an ascending list holds nothing twice.
-/

namespace PackageRelease

namespace Path

/-! ### Components -/

/-- Whether a component comes before another one: by its kind, and names by their characters. -/
def Component.Before : Component → Component → Prop
  | .name s, .name t => s < t
  | a, b => a.rank < b.rank

namespace Component

theorem before_irrefl (a : Component) : ¬ a.Before a := by
  cases a with
  | name s => exact lt_irrefl s
  | _ => exact Nat.lt_irrefl _

theorem before_trans {a b c : Component} (hab : a.Before b) (hbc : b.Before c) : a.Before c := by
  cases a <;> cases b <;> cases c
  -- only between names the kind does not decide
  case name.name.name s t u => exact lt_trans (show s < t from hab) hbc
  all_goals simp [Before, rank] at hab hbc ⊢

theorem compare_name (s t : String) : (name s).compare (name t) =
    if s = t then .eq else if s < t then .lt else .gt := rfl

/-- Two components are equal, or one comes before the other. -/
theorem compare_cases (a b : Component) :
    (a.compare b = .lt ∧ a.Before b) ∨ (a.compare b = .eq ∧ a = b) ∨
      (a.compare b = .gt ∧ b.Before a) := by
  cases a <;> cases b
  case name.name s t =>
    rw [compare_name]
    rcases lt_trichotomy s t with h | rfl | h
    · left
      rw [if_neg (ne_of_lt h), if_pos h]
      exact ⟨rfl, h⟩
    · right
      left
      rw [if_pos rfl]
      exact ⟨rfl, rfl⟩
    · right
      right
      rw [if_neg (ne_of_gt h), if_neg (lt_asymm h)]
      exact ⟨rfl, h⟩
  all_goals simp [Component.compare, rank, Before]
  all_goals decide

end Component

/-! ### Paths -/

/-- Whether a path comes before another one. -/
def Before (p q : Components) : Prop := compareComponents p q = .lt

theorem before_cons_of_before {a b : Component} (h : a.Before b) (p q : Components) :
    Before (a :: p) (b :: q) := by
  unfold Before
  rw [compareComponents]
  rcases a.compare_cases b with ⟨hc, -⟩ | ⟨-, rfl⟩ | ⟨-, hba⟩
  · rw [hc]
  · exact absurd h a.before_irrefl
  · exact absurd (Component.before_trans h hba) a.before_irrefl

theorem compare_self (a : Component) : a.compare a = .eq := by
  rcases a.compare_cases a with ⟨-, h⟩ | ⟨h, -⟩ | ⟨-, h⟩
  · exact absurd h a.before_irrefl
  · exact h
  · exact absurd h a.before_irrefl

theorem compareComponents_cons_self (a : Component) (p q : Components) :
    compareComponents (a :: p) (a :: q) = compareComponents p q := by
  rw [compareComponents, compare_self]

/-- A path comes before another one if the first component that differs does, or if it ends
    first. -/
theorem before_cases {p q : Components} (h : Before p q) :
    (p = [] ∧ q ≠ []) ∨ (∃ a p' b q', p = a :: p' ∧ q = b :: q' ∧ a.Before b) ∨
      ∃ a p' q', p = a :: p' ∧ q = a :: q' ∧ Before p' q' := by
  unfold Before at h
  cases p with
  | nil =>
    cases q with
    | nil => cases h
    | cons b q => exact .inl ⟨rfl, List.cons_ne_nil b q⟩
  | cons a p =>
    cases q with
    | nil => cases h
    | cons b q =>
      right
      rw [compareComponents] at h
      rcases a.compare_cases b with ⟨-, hab⟩ | ⟨hc, rfl⟩ | ⟨hc, -⟩
      · exact .inl ⟨a, p, b, q, rfl, rfl, hab⟩
      · rw [hc] at h
        exact .inr ⟨a, p, q, rfl, rfl, h⟩
      · rw [hc] at h
        cases h

theorem before_irrefl (p : Components) : ¬ Before p p := by
  induction p with
  | nil => exact nofun
  | cons a p ih =>
    unfold Before
    rw [compareComponents_cons_self]
    exact ih

theorem before_trans {p q r : Components} (hpq : Before p q) (hqr : Before q r) : Before p r := by
  induction p generalizing q r with
  | nil =>
    rcases before_cases hqr with ⟨rfl, -⟩ | ⟨a, q', b, r', rfl, rfl, -⟩ | ⟨a, q', r', rfl, rfl, -⟩
    · exact absurd hpq (before_irrefl [])
    · rfl
    · rfl
  | cons a p ih =>
    rcases before_cases hpq with ⟨h, -⟩ | ⟨_, _, b, q', heq, rfl, hab⟩ | ⟨_, _, q', heq, rfl, hpq'⟩
    · cases h
    · cases heq
      rcases before_cases hqr with ⟨h, -⟩ | ⟨_, _, c, r', heq, rfl, hbc⟩ | ⟨_, _, r', heq, rfl, -⟩
      · cases h
      · cases heq
        exact before_cons_of_before (Component.before_trans hab hbc) p r'
      · cases heq
        exact before_cons_of_before hab p r'
    · cases heq
      rcases before_cases hqr with
        ⟨h, -⟩ | ⟨_, _, c, r', heq, rfl, hbc⟩ | ⟨_, _, r', heq, rfl, hqr'⟩
      · cases h
      · cases heq
        exact before_cons_of_before hbc p r'
      · cases heq
        unfold Before
        rw [compareComponents_cons_self]
        exact ih hpq' hqr'

/-- Two paths are equal, or one comes before the other. -/
theorem compareComponents_cases (p q : Components) :
    (compareComponents p q = .lt ∧ Before p q) ∨ (compareComponents p q = .eq ∧ p = q) ∨
      (compareComponents p q = .gt ∧ Before q p) := by
  induction p generalizing q with
  | nil =>
    cases q with
    | nil => exact .inr (.inl ⟨rfl, rfl⟩)
    | cons b q => exact .inl ⟨rfl, rfl⟩
  | cons a p ih =>
    cases q with
    | nil => exact .inr (.inr ⟨rfl, rfl⟩)
    | cons b q =>
      rcases a.compare_cases b with ⟨hc, hab⟩ | ⟨-, rfl⟩ | ⟨hc, hba⟩
      · exact .inl ⟨before_cons_of_before hab p q, before_cons_of_before hab p q⟩
      · unfold Before
        rw [compareComponents_cons_self, compareComponents_cons_self]
        exact (ih q).imp_right (.imp_left fun h => ⟨h.1, congrArg (a :: ·) h.2⟩)
      · exact .inr (.inr ⟨by rw [compareComponents, hc], before_cons_of_before hba q p⟩)

/-! ### Ascending lists -/

/-- Whether the paths of a list come one before the other. -/
def Ascending (paths : List Components) : Prop := paths.Pairwise Before

theorem mem_insert {p q : Components} {paths : List Components} :
    q ∈ insert p paths ↔ q = p ∨ q ∈ paths := by
  induction paths with
  | nil => simp [insert]
  | cons first rest ih =>
    rw [insert]
    rcases compareComponents_cases p first with ⟨hc, -⟩ | ⟨hc, rfl⟩ | ⟨hc, -⟩
    · rw [hc]
      simp
    · rw [hc]
      simp
    · rw [hc]
      dsimp only
      rw [List.mem_cons, ih, List.mem_cons]
      exact or_left_comm

/-- Putting a path into an ascending list keeps it ascending. -/
theorem ascending_insert (p : Components) {paths : List Components} (h : Ascending paths) :
    Ascending (insert p paths) := by
  induction paths with
  | nil => exact List.pairwise_singleton Before p
  | cons first rest ih =>
    obtain ⟨hfirst, hrest⟩ := List.pairwise_cons.mp h
    rw [insert]
    rcases compareComponents_cases p first with ⟨hc, hp⟩ | ⟨hc, rfl⟩ | ⟨hc, hp⟩
    · rw [hc]
      refine List.pairwise_cons.mpr ⟨fun q hq => ?_, h⟩
      rcases List.mem_cons.mp hq with rfl | hq
      · exact hp
      · exact before_trans hp (hfirst q hq)
    · rw [hc]
      exact h
    · -- the new path goes further back, and the first one stays before it
      rw [hc]
      refine List.pairwise_cons.mpr ⟨fun q hq => ?_, ih hrest⟩
      rcases mem_insert.mp hq with rfl | hq
      · exact hp
      · exact hfirst q hq

theorem nodup_of_ascending {paths : List Components} (h : Ascending paths) : paths.Nodup := by
  refine List.Pairwise.imp ?_ h
  intro p q hpq heq
  subst heq
  exact before_irrefl p hpq

end Path

end PackageRelease
