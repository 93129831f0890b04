import PackageRelease.Proofs.Registry.Client
import PackageRelease.Proofs.Text.Searching

/-! # The class of an answer

  Every answer falls into exactly one of five classes: the upload is accepted, in conflict with a
  version that is there, unauthorized, to be tried again later, or rejected for good. The classes
  are conditions on the status; only of a refusal with 403 does the body decide. What a caller does
  about a failure (trying again, the exit code) is then a condition on the answer, too.
-/

namespace PackageRelease.Verdict

/-! ### Classes -/

/-- Whether a body says, in whatever case, that the version is there already. -/
def MentionsConflict (body : String) : Prop :=
  Text.Mentions "previously published" body ∨ Text.Mentions "cannot publish over" body

/-- The answers that accept an upload. -/
def Accepts (status : Status) : Prop := 200 ≤ status.code ∧ status.code ≤ 299

/-- The answers that report a conflict. -/
def Conflicts (status : Status) (body : String) : Prop :=
  status.code = 409 ∨ status.code = 403 ∧ MentionsConflict body

/-- The answers that refuse the token. -/
def Refuses (status : Status) (body : String) : Prop :=
  status.code = 401 ∨ status.code = 403 ∧ ¬ MentionsConflict body

/-- The answers that ask to come back later. -/
def Defers (status : Status) : Prop :=
  status.code = 408 ∨ status.code = 429 ∨ 500 ≤ status.code ∧ status.code ≤ 599

/-- Whether a reason is a text with the status in it. -/
def NamesStatus (status : Status) (reason : String) : Prop :=
  reason ≠ "" ∧ ∃ front back, reason = front ++ status.message ++ back

/-- What an answer about a version of a package comes to. -/
structure Sorted (status : Status) (body name version : String) (outcome : Except Failure Unit) :
    Prop where
  /-- Success. -/
  accepted_iff : outcome = .ok () ↔ Accepts status
  /-- A conflict names the package and its version. -/
  conflict_iff : outcome = .error (.publish (.conflict name version)) ↔ Conflicts status body
  /-- A refusal of the token. -/
  unauthorized_iff : (∃ reason, outcome = .error (.publish (.unauthorized reason))) ↔
    Refuses status body
  /-- A failure that may pass. -/
  network_iff : (∃ reason, outcome = .error (.publish (.network reason))) ↔ Defers status
  /-- Every other answer is a rejection, with its status. -/
  rejected_iff : (∃ reason, outcome = .error (.publish (.rejected status.code reason))) ↔
    ¬ Accepts status ∧ ¬ Conflicts status body ∧ ¬ Refuses status body ∧ ¬ Defers status
  /-- It is tried again exactly after an answer that asks for it. -/
  retryable_iff : (∃ failure, outcome = .error failure ∧ failure.isRetryable = true) ↔ Defers status
  /-- The exit code 2 stands for a conflict. -/
  exitCode_iff : (∃ failure, outcome = .error failure ∧ failure.exitCode = 2) ↔
    Conflicts status body
  /-- Every reason that is given names the status. -/
  reason_names_status : ∀ reason, (outcome = .error (.publish (.unauthorized reason)) ∨
    outcome = .error (.publish (.network reason)) ∨
    ∃ code, outcome = .error (.publish (.rejected code reason))) → NamesStatus status reason

theorem statesConflict_iff (body : String) : statesConflict body = true ↔ MentionsConflict body := by
  unfold statesConflict MentionsConflict
  dsimp only
  rw [Bool.or_eq_true, Text.contains_lower_iff (by decide), Text.contains_lower_iff (by decide)]

/-- The reason ends in the status or is the status alone. -/
theorem namesStatus_reason (status : Status) (body : String) :
    NamesStatus status (reason status body) := by
  have hmessage : status.message ≠ "" := by
    intro h
    have hlength := congrArg String.length h
    unfold Status.message at hlength
    simp [String.length_append] at hlength
  unfold reason
  split
  · exact ⟨hmessage, "", "", by simp⟩
  · refine ⟨fun h => ?_, detail body ++ " (", ")", ?_⟩
    · have hlength := congrArg String.length h
      simp [String.length_append] at hlength
    · simp [String.append_assoc]

/-! ### The class decides -/

/-- What an answer comes to, by the first class that it falls into. -/
theorem ofAnswer_cases (status : Status) (body name version : String) :
    (Accepts status ∧ ofAnswer status body name version = .ok ()) ∨
    (Conflicts status body ∧
      ofAnswer status body name version = .error (.publish (.conflict name version))) ∨
    (Refuses status body ∧ ofAnswer status body name version =
      .error (.publish (.unauthorized (reason status body)))) ∨
    (Defers status ∧
      ofAnswer status body name version = .error (.publish (.network (reason status body)))) ∨
    (¬ Accepts status ∧ ¬ Conflicts status body ∧ ¬ Refuses status body ∧ ¬ Defers status ∧
      ofAnswer status body name version =
        .error (.publish (.rejected status.code (reason status body)))) := by
  unfold ofAnswer
  dsimp only
  by_cases hsuccess : status.isSuccess = true
  · rw [if_pos hsuccess]
    rw [Status.isSuccess_iff] at hsuccess
    exact .inl ⟨by unfold Accepts; omega, rfl⟩
  rw [if_neg hsuccess]
  rw [Status.isSuccess_iff] at hsuccess
  by_cases hconflict : status.code = 409 ∨ (status.code = 403 ∧ statesConflict body = true)
  · rw [if_pos hconflict]
    rw [statesConflict_iff] at hconflict
    exact .inr (.inl ⟨hconflict, rfl⟩)
  rw [if_neg hconflict]
  rw [statesConflict_iff] at hconflict
  by_cases hrefused : status.code = 401 ∨ status.code = 403
  · -- a refusal that is no conflict
    have hclass : Refuses status body :=
      hrefused.imp_right fun h => ⟨h, fun hmentions => hconflict (.inr ⟨h, hmentions⟩)⟩
    rw [if_pos hrefused]
    exact .inr (.inr (.inl ⟨hclass, rfl⟩))
  rw [if_neg hrefused]
  by_cases hdeferred : status.code = 408 ∨ status.code = 429 ∨ status.isServerError = true
  · rw [if_pos hdeferred]
    rw [Status.isServerError_iff] at hdeferred
    exact .inr (.inr (.inr (.inl ⟨by unfold Defers; omega, rfl⟩)))
  rw [if_neg hdeferred]
  rw [Status.isServerError_iff] at hdeferred
  refine .inr (.inr (.inr (.inr ⟨by unfold Accepts; omega, hconflict, ?_, by unfold Defers; omega, rfl⟩)))
  exact fun h => hrefused (h.imp_right And.left)

theorem not_accepts_of_conflicts {status : Status} {body : String} (h : Conflicts status body) :
    ¬ Accepts status ∧ ¬ Refuses status body ∧ ¬ Defers status := by
  unfold Conflicts at h
  unfold Accepts Refuses Defers
  by_cases hmentions : MentionsConflict body
  · simp only [hmentions, and_true, not_true_eq_false, and_false, or_false] at h ⊢
    omega
  · simp only [hmentions, and_false, or_false] at h
    omega

theorem not_accepts_of_refuses {status : Status} {body : String} (h : Refuses status body) :
    ¬ Accepts status ∧ ¬ Defers status := by
  have hcode : status.code = 401 ∨ status.code = 403 := h.imp_right And.left
  unfold Accepts Defers
  omega

theorem not_accepts_of_defers {status : Status} (h : Defers status) : ¬ Accepts status := by
  unfold Defers at h
  unfold Accepts
  omega

/-- The classes exclude one another, so what an answer comes to tells its class. -/
theorem sorted_ofAnswer (status : Status) (body name version : String) :
    Sorted status body name version (ofAnswer status body name version) := by
  have hreason := namesStatus_reason status body
  -- of the failures with a verdict only two make a difference to a caller
  have hretryable : ∀ fault, (Failure.publish fault).isRetryable = true ↔
      ∃ reason, fault = .network reason := by
    intro fault
    cases fault <;> simp [Failure.isRetryable, Failure.root]
  have hexitCode : ∀ fault, (Failure.publish fault).exitCode = 2 ↔
      ∃ package version, fault = .conflict package version := by
    intro fault
    cases fault <;> simp [Failure.exitCode, Failure.isConflict, Failure.root]
  rcases ofAnswer_cases status body name version with
    ⟨haccepts, h⟩ | ⟨hconflicts, h⟩ | ⟨hrefuses, h⟩ | ⟨hdefers, h⟩ |
      ⟨haccepts, hconflicts, hrefuses, hdefers, h⟩
  · -- an accepted upload is in none of the other classes
    have hconflicts : ¬ Conflicts status body := fun h => (not_accepts_of_conflicts h).1 haccepts
    have hrefuses : ¬ Refuses status body := fun h => (not_accepts_of_refuses h).1 haccepts
    have hdefers : ¬ Defers status := fun h => not_accepts_of_defers h haccepts
    rw [h]
    constructor <;> simp [haccepts, hconflicts, hrefuses, hdefers]
  · obtain ⟨haccepts, hrefuses, hdefers⟩ := not_accepts_of_conflicts hconflicts
    rw [h]
    constructor <;> simp [haccepts, hconflicts, hrefuses, hdefers, hretryable, hexitCode]
  · obtain ⟨haccepts, hdefers⟩ := not_accepts_of_refuses hrefuses
    have hconflicts : ¬ Conflicts status body := fun h => (not_accepts_of_conflicts h).2.1 hrefuses
    rw [h]
    constructor <;> simp [haccepts, hconflicts, hrefuses, hdefers, hretryable, hexitCode, hreason]
  · have haccepts : ¬ Accepts status := not_accepts_of_defers hdefers
    have hconflicts : ¬ Conflicts status body := fun h => (not_accepts_of_conflicts h).2.2 hdefers
    have hrefuses : ¬ Refuses status body := fun h => (not_accepts_of_refuses h).2 hdefers
    rw [h]
    constructor <;> simp [haccepts, hconflicts, hrefuses, hdefers, hretryable, hexitCode, hreason]
  · rw [h]
    constructor <;> simp [haccepts, hconflicts, hrefuses, hdefers, hretryable, hexitCode, hreason]

end PackageRelease.Verdict
