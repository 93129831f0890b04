import PackageRelease.Number.Seconds
import PackageRelease.Number.Word
import PackageRelease.Release.World

/-! # Trying again

  A step that failed for a passing reason is tried again after a wait. The waits double and never
  exceed a minute. Any other failure ends the attempts at once. What is said about a further attempt
  counts all attempts in a word; where no word holds their number, the program panics.
-/

namespace PackageRelease

/-- How often and how patiently a step is tried again. -/
structure RetryPolicy where
  /-- How many attempts follow the first one. -/
  maxRetries : UInt32
  /-- The wait before the second attempt in milliseconds. -/
  baseDelay : Nat
  deriving DecidableEq, Repr

namespace RetryPolicy

/-- The longest wait in milliseconds. -/
def maxDelay : Nat := 60000

/-- The usual wait before the second attempt. -/
def usualDelay : Nat := 1000

/-- The usual waits with a number of further attempts. -/
def withRetries (maxRetries : UInt32) : RetryPolicy := ⟨maxRetries, usualDelay⟩

/-- The factor of a wait stays within 32 bits. -/
def factorLimit : Nat := Word.count 32 - 1

/-- The wait before a further attempt; the first one has number 1. -/
def delayFor (policy : RetryPolicy) (retry : Nat) : Nat :=
  min maxDelay (policy.baseDelay * min factorLimit (Nat.pow 2 (retry - 1)))

/-- The number of attempts in all, if a word holds it. -/
def totalAttempts? (policy : RetryPolicy) : Option UInt32 := Word.add? policy.maxRetries 1

end RetryPolicy

namespace Action

variable {σ α : Type} [Chronicle σ]

/-- Says that an attempt failed and another one follows after a wait. The number of attempts in all
    is worked out for it in a word, and the program panics if no word holds it. -/
def recordRetry (policy : RetryPolicy) (name : String) (retry : Nat) (failure : Failure) :
    Action σ Unit :=
  match policy.totalAttempts? with
  | some total =>
    record .warn (name ++ " failed (attempt " ++ Text.decimal retry ++ "/" ++
      Text.decimal total.toNat ++ "): " ++ failure.message ++ "; retrying in " ++
      Text.seconds (policy.delayFor retry) ++ "s")
  | none => panic failure

/-- Says that a later attempt succeeded. -/
def recordSuccess (name : String) (retries : Nat) : Action σ Unit :=
  if retries = 0 then pure ()
  else record .info (name ++ " succeeded after " ++ Text.decimal retries ++ " retry(ies)")

/-- Makes an attempt when `done` failed before it and at most `left` may follow. An attempt is told
    how many there were before it. -/
def attemptFrom (policy : RetryPolicy) (name : String) (operation : Nat → Action σ α)
    (done : Nat) : (left : Nat) → Action σ α
  | 0 => do
    let result ← operation done
    recordSuccess name done
    return result
  | left + 1 => do
    match ← observe (operation done) with
    | .ok result =>
      recordSuccess name done
      return result
    | .error failure =>
      if failure.isRetryable then
        recordRetry policy name (done + 1) failure
        wait (policy.delayFor (done + 1))
        attemptFrom policy name operation (done + 1) left
      else throw failure

/-- Tries a step until it succeeds, fails for good or has failed too often. -/
def retry (policy : RetryPolicy) (name : String) (operation : Nat → Action σ α) : Action σ α :=
  attemptFrom policy name operation 0 policy.maxRetries.toNat

end Action

end PackageRelease
