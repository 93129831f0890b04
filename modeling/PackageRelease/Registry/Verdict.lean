import PackageRelease.Json.Reader
import PackageRelease.Registry.Status
import PackageRelease.Release.Failure

/-! # What an answer means

  The status decides what an answer to an upload means; the body counts only where a refusal may be
  a hidden conflict, and for the reason that is shown.
-/

namespace PackageRelease.Verdict

/-- The greatest number of characters of a body in a message. -/
def excerptLength : Nat := 200

/-- What a body says: the text under `error` or `message` of a JSON object, else the beginning of
    the body itself. -/
def detail (body : String) : String :=
  let stated? := do
    let value ← (Json.parse body).toOption
    ((value.field? "error").orElse fun _ => value.field? "message").bind Json.string?
  stated?.getD (String.ofList ((Text.trim body).toList.take excerptLength))

/-- The reason that an answer gives, with its status. -/
def reason (status : Status) (body : String) : String :=
  if (detail body).isEmpty then status.message
  else detail body ++ " (" ++ status.message ++ ")"

/-- Whether a body says that the version is there already. -/
def statesConflict (body : String) : Bool :=
  let body := Text.lower body
  Text.contains "previously published" body || Text.contains "cannot publish over" body

/-- What the answer to a request about a version of a package means. -/
def ofAnswer (status : Status) (body name version : String) : Except Failure Unit :=
  let reason := reason status body
  if status.isSuccess then .ok ()
  else if status.code = 409 ∨ (status.code = 403 ∧ statesConflict body) then
    .error (.publish (.conflict name version))
  else if status.code = 401 ∨ status.code = 403 then .error (.publish (.unauthorized reason))
  else if status.code = 408 ∨ status.code = 429 ∨ status.isServerError then
    .error (.publish (.network reason))
  else .error (.publish (.rejected status.code reason))

end PackageRelease.Verdict
