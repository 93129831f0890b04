import Mathlib.Data.List.Forall2
import PackageRelease.Proofs.Registry.Sending
import PackageRelease.Proofs.Release.Likeness

/-! # What requests tell about a token

  Two releases that differ in their tokens are counterparts: wherever one sends a request, the other
  one sends the same request, except that an upload has the other token in the header that carries
  it. The key idea: a token is looked at only to make this header and to see whether it may stand
  there, so with tokens that may, nothing else can differ.
-/

namespace PackageRelease

/-! ### Requests -/

/-- A header value that authorizes by a name and a password, and not by a token. -/
def IsBasic (value : String) : Prop := ∃ credentials, value = "Basic " ++ credentials

/-- Two requests that were made with a token each and differ in nothing else. -/
structure Request.Counterparts (first second : Token) (a b : Request) : Prop where
  /-- They ask for the same. -/
  method_eq : a.method = b.method
  /-- They go to the same address. -/
  url_eq : a.url = b.url
  /-- They send the same along. -/
  body_eq : a.body? = b.body?
  /-- Questions are the same in every header, and none of their headers carries a token. -/
  of_get : a.method = .get → a.headers = b.headers ∧
    ∀ value, ("authorization", value) ∈ a.headers → IsBasic value
  /-- Uploads carry their token in one header, and all others are the same. -/
  of_put : a.method = .put → ∃ front back,
    a.headers = front ++ ("authorization", "Bearer " ++ first.secret) :: back ∧
    b.headers = front ++ ("authorization", "Bearer " ++ second.secret) :: back ∧
    ∀ value, ("authorization", value) ∈ front ++ back → IsBasic value

/-- Two attempts with counterparts that met with the same. -/
structure Attempt.Counterparts (first second : Token) (a b : Attempt) : Prop where
  /-- What was sent. -/
  request : Request.Counterparts first second a.request b.request
  /-- What came back. -/
  answer_eq : a.answer? = b.answer?

namespace Registry

theorem isBasic_of_mem_userHeaders (url : Url) {value : String}
    (h : ("authorization", value) ∈ userHeaders url) : IsBasic value := by
  obtain ⟨basic, hbasic, hvalue⟩ := List.mem_map.mp h
  obtain ⟨octets, rfl⟩ := basicHeader?_eq_some (Option.mem_toList.mp hbasic)
  cases hvalue
  exact ⟨_, rfl⟩

/-- A question is its own counterpart. -/
theorem counterparts_lookupRequest (first second : Token) (url : Url) :
    Request.Counterparts first second (lookupRequest url) (lookupRequest url) where
  method_eq := rfl
  url_eq := rfl
  body_eq := rfl
  of_get _ := by
    refine ⟨rfl, fun value hvalue => isBasic_of_mem_userHeaders url ?_⟩
    unfold lookupRequest at hvalue
    rw [headers_request] at hvalue
    simpa using hvalue
  of_put h := by
    rw [lookupRequest_method] at h
    cases h

/-- Uploads of the same document to the same address are counterparts. -/
theorem counterparts_uploadRequest (first second : Token) (url : Url) (document : Json) :
    Request.Counterparts first second (uploadRequest url first document)
      (uploadRequest url second document) where
  method_eq := by rw [uploadRequest_method, uploadRequest_method]
  url_eq := by
    unfold uploadRequest request
    dsimp only
    cases basicHeader? url <;> rfl
  body_eq := by rw [uploadRequest_body, uploadRequest_body]
  of_get h := by
    rw [uploadRequest_method] at h
    cases h
  of_put _ := by
    refine ⟨userHeaders url, [("npm-command", "publish"), ("content-type", "application/json"),
      ("accept", "*/*"), ("user-agent", userAgent)], ?_, ?_, fun value hvalue =>
        isBasic_of_mem_userHeaders url ?_⟩
    · unfold uploadRequest
      rw [headers_request, List.append_assoc]
      rfl
    · unfold uploadRequest
      rw [headers_request, List.append_assoc]
      rfl
    · simpa using hvalue

/-- Whether an upload can be sent does not depend on its token, as long as the token may stand in a
    header. -/
theorem unsendable?_eq_of_isLegal {first second : Token} (hfirst : first.IsLegal)
    (hsecond : second.IsLegal) (url : Url) (document : Json) :
    unsendable? (uploadRequest url first document) =
      unsendable? (uploadRequest url second document) := by
  unfold unsendable?
  rw [all_headers_uploadRequest, all_headers_uploadRequest, hfirst, hsecond,
    (counterparts_uploadRequest first second url document).url_eq]

end Registry

/-! ### Worlds -/

/-- Someone who makes a release: the variables that the program is started with, and the token that
    it uses. -/
structure Holder where
  /-- The variables. -/
  environment : Environment
  /-- The token. -/
  token : Token

/-- The worlds of two holders that differ in the variables and the tokens of these only. -/
structure World.Counterparts (p q : Holder) (v w : World) : Prop where
  /-- Each holder has variables of its own. -/
  environment_eq : v.environment = p.environment ∧ w.environment = q.environment
  /-- The files are the same. -/
  files_eq : v.files = w.files
  /-- Further requests will meet with the same. -/
  answers_eq : v.answers = w.answers
  /-- The requests so far differ in their tokens only. -/
  attempts : List.Forall₂ (Attempt.Counterparts p.token q.token) v.attempts w.attempts
  /-- The logs are the same. -/
  log_eq : v.log = w.log
  /-- The waits are the same. -/
  waits_eq : v.waits = w.waits
  /-- Both have panicked, or neither. -/
  panicked_eq : v.panicked = w.panicked

namespace World

/-- The worlds of two holders with the same files and the same registry, before anything is done. -/
theorem counterparts_start (p q : Holder) (files : FileSystem) (answers : List (Option Answer)) :
    Counterparts p q (start files p.environment answers) (start files q.environment answers) where
  environment_eq := ⟨rfl, rfl⟩
  files_eq := rfl
  answers_eq := rfl
  attempts := .nil
  log_eq := rfl
  waits_eq := rfl
  panicked_eq := rfl

theorem steady_counterparts (p q : Holder) : Action.Steady (Counterparts p q) where
  record _ _ _ h := { h with log_eq := congrArg (· ++ [_]) h.log_eq }
  wait _ _ _ h := { h with waits_eq := congrArg (· ++ [_]) h.waits_eq }
  panic _ _ h := { h with panicked_eq := rfl }

end World

/-! ### Exchanges -/

namespace Registry

variable {p q : Holder}

/-- Counterparts meet with the same. -/
theorem matches_exchange {a b : Request} (hrequest : Request.Counterparts p.token q.token a b)
    (hsendable : unsendable? a = unsendable? b) (peer : String) :
    Action.Matches (World.Counterparts p q) (exchange peer a) (exchange peer b) := by
  unfold exchange
  dsimp only
  rw [← hsendable, ← hrequest.url_eq]
  cases unsendable? a with
  | some reason => exact Action.matches_throw _
  | none =>
    refine Action.matches_bind (fun v w h => ?_) fun answer? => ?_
    · rw [perform_send, perform_send, ← h.answers_eq]
      refine ⟨rfl, { h with answers_eq := rfl, attempts := ?_ }⟩
      exact List.rel_append h.attempts (.cons ⟨hrequest, rfl⟩ .nil)
    · cases answer? with
      | some answer => exact Action.matches_pure answer
      | none => exact Action.matches_throw _

/-- Uploads with tokens that may stand in a header meet with the same. -/
theorem matches_exchange_uploadRequest (hfirst : p.token.IsLegal) (hsecond : q.token.IsLegal)
    (peer : String) (url : Url) (document : Json) :
    Action.Matches (World.Counterparts p q) (exchange peer (uploadRequest url p.token document))
      (exchange peer (uploadRequest url q.token document)) :=
  matches_exchange (counterparts_uploadRequest _ _ _ _)
    (unsendable?_eq_of_isLegal hfirst hsecond _ _) peer

end Registry

theorem World.likeness_counterparts (p q : Holder) : World.Likeness (World.Counterparts p q) where
  toSteady := World.steady_counterparts p q
  files_eq _ _ h := h.files_eq
  lookup peer url :=
    Registry.matches_exchange (Registry.counterparts_lookupRequest _ _ url) rfl peer

end PackageRelease
