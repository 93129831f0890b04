import PackageRelease.Proofs.Json.Value
import PackageRelease.Proofs.Release.Perform
import PackageRelease.Registry.Client

/-! # What the registry is asked

  Each exchange with the registry sends one request at most, and what comes of it is read off the
  answer: an upload is accepted, fails for good or may be repeated, and a question for a version is
  refused or shows that the version is free. Sending requests changes neither files nor environment.
-/

namespace PackageRelease

/-! ### What answers mean -/

namespace Attempt

/-- Whether the same request may be sent again: there was no answer, or it asks to come back
    later. -/
def IsTransient (a : Attempt) : Prop :=
  ∀ answer, a.answer? = some answer → answer.status.code = 408 ∨ answer.status.code = 429 ∨
    (500 ≤ answer.status.code ∧ answer.status.code < 600)

/-- Whether the request was answered with success. -/
def IsAccepted (a : Attempt) : Prop :=
  ∃ answer, a.answer? = some answer ∧ 200 ≤ answer.status.code ∧ answer.status.code < 300

/-- Whether the answer says that a version is free: the package is not known, or the JSON document
    about it has no such key in an object of versions. -/
def ShowsFree (a : Attempt) (version : String) : Prop :=
  ∃ answer, a.answer? = some answer ∧ (answer.status.code = 404 ∨
    (200 ≤ answer.status.code ∧ answer.status.code < 300) ∧
      ∃ body document, answer.body? = some body ∧ Json.parse body = .ok document ∧
        ∀ versions, document.field? "versions" = some (.object versions) →
          version ∉ versions.map Prod.fst)

/-- Whether the answer says that a version is there: the JSON document about the package has such a
    key in an object of versions. -/
def ShowsTaken (a : Attempt) (version : String) : Prop :=
  ∃ answer, a.answer? = some answer ∧ (200 ≤ answer.status.code ∧ answer.status.code < 300) ∧
    ∃ body document, answer.body? = some body ∧ Json.parse body = .ok document ∧
      ∃ versions, document.field? "versions" = some (.object versions) ∧
        version ∈ versions.map Prod.fst

/-- Whether the answer tells nothing about a version. -/
def Untold (a : Attempt) (version : String) : Prop :=
  ¬ a.ShowsTaken version ∧ ¬ a.ShowsFree version

variable {version : String} {request : Request} {answer : Answer}

theorem untold_of_lost : Untold ⟨request, none⟩ version := by
  constructor
  · rintro ⟨answer, h, -⟩
    cases h
  · rintro ⟨answer, h, -⟩
    cases h

/-- A refusal tells nothing, unless the package is not known. -/
theorem untold_of_status (hmissing : answer.status.code ≠ 404)
    (hcode : ¬ (200 ≤ answer.status.code ∧ answer.status.code < 300)) :
    Untold ⟨request, some answer⟩ version := by
  constructor
  · rintro ⟨_, ⟨⟩, hsuccess, -⟩
    exact hcode hsuccess
  · rintro ⟨_, ⟨⟩, hother | ⟨hsuccess, -⟩⟩
    · exact hmissing hother
    · exact hcode hsuccess

/-- Neither does a success without a document. -/
theorem untold_of_unread (hmissing : answer.status.code ≠ 404)
    (hunread : ∀ body document, answer.body? = some body → Json.parse body ≠ .ok document) :
    Untold ⟨request, some answer⟩ version := by
  constructor
  · rintro ⟨_, ⟨⟩, -, body, document, hbody, hparse, -⟩
    exact hunread body document hbody hparse
  · rintro ⟨_, ⟨⟩, hother | ⟨-, body, document, hbody, hparse, -⟩⟩
    · exact hmissing hother
    · exact hunread body document hbody hparse

end Attempt

theorem Status.isSuccess_iff (status : Status) :
    status.isSuccess = true ↔ 200 ≤ status.code ∧ status.code < 300 := by
  unfold Status.isSuccess
  rw [Bool.and_eq_true, decide_eq_true_iff, decide_eq_true_iff]

theorem Status.isServerError_iff (status : Status) :
    status.isServerError = true ↔ 500 ≤ status.code ∧ status.code < 600 := by
  unfold Status.isServerError
  rw [Bool.and_eq_true, decide_eq_true_iff, decide_eq_true_iff]

/-- Only a success is no failure. -/
theorem Verdict.ofAnswer_eq_ok_iff (status : Status) (body name version : String) :
    Verdict.ofAnswer status body name version = .ok () ↔ status.isSuccess = true := by
  unfold Verdict.ofAnswer
  dsimp only
  split
  · next h => exact ⟨fun _ => h, fun _ => rfl⟩
  · next h =>
    -- every other status has a failure of its own
    refine ⟨fun hok => ?_, fun hs => absurd hs h⟩
    repeat' split at hok
    all_goals cases hok

/-- A failure that may pass comes from an answer that asks to come back later. -/
theorem Verdict.transient_of_isRetryable {status : Status} {body name version : String}
    {failure : Failure} (h : Verdict.ofAnswer status body name version = .error failure)
    (hretry : failure.isRetryable = true) :
    status.code = 408 ∨ status.code = 429 ∨ (500 ≤ status.code ∧ status.code < 600) := by
  unfold Verdict.ofAnswer at h
  dsimp only at h
  split at h
  · cases h
  · split at h
    · cases h
      cases hretry
    · split at h
      · cases h
        cases hretry
      · split at h
        · next hcode => rwa [Status.isServerError_iff] at hcode
        · cases h
          cases hretry

namespace Registry

/-- A document lists a version exactly if it has such a key in an object of versions. -/
theorem lists_iff {document : Json} {version : String} : lists document version = true ↔
    ∃ versions, document.field? "versions" = some (.object versions) ∧
      version ∈ versions.map Prod.fst := by
  unfold lists
  constructor
  · intro h
    cases hvalue : document.field? "versions" with
    | none =>
      rw [hvalue] at h
      cases h
    | some value =>
      rw [hvalue] at h
      cases value with
      | object versions => exact ⟨versions, rfl, (Fields.isSome_get?_iff _ _).mp h⟩
      | _ => cases h
  · rintro ⟨versions, hversions, hmem⟩
    rw [hversions]
    exact (Fields.isSome_get?_iff _ _).mpr hmem

/-- The document is read from a body of JSON that has come whole. -/
theorem documentOf_eq_ok_iff {address : String} {answer : Answer} {document : Json} :
    documentOf address answer = .ok document ↔
      ∃ body, answer.body? = some body ∧ Json.parse body = .ok document := by
  unfold documentOf
  cases answer.body? with
  | none => exact iff_of_false nofun nofun
  | some body =>
    rw [Option.map_some]
    cases hparse : Json.parse body with
    | error fault => simp [hparse]
    | ok parsed => simp [hparse]

/-! ### One request -/

/-- The part of the world that sending requests leaves alone. -/
def background (world : World) : FileSystem × Environment × Bool :=
  (world.files, world.environment, world.panicked)

/-- What keeps this part keeps everything that is seen of it. -/
theorem keeps_of_background {α γ : Type} {view : World → γ} {action : Action World α}
    (hview : ∀ v w, background v = background w → view v = view w)
    (h : Action.Keeps background action) : Action.Keeps view action :=
  fun world => hview _ _ (h world)

theorem files_of_background (v w : World) (h : background v = background w) : v.files = w.files :=
  congrArg Prod.fst h

theorem panicked_of_background (v w : World) (h : background v = background w) :
    v.panicked = w.panicked :=
  congrArg (fun view => view.2.2) h

theorem keeps_background_note (level : Level) (text : String) :
    Action.Keeps background (Action.record level text : Action World Unit) := fun _ => rfl

theorem keeps_background_exchange (peer : String) (request : Request) :
    Action.Keeps background (exchange peer request) := by
  unfold exchange
  dsimp only
  split
  · exact Action.keeps_throw _
  · refine Action.keeps_bind (fun _ => rfl) fun answer? => ?_
    cases answer? with
    | some answer => exact Action.keeps_pure answer
    | none => exact Action.keeps_throw _

theorem keeps_background_publish (target : Target) (token : Token) :
    Action.Keeps background (publish target token) :=
  Action.keeps_bind (Action.keeps_reading _) fun _ =>
    Action.keeps_bind (keeps_background_note _ _) fun _ =>
      Action.keeps_bind (Action.keeps_lift _) fun _ =>
        Action.keeps_bind (keeps_background_exchange _ _) fun _ =>
          Action.keeps_bind (Action.keeps_lift _) fun _ =>
            Action.keeps_bind (keeps_background_note _ _) fun _ => Action.keeps_pure _

theorem keeps_background_versionExists (target : Target) (name version : String) :
    Action.Keeps background (versionExists target name version) := by
  unfold versionExists
  refine Action.keeps_bind (Action.keeps_lift _) fun url =>
    Action.keeps_bind (keeps_background_exchange _ _) fun answer => ?_
  split
  · exact Action.keeps_pure _
  · split
    · exact Action.keeps_bind (Action.keeps_lift _) fun _ => Action.keeps_pure _
    · exact Action.keeps_bind (Action.keeps_lift _) fun _ => Action.keeps_pure _

/-- How an exchange can go, by its outcome and the world it leaves. -/
inductive ExchangeResult (request : Request) (world : World) :
    Except Failure Answer → World → Prop where
  /-- The request cannot be sent. -/
  | unsent {fault reason : String} (hfault : unsendable? request = some fault) :
      ExchangeResult request world (.error (.publish (.network reason))) world
  /-- No answer comes. -/
  | lost {reason : String} {after : World} (hsendable : unsendable? request = none)
      (hattempts : after.attempts = world.attempts ++ [⟨request, none⟩])
      (hnext : world.answers.head?.join = none) :
      ExchangeResult request world (.error (.publish (.network reason))) after
  /-- The next answer comes and is handed back. -/
  | answered {answer : Answer} {after : World} (hsendable : unsendable? request = none)
      (hattempts : after.attempts = world.attempts ++ [⟨request, some answer⟩])
      (hnext : world.answers.head?.join = some answer) :
      ExchangeResult request world (.ok answer) after

theorem perform_send (request : Request) (world : World) :
    (World.send request).perform world = (.ok world.answers.head?.join, { world with
      answers := world.answers.drop 1
      attempts := world.attempts ++ [⟨request, world.answers.head?.join⟩] }) := rfl

theorem exchangeResult (peer : String) (request : Request) (world : World) :
    ExchangeResult request world ((exchange peer request).perform world).1
      ((exchange peer request).perform world).2 := by
  unfold exchange
  dsimp only
  split
  · next hfault => exact .unsent hfault
  · next hsendable =>
    rw [Action.perform_bind, perform_send]
    cases hnext : world.answers.head?.join with
    | some answer => exact .answered hsendable rfl hnext
    | none => exact .lost hsendable rfl hnext

/-! ### One attempt at an upload -/

/-- The request that an attempt at an upload sends is determined by the files, the target and the
    token. -/
def Uploads (fs : FileSystem) (target : Target) (token : Token) (parcel : Parcel) (url : Url)
    (request : Request) : Prop :=
  prepare fs target = .ok parcel ∧
    addressOf target.registryBase (packageAddress target parcel.name) = .ok url ∧
    request = uploadRequest url token
      (uploadDocument target parcel.manifest parcel.tarball parcel.name parcel.version)

theorem uploadRequest_method (url : Url) (token : Token) (document : Json) :
    (uploadRequest url token document).method = .put := by
  unfold uploadRequest request
  dsimp only
  split <;> rfl

theorem uploadRequest_body (url : Url) (token : Token) (document : Json) :
    (uploadRequest url token document).body? = some document := by
  unfold uploadRequest request
  dsimp only
  split <;> rfl

theorem Uploads.method_eq {fs : FileSystem} {target : Target} {token : Token} {parcel : Parcel}
    {url : Url} {request : Request} (h : Uploads fs target token parcel url request) :
    request.method = .put := by
  obtain ⟨-, -, rfl⟩ := h
  exact uploadRequest_method url token _

theorem Uploads.unique {fs : FileSystem} {target : Target} {token : Token} {parcel other : Parcel}
    {url address : Url} {request next : Request} (h : Uploads fs target token parcel url request)
    (hnext : Uploads fs target token other address next) : next = request := by
  obtain ⟨hparcel, hurl, rfl⟩ := h
  obtain ⟨hother, haddress, rfl⟩ := hnext
  obtain rfl : parcel = other := Except.ok.inj (hparcel.symm.trans hother)
  obtain rfl : url = address := Except.ok.inj (hurl.symm.trans haddress)
  rfl

/-- A parcel holds the stored manifest, the package made from it, and what the manifest says about
    its name and version. -/
theorem of_prepare {fs : FileSystem} {target : Target} {parcel : Parcel}
    (h : prepare fs target = .ok parcel) :
    Manifest.load fs target.manifestPath = .ok parcel.manifest ∧
      Tarball.pack fs target.artifactDirectory parcel.manifest = .ok parcel.tarball ∧
      parcel.manifest.name? = some parcel.name ∧
      parcel.manifest.version? = some parcel.version := by
  obtain ⟨m, hload, h⟩ := bind_eq_ok.mp h
  obtain ⟨tarball, hpack, h⟩ := bind_eq_ok.mp h
  obtain ⟨⟨name, version⟩, hidentity, h⟩ := bind_eq_ok.mp h
  cases h
  -- the check of the version hands on what it has read
  unfold identity at hidentity
  split at hidentity
  · next hname =>
    split at hidentity
    · next hversion =>
      split at hidentity
      · cases hidentity
        exact ⟨hload, hpack, hname, hversion⟩
      · cases hidentity
    · cases hidentity
  · cases hidentity

/-- What publishing comes to, with what it has sent. -/
inductive PublishResult (target : Target) (token : Token) (world : World) :
    Except Failure Receipt → List Attempt → Prop where
  /-- The package is not ready. -/
  | unready {failure : Failure} (hready : prepare world.files target = .error failure) :
      PublishResult target token world (.error failure) []
  /-- The address of the package cannot be read. -/
  | unaddressed {parcel : Parcel} {failure : Failure}
      (hready : prepare world.files target = .ok parcel)
      (haddress : addressOf target.registryBase (packageAddress target parcel.name) =
        .error failure) :
      PublishResult target token world (.error failure) []
  /-- The request cannot be sent. -/
  | unsendable {parcel : Parcel} {url : Url} {request : Request} {fault reason : String}
      (hrequest : Uploads world.files target token parcel url request)
      (hfault : unsendable? request = some fault) :
      PublishResult target token world (.error (.publish (.network reason))) []
  /-- The request is sent, and no answer comes. -/
  | lost {parcel : Parcel} {url : Url} {request : Request} {reason : String}
      (hrequest : Uploads world.files target token parcel url request)
      (hsendable : unsendable? request = none) :
      PublishResult target token world (.error (.publish (.network reason))) [⟨request, none⟩]
  /-- The request is sent, and the answer decides. -/
  | answered {parcel : Parcel} {url : Url} {request : Request} {answer : Answer}
      (hrequest : Uploads world.files target token parcel url request)
      (hsendable : unsendable? request = none) :
      PublishResult target token world
        ((Verdict.ofAnswer answer.status answer.text parcel.name parcel.version).map fun _ =>
          receipt target parcel false) [⟨request, some answer⟩]

theorem publishResult (target : Target) (token : Token) (world : World) :
    ∃ sent, ((publish target token).perform world).2.attempts = world.attempts ++ sent ∧
      PublishResult target token world ((publish target token).perform world).1 sent := by
  unfold publish
  rw [Action.perform_bind, Action.perform_reading]
  cases hparcel : prepare world.files target with
  | error failure => exact ⟨[], (List.append_nil _).symm, .unready hparcel⟩
  | ok parcel =>
    dsimp only
    rw [Action.perform_bind, Action.perform_record]
    dsimp only
    rw [Action.perform_bind, Action.perform_lift]
    cases hurl : addressOf target.registryBase (packageAddress target parcel.name) with
    | error failure => exact ⟨[], (List.append_nil _).symm, .unaddressed hparcel hurl⟩
    | ok url =>
      dsimp only
      generalize hrequest : uploadRequest url token (uploadDocument target parcel.manifest
        parcel.tarball parcel.name parcel.version) = request
      have huploads : Uploads world.files target token parcel url request :=
        ⟨hparcel, hurl, hrequest.symm⟩
      rw [Action.perform_bind]
      have hexchange := exchangeResult target.registryBase request
        (Chronicle.record ⟨.info, "Publishing " ++ specOf parcel.name parcel.version ++ " to " ++
          target.registryBase ++ " (" ++ Text.decimal parcel.tarball.size ++ " bytes)"⟩ world)
      generalize (exchange target.registryBase request).perform _ = exchanged at hexchange ⊢
      obtain ⟨outcome, after⟩ := exchanged
      -- from here on only the answer decides
      cases hexchange with
      | unsent hfault => exact ⟨[], (List.append_nil _).symm, .unsendable huploads hfault⟩
      | lost hsendable hattempts => exact ⟨_, hattempts, .lost huploads hsendable⟩
      | @answered answer _ hsendable hattempts =>
        have hresult := @PublishResult.answered target token world _ _ _ answer huploads hsendable
        dsimp only
        rw [Action.perform_bind, Action.perform_lift]
        cases hverdict : Verdict.ofAnswer answer.status answer.text parcel.name parcel.version with
        | error failure =>
          rw [hverdict] at hresult
          exact ⟨_, hattempts, hresult⟩
        | ok accepted =>
          rw [hverdict] at hresult
          exact ⟨_, hattempts, hresult⟩

/-- How an attempt at an upload can go, by its outcome and the world it leaves. -/
inductive UploadResult (target : Target) (token : Token) (world : World) :
    Except Failure Receipt → World → Prop where
  /-- Nothing is sent. -/
  | unsent {failure : Failure} {after : World} (hattempts : after.attempts = world.attempts) :
      UploadResult target token world (.error failure) after
  /-- The request is sent and fails. -/
  | failed {failure : Failure} {attempt : Attempt} {after : World} {parcel : Parcel} {url : Url}
      (hattempts : after.attempts = world.attempts ++ [attempt])
      (hrequest : Uploads world.files target token parcel url attempt.request)
      (hrejected : ¬ attempt.IsAccepted)
      (htransient : failure.isRetryable = true → attempt.IsTransient) :
      UploadResult target token world (.error failure) after
  /-- The request is sent and answered with success. -/
  | accepted {receipt : Receipt} {attempt : Attempt} {after : World} {parcel : Parcel} {url : Url}
      (hattempts : after.attempts = world.attempts ++ [attempt])
      (hrequest : Uploads world.files target token parcel url attempt.request)
      (haccepted : attempt.IsAccepted) (hreceipt : receipt.dryRun = false) :
      UploadResult target token world (.ok receipt) after

theorem uploadResult (target : Target) (token : Token) (world : World) :
    UploadResult target token world ((publish target token).perform world).1
      ((publish target token).perform world).2 := by
  obtain ⟨sent, hattempts, hresult⟩ := publishResult target token world
  generalize (publish target token).perform world = performed at hattempts hresult ⊢
  obtain ⟨outcome, after⟩ := performed
  dsimp only at hattempts hresult ⊢
  cases hresult with
  | unready _ => exact .unsent (hattempts.trans (List.append_nil _))
  | unaddressed _ _ => exact .unsent (hattempts.trans (List.append_nil _))
  | unsendable _ _ => exact .unsent (hattempts.trans (List.append_nil _))
  | lost hrequest _ =>
    refine .failed hattempts hrequest ?_ ?_
    · rintro ⟨answer, h, -⟩
      cases h
    · intro _ answer h
      cases h
  | @answered parcel url request answer hrequest _ =>
    cases hverdict : Verdict.ofAnswer answer.status answer.text parcel.name parcel.version with
    | error failure =>
      refine .failed hattempts hrequest ?_ ?_
      · rintro ⟨other, h, hsuccess⟩
        cases h
        rw [← Status.isSuccess_iff, ← Verdict.ofAnswer_eq_ok_iff, hverdict] at hsuccess
        cases hsuccess
      · intro hretry other h
        cases h
        exact Verdict.transient_of_isRetryable hverdict hretry
    | ok _ =>
      refine .accepted hattempts hrequest ⟨answer, rfl, ?_⟩ rfl
      rwa [← Status.isSuccess_iff, ← Verdict.ofAnswer_eq_ok_iff _ answer.text parcel.name
        parcel.version]

/-! ### One question for a version -/

/-- A request that asks for the versions of a package. -/
def Asks (target : Target) (name : String) (url : Url) (request : Request) : Prop :=
  addressOf (packageAddress target name) (packageAddress target name) = .ok url ∧
    request = lookupRequest url

theorem parse_of_addressOf {peer text : String} {url : Url} (h : addressOf peer text = .ok url) :
    Url.parse text = .ok url := by
  unfold addressOf at h
  split at h
  · next found hfound =>
    cases h
    exact hfound
  · cases h

theorem lookupRequest_method (url : Url) : (lookupRequest url).method = .get := by
  unfold lookupRequest request
  dsimp only
  split <;> rfl

theorem Asks.method_eq {target : Target} {name : String} {url : Url} {request : Request}
    (h : Asks target name url request) : request.method = .get := by
  obtain ⟨-, rfl⟩ := h
  exact lookupRequest_method url

/-- How asking for a version can go, by its outcome and the world it leaves. What comes back is the
    next answer. -/
inductive LookupResult (target : Target) (name version : String) (world : World) :
    Except Failure Bool → World → Prop where
  /-- Nothing is sent, because the question cannot be. -/
  | unsent {failure : Failure} {after : World} (hattempts : after.attempts = world.attempts)
      (hunsendable : ∀ url request, Asks target name url request → unsendable? request ≠ none) :
      LookupResult target name version world (.error failure) after
  /-- The question is sent, and what comes back does not tell. -/
  | failed {failure : Failure} {url : Url} {lookup : Attempt} {after : World}
      (hattempts : after.attempts = world.attempts ++ [lookup])
      (hrequest : Asks target name url lookup.request)
      (hnext : lookup.answer? = world.answers.head?.join) (huntold : lookup.Untold version) :
      LookupResult target name version world (.error failure) after
  /-- The answer says that the version is there. -/
  | taken {url : Url} {lookup : Attempt} {after : World}
      (hattempts : after.attempts = world.attempts ++ [lookup])
      (hrequest : Asks target name url lookup.request)
      (hnext : lookup.answer? = world.answers.head?.join) (htaken : lookup.ShowsTaken version) :
      LookupResult target name version world (.ok true) after
  /-- The answer says that the version is free. -/
  | free {url : Url} {lookup : Attempt} {after : World}
      (hattempts : after.attempts = world.attempts ++ [lookup])
      (hrequest : Asks target name url lookup.request)
      (hnext : lookup.answer? = world.answers.head?.join) (hfree : lookup.ShowsFree version) :
      LookupResult target name version world (.ok false) after

theorem lookupResult (target : Target) (name version : String) (world : World) :
    LookupResult target name version world ((versionExists target name version).perform world).1
      ((versionExists target name version).perform world).2 := by
  unfold versionExists
  dsimp only
  rw [Action.perform_bind, Action.perform_lift]
  cases hurl : addressOf (packageAddress target name) (packageAddress target name) with
  | error failure =>
    refine .unsent rfl ?_
    rintro url _ ⟨hasked, -⟩
    cases hurl.symm.trans hasked
  | ok url =>
    dsimp only
    rw [Action.perform_bind]
    have hrequest : Asks target name url (lookupRequest url) := ⟨hurl, rfl⟩
    -- only one question can be asked
    have honly : ∀ other request, Asks target name other request → request = lookupRequest url := by
      rintro other _ ⟨hasked, rfl⟩
      cases hurl.symm.trans hasked
      rfl
    generalize lookupRequest url = request at hrequest honly ⊢
    have hexchange := exchangeResult (packageAddress target name) request world
    generalize (exchange (packageAddress target name) request).perform world = exchanged
      at hexchange ⊢
    obtain ⟨outcome, after⟩ := exchanged
    cases hexchange with
    | unsent hfault =>
      refine .unsent rfl fun other asked hasks hsendable => ?_
      rw [honly other asked hasks, hfault] at hsendable
      cases hsendable
    | lost _ hattempts hnext =>
      exact .failed hattempts hrequest hnext.symm Attempt.untold_of_lost
    | @answered answer _ _ hattempts hnext =>
      have hnext := hnext.symm
      dsimp only
      by_cases hmissing : answer.status.code = 404
      · rw [if_pos hmissing]
        exact .free hattempts hrequest hnext ⟨answer, rfl, .inl hmissing⟩
      rw [if_neg hmissing]
      by_cases hsuccess : answer.status.isSuccess = true
      · have hcode := (Status.isSuccess_iff _).mp hsuccess
        rw [if_pos hsuccess, Action.perform_bind, Action.perform_lift]
        cases hdocument : documentOf (packageAddress target name) answer with
        | error failure =>
          -- a document that tells would have been read
          have hunread : ∀ body document, answer.body? = some body →
              Json.parse body ≠ .ok document := by
            intro body document hbody hparse
            cases hdocument.symm.trans (documentOf_eq_ok_iff.mpr ⟨body, hbody, hparse⟩)
          exact .failed hattempts hrequest hnext (Attempt.untold_of_unread hmissing hunread)
        | ok document =>
          obtain ⟨body, hbody, hparse⟩ := documentOf_eq_ok_iff.mp hdocument
          dsimp only
          rw [Action.perform_pure]
          cases hlists : lists document version with
          | true =>
            exact .taken hattempts hrequest hnext
              ⟨answer, rfl, hcode, body, document, hbody, hparse, lists_iff.mp hlists⟩
          | false =>
            refine .free hattempts hrequest hnext ⟨answer, rfl, .inr
              ⟨hcode, body, document, hbody, hparse, fun versions hversions hmem => ?_⟩⟩
            rw [lists_iff.mpr ⟨versions, hversions, hmem⟩] at hlists
            cases hlists
      · rw [if_neg hsuccess, Action.perform_bind, Action.perform_lift]
        have hcode := mt (Status.isSuccess_iff _).mpr hsuccess
        cases hverdict : Verdict.ofAnswer answer.status answer.text name version with
        | error failure =>
          exact .failed hattempts hrequest hnext (Attempt.untold_of_status hmissing hcode)
        | ok _ => exact absurd ((Verdict.ofAnswer_eq_ok_iff _ _ _ _).mp hverdict) hsuccess

end Registry

end PackageRelease
