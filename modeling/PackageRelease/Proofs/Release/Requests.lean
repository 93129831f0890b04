import PackageRelease.Proofs.Registry.Client
import PackageRelease.Proofs.Release.Course

/-! # The requests of a release

  A release may ask once whether a version is there and then uploads it. The key idea: an attempt at
  an upload changes neither the files nor the environment, so each attempt reads the same manifest,
  packs the same files and sends the same request; and whether another attempt follows is decided by
  the answer alone.
-/

namespace PackageRelease

namespace Registry

/-! ### All attempts at an upload -/

/-- The uploads of a release: how many there may be, and what their answers mean for each other and
    for the outcome. -/
structure UploadSeries (fs : FileSystem) (target : Target) (token : Token) (limit : Nat)
    (outcome : Except Failure Receipt) (uploads : List Attempt) : Prop where
  /-- All uploads send the same request, made from one manifest and one archive. -/
  request_eq : ∀ a ∈ uploads, ∃ parcel url, Uploads fs target token parcel url a.request
  /-- There are not too many. -/
  length_le : uploads.length ≤ limit
  /-- Another upload follows only one that may be repeated. -/
  transient : ∀ a ∈ uploads.dropLast, a.IsTransient
  /-- The outcome is a success exactly if the last upload was. -/
  accepted_iff : (∃ receipt, outcome = .ok receipt ∧ receipt.dryRun = false) ↔
    ∃ last ∈ uploads.getLast?, last.IsAccepted

/-- A series without uploads has failed. -/
theorem UploadSeries.nil (fs : FileSystem) (target : Target) (token : Token) (limit : Nat)
    (failure : Failure) : UploadSeries fs target token limit (.error failure) [] where
  request_eq a ha := by cases ha
  length_le := Nat.zero_le limit
  transient a ha := by cases ha
  accepted_iff := by simp

/-- A series of one upload. -/
theorem UploadSeries.singleton {fs : FileSystem} {target : Target} {token : Token} {limit : Nat}
    {outcome : Except Failure Receipt} {a : Attempt} (hlimit : 0 < limit)
    (hrequest : ∃ parcel url, Uploads fs target token parcel url a.request)
    (haccepted : (∃ receipt, outcome = .ok receipt ∧ receipt.dryRun = false) ↔ a.IsAccepted) :
    UploadSeries fs target token limit outcome [a] where
  request_eq b hb := by
    obtain rfl := List.mem_singleton.mp hb
    exact hrequest
  length_le := hlimit
  transient b hb := by cases hb
  accepted_iff := by simpa using haccepted

/-- An upload that may be repeated in front of a series. -/
theorem UploadSeries.cons {fs : FileSystem} {target : Target} {token : Token} {limit : Nat}
    {outcome : Except Failure Receipt} {a : Attempt} {uploads : List Attempt}
    (hrequest : ∃ parcel url, Uploads fs target token parcel url a.request)
    (htransient : a.IsTransient) (hrejected : ¬ a.IsAccepted)
    (h : UploadSeries fs target token limit outcome uploads) :
    UploadSeries fs target token (limit + 1) outcome (a :: uploads) where
  request_eq b hb := by
    rcases List.mem_cons.mp hb with rfl | hb
    · exact hrequest
    · exact h.request_eq b hb
  length_le := Nat.succ_le_succ h.length_le
  transient b hb := by
    cases uploads with
    | nil => cases hb
    | cons next rest =>
      rcases List.mem_cons.mp hb with rfl | hb
      · exact htransient
      · exact h.transient b hb
  accepted_iff := by
    rw [h.accepted_iff]
    cases uploads with
    | nil => simpa using hrejected
    | cons next rest => rw [List.getLast?_cons_cons]

theorem UploadSeries.mono {fs : FileSystem} {target : Target} {token : Token} {limit larger : Nat}
    {outcome : Except Failure Receipt} {uploads : List Attempt}
    (h : UploadSeries fs target token limit outcome uploads) (hle : limit ≤ larger) :
    UploadSeries fs target token larger outcome uploads :=
  { h with length_le := Nat.le_trans h.length_le hle }

end Registry

namespace Action

theorem perform_recordSuccess_attempts (name : String) (retries : Nat) (world : World) :
    (recordSuccess name retries : Action World Unit).perform world =
      (.ok (), ((recordSuccess name retries : Action World Unit).perform world).2) ∧
    ((recordSuccess name retries : Action World Unit).perform world).2.attempts =
      world.attempts := by
  unfold recordSuccess
  split
  · exact ⟨rfl, rfl⟩
  · exact ⟨rfl, rfl⟩

/-- What follows a failed upload that may be repeated. -/
def tryAgain (policy : RetryPolicy) (name : String) (target : Target) (token : Token)
    (done left : Nat) (failure : Failure) : Action World Registry.Receipt := do
  recordRetry policy name (done + 1) failure
  wait (policy.delayFor (done + 1))
  attemptFrom policy name (fun _ => Registry.publish target token) (done + 1) left

/-- After an accepted upload there is only something to say, and the receipt is handed back. -/
theorem uploadSeries_of_accepted {fs : FileSystem} {target : Target} {token : Token} {limit : Nat}
    {receipt : Registry.Receipt} {attempt : Attempt} {world after : World} (name : String)
    (done : Nat) (hlimit : 0 < limit) (hattempts : after.attempts = world.attempts ++ [attempt])
    (hrequest : ∃ parcel url, Registry.Uploads fs target token parcel url attempt.request)
    (haccepted : attempt.IsAccepted) (hreceipt : receipt.dryRun = false) :
    ∃ uploads, ((do recordSuccess name done; return receipt : Action World Registry.Receipt).perform
        after).2.attempts = world.attempts ++ uploads ∧
      Registry.UploadSeries fs target token limit
        ((do recordSuccess name done; return receipt : Action World Registry.Receipt).perform
          after).1 uploads := by
  obtain ⟨hperform, hkept⟩ := perform_recordSuccess_attempts name done after
  rw [perform_bind_ok hperform]
  exact ⟨[attempt], hkept.trans hattempts, .singleton hlimit hrequest
    (iff_of_true ⟨receipt, rfl, hreceipt⟩ haccepted)⟩

/-- Trying again sends a series of uploads. The induction is on the number of attempts that may
    follow; that the files stay as they are lets the series go on with the same request. -/
theorem uploadSeries_attemptFrom (policy : RetryPolicy) (name : String) (target : Target)
    (token : Token) (done left : Nat) (world : World) :
    ∃ uploads, ((attemptFrom policy name (fun _ => Registry.publish target token) done left).perform
        world).2.attempts = world.attempts ++ uploads ∧
      Registry.UploadSeries world.files target token (left + 1)
        ((attemptFrom policy name (fun _ => Registry.publish target token) done left).perform
          world).1 uploads := by
  induction left generalizing done world with
  | zero =>
    unfold attemptFrom
    rw [perform_bind]
    have hupload := Registry.uploadResult target token world
    generalize (Registry.publish target token).perform world = performed at hupload ⊢
    obtain ⟨outcome, after⟩ := performed
    cases hupload with
    | unsent hattempts => exact ⟨[], by simpa using hattempts, .nil _ _ _ _ _⟩
    | @failed failure attempt _ parcel url hattempts hrequest hrejected _ =>
      exact ⟨[attempt], hattempts, .singleton Nat.one_pos ⟨parcel, url, hrequest⟩
        (by simpa using hrejected)⟩
    | @accepted receipt attempt _ parcel url hattempts hrequest haccepted hreceipt =>
      exact uploadSeries_of_accepted name done Nat.one_pos hattempts ⟨parcel, url, hrequest⟩
        haccepted hreceipt
  | succ left ih =>
    unfold attemptFrom
    rw [perform_bind, perform_observe]
    have hupload := Registry.uploadResult target token world
    have hbackground := Registry.keeps_background_publish target token world
    generalize (Registry.publish target token).perform world = performed at hupload hbackground ⊢
    obtain ⟨outcome, after⟩ := performed
    have hfiles : after.files = world.files := congrArg Prod.fst hbackground
    -- the attempts that follow a failed one meet the same files
    have hagain : ∀ failure, ∃ uploads,
        ((tryAgain policy name target token done left failure).perform after).2.attempts =
          after.attempts ++ uploads ∧
        Registry.UploadSeries world.files target token (left + 1)
          ((tryAgain policy name target token done left failure).perform after).1 uploads := by
      intro failure
      unfold tryAgain
      obtain ⟨text, hrecord⟩ | hpanic := @recordRetry_cases World _ policy name (done + 1) failure
      · rw [hrecord]
        obtain ⟨uploads, hrest, hseries⟩ := ih (done + 1)
          (Chronicle.wait (policy.delayFor (done + 1)) (Chronicle.record ⟨.warn, text⟩ after))
        exact ⟨uploads, hrest, hfiles ▸ hseries⟩
      · -- where the program panics, nothing more is sent
        rw [hpanic, perform_bind, perform_panic]
        exact ⟨[], (List.append_nil _).symm, .nil _ _ _ _ _⟩
    cases hupload with
    | @unsent failure _ hattempts =>
      -- nothing was sent, so the attempts that follow may be one less than allowed
      dsimp only
      by_cases hretry : failure.isRetryable = true
      · obtain ⟨uploads, hrest, hseries⟩ := hagain failure
        rw [if_pos hretry]
        exact ⟨uploads, hrest.trans (by rw [hattempts]), hseries.mono (Nat.le_succ _)⟩
      · rw [if_neg hretry]
        exact ⟨[], by simpa using hattempts, .nil _ _ _ _ _⟩
    | @failed failure attempt _ parcel url hattempts hrequest hrejected htransient =>
      -- the upload counts, and others follow it only if its failure may pass
      dsimp only
      by_cases hretry : failure.isRetryable = true
      · obtain ⟨uploads, hrest, hseries⟩ := hagain failure
        rw [if_pos hretry]
        refine ⟨attempt :: uploads, hrest.trans ?_, .cons ⟨parcel, url, hrequest⟩
          (htransient hretry) hrejected hseries⟩
        rw [hattempts, List.append_assoc, List.singleton_append]
      · rw [if_neg hretry]
        exact ⟨[attempt], hattempts, .singleton (Nat.succ_pos _) ⟨parcel, url, hrequest⟩
          (by simpa using hrejected)⟩
    | @accepted receipt attempt _ parcel url hattempts hrequest haccepted hreceipt =>
      exact uploadSeries_of_accepted name done (Nat.succ_pos _) hattempts ⟨parcel, url, hrequest⟩
        haccepted hreceipt

end Action

namespace Run

/-! ### The question before an upload -/

/-- Before an upload at most one question is asked, and the upload follows only an answer that says
    that the version of the stored manifest is free. -/
theorem ensureUnpublished_attempts (target : Target) (world : World) :
    ∃ lookups, ((ensureUnpublished target).perform world).2.attempts = world.attempts ++ lookups ∧
      lookups.length ≤ 1 ∧ (∀ a ∈ lookups, a.request.method = .get) ∧
      (((ensureUnpublished target).perform world).1 = .ok () → ∀ a ∈ lookups, ∃ m version,
        Manifest.load world.files target.manifestPath = .ok m ∧ m.version? = some version ∧
          a.ShowsFree version) := by
  unfold ensureUnpublished
  rw [Action.perform_bind, Action.perform_reading]
  cases hload : Manifest.load world.files target.manifestPath with
  | error failure => exact ⟨[], by simp, by simp, by simp, by simp⟩
  | ok m =>
    dsimp only
    split
    · next name version _ hversion =>
      rw [Action.perform_bind]
      have hlookup := Registry.lookupResult target name version world
      generalize (Registry.versionExists target name version).perform world = asked at hlookup ⊢
      obtain ⟨outcome, after⟩ := asked
      cases hlookup with
      | unsent hattempts => exact ⟨[], by simpa using hattempts, by simp, by simp, by simp⟩
      | @failed _ _ lookup _ hattempts hrequest _ =>
        exact ⟨[lookup], hattempts, by simp, by simpa using hrequest.method_eq, by simp⟩
      | @taken _ lookup _ hattempts hrequest _ =>
        exact ⟨[lookup], hattempts, by simp, by simpa using hrequest.method_eq, nofun⟩
      | @free url lookup _ hattempts hrequest _ hfree =>
        refine ⟨[lookup], hattempts, by simp, by simpa using hrequest.method_eq, fun _ a ha => ?_⟩
        obtain rfl := List.mem_singleton.mp ha
        exact ⟨m, version, rfl, hversion, hfree⟩
    · exact ⟨[], by simp, by simp, by simp, by simp⟩

theorem keeps_background_ensureUnpublished (target : Target) :
    Action.Keeps Registry.background (ensureUnpublished target) := by
  unfold ensureUnpublished
  refine Action.keeps_bind (Action.keeps_reading _) fun m => ?_
  split
  · refine Action.keeps_bind (Registry.keeps_background_versionExists _ _ _) fun present => ?_
    cases present with
    | true => exact Action.keeps_throw _
    | false => exact Action.keeps_pure _
  · exact Action.keeps_pure _

/-! ### The last stage -/

/-- The token that a release uses: the one it was given, or else the one in the environment. -/
def UsesToken (settings : Settings) (token? : Option Token) (environment : Environment)
    (token : Token) : Prop :=
  token? = some token ∨
    token? = none ∧ Token.ofEnvironment environment settings.tokenVariable = .ok token

/-- The questions that a release asks the registry before it uploads. -/
structure Lookups (settings : Settings) (lookups : List Attempt) : Prop where
  /-- The registry is asked once at most. -/
  lookup_once : lookups.length ≤ 1
  /-- It is asked only if this is wanted. -/
  lookup_wanted : lookups ≠ [] → settings.checkExisting = true
  /-- Asking is only reading. -/
  lookup_method : ∀ a ∈ lookups, a.request.method = .get

/-- The requests that a release sends with given settings, files and environment: at most one
    question for the version, then the uploads, and what their answers mean for each other and for
    the outcome. -/
structure Requests (settings : Settings) (token? : Option Token) (environment : Environment)
    (files : FileSystem) (outcome : Except Failure Registry.Receipt)
    (lookups uploads : List Attempt) : Prop extends Lookups settings lookups where
  /-- In a rehearsal and without a token nothing is sent. -/
  withheld : settings.dryRun = true ∨ (∀ token, ¬ UsesToken settings token? environment token) →
    lookups = [] ∧ uploads = []
  /-- There are not more uploads than are allowed. -/
  upload_count : uploads.length ≤ settings.networkRetries.toNat + 1
  /-- All uploads are one request, with the token and with one archive of the files, and it follows
      only an answer that shows that the version is free. -/
  upload_request : uploads ≠ [] → ∃ target parcel url token request,
    settings.target = .ok target ∧ UsesToken settings token? environment token ∧
    Registry.Uploads files target token parcel url request ∧ request.method = .put ∧
    (∀ a ∈ uploads, a.request = request) ∧ ∀ a ∈ lookups, a.ShowsFree parcel.version
  /-- Another upload follows only one that failed for a passing reason. -/
  upload_repeated : ∀ a ∈ uploads.dropLast, a.IsTransient
  /-- The version is published exactly if the last upload is answered with success. -/
  published_iff : (∃ receipt, outcome = .ok receipt ∧ receipt.dryRun = false) ↔
    ∃ last ∈ uploads.getLast?, last.IsAccepted

section upload
variable {settings : Settings} {token? : Option Token} {environment : Environment}
  {files : FileSystem}

/-- What is put is an upload. -/
theorem Requests.mem_uploads {outcome : Except Failure Registry.Receipt}
    {lookups uploads : List Attempt}
    (h : Requests settings token? environment files outcome lookups uploads) {a : Attempt}
    (ha : a ∈ lookups ++ uploads) (hput : a.request.method = .put) : a ∈ uploads := by
  refine (List.mem_append.mp ha).resolve_left fun hlookup => ?_
  rw [h.lookup_method a hlookup] at hput
  cases hput

theorem lookups_nil (settings : Settings) : Lookups settings [] where
  lookup_once := Nat.zero_le 1
  lookup_wanted h := absurd rfl h
  lookup_method a ha := by cases ha

/-- Nothing has to be uploaded, as long as nothing counts as published. -/
theorem Lookups.withoutUploads {outcome : Except Failure Registry.Receipt} {lookups : List Attempt}
    (h : Lookups settings lookups) (hwithheld : settings.dryRun = true ∨
      (∀ token, ¬ UsesToken settings token? environment token) → lookups = [])
    (houtcome : ∀ receipt, outcome = .ok receipt → receipt.dryRun = true) :
    Requests settings token? environment files outcome lookups [] where
  toLookups := h
  withheld hnone := ⟨hwithheld hnone, rfl⟩
  upload_count := Nat.zero_le _
  upload_request h := absurd rfl h
  upload_repeated a ha := by cases ha
  published_iff := by
    refine iff_of_false ?_ (by simp)
    rintro ⟨receipt, hreceipt, hwet⟩
    rw [houtcome receipt hreceipt] at hwet
    cases hwet

/-- Nothing has to be sent either. -/
theorem requests_nil {outcome : Except Failure Registry.Receipt}
    (houtcome : ∀ receipt, outcome = .ok receipt → receipt.dryRun = true) :
    Requests settings token? environment files outcome [] [] :=
  (lookups_nil settings).withoutUploads (fun _ => rfl) houtcome

/-- What is left to do with a target and a token. -/
def send (settings : Settings) (target : Target) (token : Token) :
    Action World Registry.Receipt := do
  if settings.checkExisting then ensureUnpublished target
  Action.retry settings.retryPolicy "Registry publish" fun _ => Registry.publish target token

theorem perform_upload_of_dryRun {target : Target} (htarget : settings.target = .ok target)
    (hdry : settings.dryRun = true) (world : World) :
    (upload settings token?).perform world = (Registry.dryRun target).perform world := by
  unfold upload
  rw [Action.perform_bind, Action.perform_lift, htarget]
  dsimp only
  rw [if_pos hdry]

theorem perform_upload {target : Target} (htarget : settings.target = .ok target)
    (hwet : settings.dryRun = false) (world : World) {token : Token}
    (htoken : UsesToken settings token? world.environment token) :
    (upload settings token?).perform world = (send settings target token).perform world := by
  unfold upload
  rw [Action.perform_bind, Action.perform_lift, htarget]
  dsimp only
  rw [if_neg (by rw [hwet]; exact Bool.false_ne_true)]
  rcases htoken with rfl | ⟨rfl, htoken⟩
  · rfl
  · rw [Action.perform_bind, Action.perform_reading, htoken]
    rfl

/-- A rehearsal sends nothing. -/
theorem dryRun_result (target : Target) (world : World) :
    ((Registry.dryRun target).perform world).2.attempts = world.attempts ∧
      ∀ receipt, ((Registry.dryRun target).perform world).1 = .ok receipt →
        receipt.dryRun = true := by
  unfold Registry.dryRun
  rw [Action.perform_bind, Action.perform_reading]
  cases Registry.prepare world.files target with
  | error failure => exact ⟨rfl, nofun⟩
  | ok parcel =>
    refine ⟨rfl, fun receipt h => ?_⟩
    cases h
    rfl

theorem not_withheld (hwet : settings.dryRun = false) {token : Token}
    (htoken : UsesToken settings token? environment token) :
    ¬ (settings.dryRun = true ∨ ∀ token, ¬ UsesToken settings token? environment token) := by
  rintro (hdry | hnone)
  · rw [hwet] at hdry
    cases hdry
  · exact hnone token htoken

/-- A series of uploads follows what was asked before, if the answers show that the version of the
    stored manifest is free. -/
theorem Lookups.withUploads {target : Target} {token : Token} {lookups uploads : List Attempt}
    {outcome : Except Failure Registry.Receipt} (h : Lookups settings lookups)
    (hwet : settings.dryRun = false) (htarget : settings.target = .ok target)
    (htoken : UsesToken settings token? environment token)
    (hfree : ∀ a ∈ lookups, ∃ m version, Manifest.load files target.manifestPath = .ok m ∧
      m.version? = some version ∧ a.ShowsFree version)
    (huploads : Registry.UploadSeries files target token (settings.networkRetries.toNat + 1)
      outcome uploads) :
    Requests settings token? environment files outcome lookups uploads where
  toLookups := h
  withheld hnone := absurd hnone (not_withheld hwet htoken)
  upload_count := huploads.length_le
  upload_request hsome := by
    obtain ⟨first, hfirst⟩ := List.exists_mem_of_ne_nil uploads hsome
    obtain ⟨parcel, url, hrequest⟩ := huploads.request_eq first hfirst
    refine ⟨target, parcel, url, token, first.request, htarget, htoken, hrequest, ?_, ?_, ?_⟩
    · rw [hrequest.2.2]
      exact Registry.uploadRequest_method _ _ _
    · intro a ha
      obtain ⟨other, address, hother⟩ := huploads.request_eq a ha
      exact hrequest.unique hother
    · intro a ha
      -- the question was about the manifest that is packed now
      obtain ⟨m, version, hload, hversion, hshows⟩ := hfree a ha
      obtain ⟨hstored, -, -, hname⟩ := Registry.of_prepare hrequest.1
      obtain rfl : m = parcel.manifest := Except.ok.inj (hload.symm.trans hstored)
      obtain rfl : version = parcel.version := Option.some.inj (hversion.symm.trans hname)
      exact hshows
  upload_repeated := huploads.transient
  published_iff := huploads.accepted_iff

/-- The requests with a target and a token are a question, if it is wanted, and a series of
    uploads. -/
theorem requests_send {target : Target} (htarget : settings.target = .ok target)
    (hwet : settings.dryRun = false) (world : World) {token : Token}
    (htoken : UsesToken settings token? world.environment token) :
    ∃ lookups uploads,
      ((send settings target token).perform world).2.attempts =
        world.attempts ++ (lookups ++ uploads) ∧
      Requests settings token? world.environment world.files
        ((send settings target token).perform world).1 lookups uploads := by
  unfold send
  by_cases hwanted : settings.checkExisting = true
  · -- the uploads go on from the world that the question leaves, and its files are the same
    rw [if_pos hwanted, Action.perform_bind]
    obtain ⟨lookups, hattempts, honce, hmethod, hfree⟩ := ensureUnpublished_attempts target world
    have hbackground := keeps_background_ensureUnpublished target world
    generalize (ensureUnpublished target).perform world = asked at hattempts hfree hbackground ⊢
    obtain ⟨outcome, between⟩ := asked
    have hlookups : Lookups settings lookups := ⟨honce, fun _ => hwanted, hmethod⟩
    cases outcome with
    | error failure =>
      exact ⟨lookups, [], by rw [List.append_nil]; exact hattempts, hlookups.withoutUploads
        (fun hnone => absurd hnone (not_withheld hwet htoken)) nofun⟩
    | ok _ =>
      obtain ⟨uploads, hsent, huploads⟩ := Action.uploadSeries_attemptFrom settings.retryPolicy
        "Registry publish" target token 0 settings.networkRetries.toNat between
      have hfiles : between.files = world.files := congrArg Prod.fst hbackground
      refine ⟨lookups, uploads, ?_, ?_⟩
      · rw [← List.append_assoc, ← hattempts]
        exact hsent
      · exact hlookups.withUploads hwet htarget htoken (hfree rfl) (hfiles ▸ huploads)
  · rw [if_neg hwanted]
    obtain ⟨uploads, hsent, huploads⟩ := Action.uploadSeries_attemptFrom settings.retryPolicy
      "Registry publish" target token 0 settings.networkRetries.toNat world
    exact ⟨[], uploads, hsent, (lookups_nil settings).withUploads hwet htarget htoken
      (fun a ha => by cases ha) huploads⟩

/-- The requests of the last stage with any settings. -/
theorem requests_upload (settings : Settings) (token? : Option Token) (world : World) :
    ∃ lookups uploads,
      ((upload settings token?).perform world).2.attempts =
        world.attempts ++ (lookups ++ uploads) ∧
      Requests settings token? world.environment world.files
        ((upload settings token?).perform world).1 lookups uploads := by
  -- whatever ends the stage at once has sent nothing
  have hnothing : ∀ failure, (upload settings token?).perform world = (.error failure, world) →
      ∃ lookups uploads, ((upload settings token?).perform world).2.attempts =
          world.attempts ++ (lookups ++ uploads) ∧
        Requests settings token? world.environment world.files
          ((upload settings token?).perform world).1 lookups uploads := by
    intro failure h
    rw [h]
    exact ⟨[], [], (List.append_nil _).symm, requests_nil nofun⟩
  cases htarget : settings.target with
  | error failure =>
    refine hnothing failure ?_
    unfold upload
    rw [Action.perform_bind, Action.perform_lift, htarget]
  | ok target =>
    by_cases hdry : settings.dryRun = true
    · obtain ⟨hattempts, hreceipt⟩ := dryRun_result target world
      rw [perform_upload_of_dryRun htarget hdry]
      exact ⟨[], [], hattempts.trans (List.append_nil _).symm, requests_nil hreceipt⟩
    have hwet : settings.dryRun = false := by simpa using hdry
    by_cases htoken : ∃ token, UsesToken settings token? world.environment token
    · obtain ⟨token, htoken⟩ := htoken
      rw [perform_upload htarget hwet world htoken]
      exact requests_send htarget hwet world htoken
    · -- without a token the last stage ends before the first request
      cases token? with
      | some token => exact absurd ⟨token, .inl rfl⟩ htoken
      | none =>
        cases henvironment : Token.ofEnvironment world.environment settings.tokenVariable with
        | ok token => exact absurd ⟨token, .inr ⟨rfl, henvironment⟩⟩ htoken
        | error failure =>
          refine hnothing failure ?_
          unfold upload
          rw [Action.perform_bind, Action.perform_lift, htarget]
          dsimp only
          rw [if_neg hdry, Action.perform_bind, Action.perform_reading, henvironment]

end upload

/-! ### All stages -/

/-- The last stage uploads in the world of the release and uses up its token. -/
theorem perform_publish_work (run : Run) :
    (do
      let run ← get
      set { run with token? := none }
      onWorld (upload run.settings run.token?) : Action Run Registry.Receipt).perform run =
    (((upload run.settings run.token?).perform run.world).1,
      { run with
        token? := none
        world := ((upload run.settings run.token?).perform run.world).2 }) := by
  rw [Action.perform_bind, Action.perform_get]
  dsimp only
  rw [Action.perform_bind, Action.perform_set]
  unfold onWorld
  dsimp only
  rw [Action.perform_ofFunction]

/-- The last stage, when it starts, ends as an upload does. -/
theorem perform_publish {run : Run} (h : run.state = .written) :
    (publish.perform run).1 =
        ((upload run.settings run.token?).perform run.world).1.mapError
          (Failure.inStage .publish) ∧
      (publish.perform run).2.world = match (upload run.settings run.token?).perform run.world with
        | (.ok _, world) => world
        | (.error failure, world) => Chronicle.record (failureEntry .publish failure) world := by
  have hbare := Action.bare_upload run.settings run.token? run.world
  unfold publish
  rw [perform_of_eq h, perform_publish_work]
  generalize (upload run.settings run.token?).perform run.world = uploaded at hbare ⊢
  obtain ⟨outcome, after⟩ := uploaded
  cases outcome with
  | error failure =>
    exact ⟨congrArg Except.error (atStage_of_bare (hbare failure rfl) .publish), rfl⟩
  | ok receipt => exact ⟨rfl, advance_world .publish _⟩

/-- The last stage is refused, or its requests are those of an upload. -/
theorem publish_result (run : Run) :
    (∃ failure, publish.perform run = (.error failure, run)) ∨
    ((publish.perform run).2.world.attempts =
        ((upload run.settings run.token?).perform run.world).2.attempts ∧
      ∀ receipt, (publish.perform run).1 = .ok receipt ↔
        ((upload run.settings run.token?).perform run.world).1 = .ok receipt) := by
  by_cases hstate : run.state = Stage.publish.requires
  · right
    obtain ⟨houtcome, hworld⟩ := perform_publish hstate
    rw [houtcome, hworld]
    generalize (upload run.settings run.token?).perform run.world = uploaded
    obtain ⟨outcome, after⟩ := uploaded
    cases outcome with
    | error failure => exact ⟨rfl, fun receipt => iff_of_false nofun nofun⟩
    | ok receipt => exact ⟨rfl, fun _ => Iff.rfl⟩
  · exact .inl ⟨_, perform_of_ne hstate _⟩

/-- The settings have been checked when the first stage has passed. -/
theorem validate_of_checkTrigger {run after : Run}
    (h : checkTrigger.perform run = (.ok (), after)) : run.settings.validate = .ok () := by
  unfold checkTrigger at h
  by_cases hstate : run.state = Stage.trigger.requires
  · rw [perform_of_eq hstate, Action.perform_reading] at h
    cases hvalidate : run.settings.validate with
    | ok _ => rfl
    | error failure =>
      rw [hvalidate] at h
      cases h
  · rw [perform_of_ne hstate] at h
    cases h

/-- All stages on this machine have passed only with settings that allow ten further uploads at
    most. -/
theorem networkRetries_le_of_runLocal {run after : Run} {m : Manifest}
    (h : runLocal.perform run = (.ok m, after)) : run.settings.networkRetries.toNat ≤ 10 := by
  unfold runLocal at h
  rw [Action.perform_bind] at h
  rcases htrigger : checkTrigger.perform run with ⟨_ | _, between⟩
  · rw [htrigger] at h
    cases h
  · have hvalidate := validate_of_checkTrigger htrigger
    rcases run.settings.validate_cases with ⟨-, -, -, -, -, hle⟩ | ⟨reason, hinvalid⟩
    · exact UInt32.le_iff_toNat_le.mp hle
    · rw [hinvalid] at hvalidate
      cases hvalidate

/-- Nothing is sent when a stage on this machine fails, and its failure is that of the release. -/
theorem perform_runAll_of_failed {run between : Run} {failure : Failure}
    (hlocal : runLocal.perform run = (.error failure, between)) :
    runAll.perform run = (.error failure, between) ∧
      between.world.attempts = run.world.attempts := by
  have hkept := keeps_surroundings_runLocal run
  rw [hlocal] at hkept
  rw [runAll_eq, Action.perform_bind, hlocal]
  exact ⟨rfl, congrArg (fun view => view.2.2.2.1) hkept⟩

/-- When the stages on this machine have passed, the requests are those of the last stage with the
    files that the others leave. -/
theorem requests_of_runLocal {run between : Run} {m : Manifest}
    (hlocal : runLocal.perform run = (.ok m, between)) :
    ∃ lookups uploads,
      (runAll.perform run).2.world.attempts = run.world.attempts ++ (lookups ++ uploads) ∧
      Requests run.settings run.token? run.world.environment between.world.files
        (runAll.perform run).1 lookups uploads := by
  -- the last stage finds the settings, the token and the environment as they were
  have hkept := keeps_surroundings_runLocal run
  rw [hlocal] at hkept
  have hsettings : between.settings = run.settings := congrArg Prod.fst hkept
  have htoken : between.token? = run.token? := congrArg (fun view => view.2.1) hkept
  have henvironment : between.world.environment = run.world.environment :=
    congrArg (fun view => view.2.2.1) hkept
  have hattempts : between.world.attempts = run.world.attempts :=
    congrArg (fun view => view.2.2.2.1) hkept
  rw [runAll_eq, Action.perform_bind, hlocal]
  dsimp only
  rcases publish_result between with ⟨failure, hrefused⟩ | ⟨hsent, houtcome⟩
  · rw [hrefused]
    exact ⟨[], [], hattempts.trans (List.append_nil _).symm, requests_nil nofun⟩
  · obtain ⟨lookups, uploads, hupload, hrequests⟩ :=
      requests_upload between.settings between.token? between.world
    rw [hsettings, htoken, henvironment] at hrequests
    refine ⟨lookups, uploads, ?_, { hrequests with published_iff := ?_ }⟩
    · rw [hsent, hupload, hattempts]
    · rw [← hrequests.published_iff]
      refine exists_congr fun receipt => and_congr_left fun _ => ?_
      rw [houtcome, hsettings, htoken]

end Run

/-- Running all stages sends what the last stage may send with the files that the other stages
    leave, and nothing at all if one of these fails. Uploads are counted by the settings, and the
    settings allow eleven at most. -/
theorem requests_of_runAll (run : Run) :
    ∃ lookups uploads,
      (Run.runAll.perform run).2.world.attempts = run.world.attempts ++ (lookups ++ uploads) ∧
      Run.Requests run.settings run.token? run.world.environment
        (Run.runLocal.perform run).2.world.files (Run.runAll.perform run).1 lookups uploads ∧
      (∀ failure, (Run.runLocal.perform run).1 = .error failure → lookups = [] ∧ uploads = []) ∧
      (∀ m, (Run.runLocal.perform run).1 = .ok m → run.settings.networkRetries.toNat + 1 ≤ 11) := by
  rcases hlocal : Run.runLocal.perform run with ⟨failure | m, between⟩
  · obtain ⟨hfailed, hattempts⟩ := Run.perform_runAll_of_failed hlocal
    rw [hfailed]
    exact ⟨[], [], hattempts.trans (List.append_nil _).symm, Run.requests_nil nofun,
      fun _ _ => ⟨rfl, rfl⟩, nofun⟩
  · have hlimit := Run.networkRetries_le_of_runLocal hlocal
    obtain ⟨lookups, uploads, hattempts, hrequests⟩ := Run.requests_of_runLocal hlocal
    exact ⟨lookups, uploads, hattempts, hrequests, nofun, fun _ _ => Nat.succ_le_succ hlimit⟩

end PackageRelease
