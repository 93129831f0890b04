import PackageRelease.Proofs.Registry.Sending
import PackageRelease.Proofs.Release.Backoff
import PackageRelease.Proofs.Release.Published

/-! # Rehearsals

  A rehearsal is a release that uploads nothing. The key idea: what a release may fail with before
  its first request is a matter of the settings and the files alone, and a rehearsal reads exactly
  these. So a rehearsal that fails is a release that fails without a request, and one that succeeds
  has packed what the release goes on to upload.
-/

namespace PackageRelease

/-- An answer that asks to come back later is no success. -/
theorem Attempt.IsTransient.not_isAccepted {a : Attempt} (h : a.IsTransient) : ¬ a.IsAccepted := by
  rintro ⟨answer, hanswer, hlow, hhigh⟩
  have hlater := h answer hanswer
  omega

/-! ### The stages on this machine -/

namespace Settings

/-- What the stages on this machine come to, and the files that they leave. -/
def storing (s : Settings) (files : FileSystem) : Except Failure Manifest × FileSystem :=
  match s.check with
  | .error failure => (.error (.inStage .trigger failure), files)
  | .ok _ =>
    match Manifest.load files s.manifestPath with
    | .error failure => (.error (.inStage .load failure), files)
    | .ok loaded =>
      match Edit.applyAll s.edits loaded with
      | .error failure => (.error (.inStage .transform failure), files)
      | .ok m =>
        match m.store files s.manifestPath with
        | (.error failure, after) => (.error (.inStage .write failure), after)
        | (.ok _, after) => (.ok m, after)

/-- What can be confirmed of the files: that they are published, or that they could be. -/
def receipt (s : Settings) (files : FileSystem) (dryRun : Bool) :
    Except Failure Registry.Receipt := do
  let target ← s.target
  let parcel ← Registry.prepare files target
  return Registry.receipt target parcel dryRun

/-- What a rehearsal comes to. -/
def rehearsed (s : Settings) (files : FileSystem) : Except Failure Registry.Receipt :=
  match s.storing files with
  | (.error failure, _) => .error failure
  | (.ok _, after) => (s.receipt after true).mapError (Failure.inStage .publish)

theorem receipt_eq_ok {s : Settings} {files : FileSystem} {dryRun : Bool}
    {given : Registry.Receipt} : s.receipt files dryRun = .ok given ↔
      ∃ target parcel, s.target = .ok target ∧ Registry.prepare files target = .ok parcel ∧
        given = Registry.receipt target parcel dryRun := by
  constructor
  · intro h
    obtain ⟨target, htarget, h⟩ := bind_eq_ok.mp h
    obtain ⟨parcel, hparcel, h⟩ := bind_eq_ok.mp h
    exact ⟨target, parcel, htarget, hparcel, (Except.ok.inj h).symm⟩
  · rintro ⟨target, parcel, htarget, hparcel, rfl⟩
    exact bind_eq_ok.mpr ⟨target, htarget, bind_eq_ok.mpr ⟨parcel, hparcel, rfl⟩⟩

end Settings

namespace Run

/-- The result of the stages on this machine is computed from the settings and the files. -/
theorem LocalResult.eq_storing {settings : Settings} {files after : FileSystem}
    {outcome : Except Failure Manifest} (h : LocalResult settings files outcome after) :
    (outcome, after) = settings.storing files := by
  unfold Settings.storing
  cases h with
  | rejected hcheck => rw [hcheck]
  | unread hcheck hload =>
    rw [hcheck]
    dsimp only
    rw [hload]
  | unchanged hcheck hload hedits =>
    rw [hcheck]
    dsimp only
    rw [hload]
    dsimp only
    rw [hedits]
  | unstored hcheck hload hedits hstore =>
    rw [hcheck]
    dsimp only
    rw [hload]
    dsimp only
    rw [hedits]
    dsimp only
    rw [hstore]
  | stored hcheck hload hedits hstore =>
    rw [hcheck]
    dsimp only
    rw [hload]
    dsimp only
    rw [hedits]
    dsimp only
    rw [hstore]

end Run

/-! ### Uploads -/

namespace Action

/-- If the first attempt is sent, it is the first of all that are. -/
theorem attempts_of_attemptFrom {policy : RetryPolicy} {name : String} {target : Target}
    {token : Token} {done : Nat} (left : Nat) {world : World} {first : Attempt}
    (h : ((Registry.publish target token).perform world).2.attempts = world.attempts ++ [first]) :
    ∃ more, ((attemptFrom policy name (fun _ => Registry.publish target token) done left).perform
      world).2.attempts = world.attempts ++ first :: more := by
  have hsuccess : ∀ after : World, after.attempts = world.attempts ++ [first] →
      ∀ receipt : Registry.Receipt, ((do recordSuccess name done; return receipt :
        Action World Registry.Receipt).perform after).2.attempts = world.attempts ++ [first] := by
    intro after hafter receipt
    obtain ⟨hperform, hkept⟩ := perform_recordSuccess_attempts name done after
    rw [perform_bind_ok hperform]
    exact hkept.trans hafter
  cases left with
  | zero =>
    unfold attemptFrom
    rw [perform_bind]
    generalize (Registry.publish target token).perform world = performed at h ⊢
    obtain ⟨outcome, after⟩ := performed
    cases outcome with
    | error failure => exact ⟨[], h⟩
    | ok receipt => exact ⟨[], hsuccess after h receipt⟩
  | succ left =>
    unfold attemptFrom
    rw [perform_bind, perform_observe]
    generalize (Registry.publish target token).perform world = performed at h ⊢
    obtain ⟨outcome, after⟩ := performed
    cases outcome with
    | ok receipt => exact ⟨[], hsuccess after h receipt⟩
    | error failure =>
      dsimp only
      split
      · -- what follows the first attempt only adds to it
        have hafter : after.attempts = world.attempts ++ [first] := h
        obtain ⟨text, hrecord⟩ | hpanic :=
          @recordRetry_cases World _ policy name (done + 1) failure
        · rw [hrecord]
          obtain ⟨more, hmore, -⟩ := uploadSeries_attemptFrom policy name target token (done + 1) left
            (Chronicle.wait (policy.delayFor (done + 1)) (Chronicle.record ⟨.warn, text⟩ after))
          refine ⟨more, hmore.trans ?_⟩
          show after.attempts ++ more = _
          rw [hafter, List.append_assoc, List.singleton_append]
        · rw [hpanic, perform_bind, perform_panic]
          exact ⟨[], h⟩
      · exact ⟨[], h⟩

end Action

namespace Run

/-- A rehearsal ends with what can be confirmed of the files. -/
theorem outcome_of_dryRun {settings : Settings} (hdry : settings.dryRun = true)
    (token? : Option Token) (world : World) :
    ((upload settings token?).perform world).1 = settings.receipt world.files true := by
  unfold Settings.receipt
  cases htarget : settings.target with
  | error failure =>
    unfold upload
    rw [Action.perform_bind, Action.perform_lift, htarget]
    rfl
  | ok target =>
    rw [perform_upload_of_dryRun htarget hdry]
    unfold Registry.dryRun
    rw [Action.perform_bind, Action.perform_reading]
    cases hparcel : Registry.prepare world.files target with
    | error failure => simp only [Except.bind, bind, hparcel]
    | ok parcel =>
      simp only [Except.bind, bind, hparcel]
      rfl

section real_release
variable {settings : Settings} {token? : Option Token} {world : World} {token : Token}

/-- An upload of files of which nothing can be confirmed fails in the same way and sends nothing. -/
theorem perform_upload_of_unready (hwet : settings.dryRun = false)
    (hunasked : settings.checkExisting = false)
    (htoken : UsesToken settings token? world.environment token) {dryRun : Bool} {failure : Failure}
    (h : settings.receipt world.files dryRun = .error failure) :
    (upload settings token?).perform world = (.error failure, world) := by
  unfold Settings.receipt at h
  cases htarget : settings.target with
  | error other =>
    rw [htarget] at h
    cases h
    unfold upload
    rw [Action.perform_bind, Action.perform_lift, htarget]
  | ok target =>
    rw [htarget] at h
    cases hparcel : Registry.prepare world.files target with
    | ok parcel =>
      simp only [Except.bind, bind, hparcel] at h
      cases h
    | error other =>
      simp only [Except.bind, bind, hparcel] at h
      cases h
      have hpublish : (Registry.publish target token).perform world = (.error failure, world) := by
        unfold Registry.publish
        rw [Action.perform_bind, Action.perform_reading, hparcel]
      rw [perform_upload htarget hwet world htoken]
      unfold send
      rw [if_neg (by rw [hunasked]; exact Bool.false_ne_true)]
      -- what is wrong with the files does not pass
      exact Action.perform_attemptFrom_of_error hpublish
        (localOutcome_prepare world.files target failure hparcel).isRetryable_eq

/-- An upload of files that could be published sends a request. -/
theorem attempts_of_ready (hwet : settings.dryRun = false)
    (hunasked : settings.checkExisting = false)
    (hreach : ∀ target, settings.target = .ok target → target.Reachable)
    (htoken : UsesToken settings token? world.environment token) (hlegal : token.IsLegal)
    {dryRun : Bool} {given : Registry.Receipt}
    (h : settings.receipt world.files dryRun = .ok given) :
    ∃ first more, ((upload settings token?).perform world).2.attempts =
      world.attempts ++ first :: more := by
  obtain ⟨target, parcel, htarget, hparcel, -⟩ := Settings.receipt_eq_ok.mp h
  obtain ⟨first, hfirst⟩ := Registry.attempt_of_publish (hreach target htarget) hlegal hparcel
  rw [perform_upload htarget hwet world htoken]
  unfold send
  rw [if_neg (by rw [hunasked]; exact Bool.false_ne_true)]
  exact ⟨first, Action.attempts_of_attemptFrom _ hfirst⟩

end real_release

/-! ### All stages -/

/-- A release gets to its last stage: it has stored the changed manifest, and from there on it goes
    as an upload does. -/
structure Reaches (settings : Settings) (token? : Option Token) (world : World) (m : Manifest)
    (written : Run) : Prop where
  /-- The stages on this machine have passed. -/
  runLocal_eq : runLocal.perform (start settings token? world) = (.ok m, written)
  /-- They have left the files that are packed. -/
  storing_eq : settings.storing world.files = (.ok m, written.world.files)
  /-- They have left the environment as it was. -/
  environment_eq : written.world.environment = world.environment
  /-- They have sent nothing. -/
  attempts_eq : written.world.attempts = world.attempts
  /-- The outcome is that of the upload. -/
  outcome_eq : (runAll.perform (start settings token? world)).1 =
    ((upload settings token?).perform written.world).1.mapError (Failure.inStage .publish)
  /-- The requests are those of the upload. -/
  sent_eq : (runAll.perform (start settings token? world)).2.world.attempts =
    ((upload settings token?).perform written.world).2.attempts
  /-- The upload changes no files. -/
  files_eq : (runAll.perform (start settings token? world)).2.world.files = written.world.files

/-- A release gets to its last stage, or ends with a failure that the settings and the files
    decide. -/
theorem runAll_cases (settings : Settings) (token? : Option Token) (world : World) :
    (∃ failure, settings.storing world.files = (.error failure,
        (runAll.perform (start settings token? world)).2.world.files) ∧
      (runAll.perform (start settings token? world)).1 = .error failure ∧
      (runAll.perform (start settings token? world)).2.world.attempts = world.attempts) ∨
    ∃ m written, Reaches settings token? world m written := by
  have hresult := (@localResult (start settings token? world) rfl).eq_storing
  have hkept := keeps_surroundings_runLocal (start settings token? world)
  rcases hlocal : runLocal.perform (start settings token? world) with ⟨failure | m, after⟩
  · rw [hlocal] at hresult
    obtain ⟨hfailed, hattempts⟩ := perform_runAll_of_failed hlocal
    rw [hfailed]
    exact .inl ⟨failure, hresult.symm, rfl, hattempts⟩
  · rw [hlocal] at hresult hkept
    obtain ⟨hsettings, hgiven, henvironment, hattempts, -⟩ :
        after.settings = settings ∧ after.token? = token? ∧
          after.world.environment = world.environment ∧
          after.world.attempts = world.attempts ∧ after.world.panicked = world.panicked := by
      simpa [surroundings, start] using hkept
    obtain ⟨houtcome, hworld⟩ := perform_publish (state_of_runLocal hlocal).2
    have hrun : runAll.perform (start settings token? world) = publish.perform after := by
      rw [runAll_eq, Action.perform_bind, hlocal]
    refine .inr ⟨m, after, hlocal, hresult.symm, henvironment, hattempts, ?_, ?_,
      (files_of_runLocal hlocal).2⟩
    · rw [hrun, houtcome, hsettings, hgiven]
    · rw [hrun, hworld, hsettings, hgiven]
      rcases (upload settings token?).perform after.world with ⟨_ | _, _⟩ <;> rfl

section last_stage
variable {settings : Settings} {token? : Option Token} {world : World} {token : Token}
  {m : Manifest} {written : Run}

theorem Reaches.rehearsed_eq (h : Reaches settings token? world m written) :
    settings.rehearsed world.files =
      (settings.receipt written.world.files true).mapError (Failure.inStage .publish) := by
  unfold Settings.rehearsed
  rw [h.storing_eq]

/-- The result of a rehearsal is computed from the settings and the files. -/
theorem outcome_of_rehearsal (hdry : settings.dryRun = true) (token? : Option Token)
    (world : World) :
    (runAll.perform (start settings token? world)).1 = settings.rehearsed world.files ∧
      (runAll.perform (start settings token? world)).2.world.attempts = world.attempts := by
  rcases runAll_cases settings token? world with
    ⟨failure, hstoring, houtcome, hattempts⟩ | ⟨m, written, hreaches⟩
  · unfold Settings.rehearsed
    rw [hstoring]
    exact ⟨houtcome, hattempts⟩
  · obtain ⟨lookups, uploads, hattempts, hrequests⟩ := requests_of_runLocal hreaches.runLocal_eq
    obtain ⟨rfl, rfl⟩ := hrequests.withheld (.inl hdry)
    refine ⟨?_, hattempts.trans (List.append_nil _)⟩
    rw [hreaches.outcome_eq, hreaches.rehearsed_eq, outcome_of_dryRun hdry]

/-- A release that is bound to fail before its first request does so. -/
theorem runAll_of_rehearsed_error (hwet : settings.dryRun = false)
    (hunasked : settings.checkExisting = false)
    (htoken : UsesToken settings token? world.environment token) {failure : Failure}
    (h : settings.rehearsed world.files = .error failure) :
    (runAll.perform (start settings token? world)).1 = .error failure ∧
      (runAll.perform (start settings token? world)).2.world.attempts = world.attempts := by
  rcases runAll_cases settings token? world with
    ⟨other, hstoring, houtcome, hattempts⟩ | ⟨m, written, hreaches⟩
  · unfold Settings.rehearsed at h
    rw [hstoring] at h
    cases h
    exact ⟨houtcome, hattempts⟩
  · rw [hreaches.rehearsed_eq] at h
    cases hready : settings.receipt written.world.files true with
    | ok receipt =>
      rw [hready] at h
      cases h
    | error cause =>
      rw [hready] at h
      cases h
      have hupload :=
        perform_upload_of_unready hwet hunasked (hreaches.environment_eq ▸ htoken) hready
      rw [hreaches.outcome_eq, hreaches.sent_eq, hupload]
      exact ⟨rfl, hreaches.attempts_eq⟩

/-- A release with files that could be published uploads. -/
theorem Reaches.uploads (h : Reaches settings token? world m written)
    (hwet : settings.dryRun = false) (hunasked : settings.checkExisting = false)
    (hreach : ∀ target, settings.target = .ok target → target.Reachable)
    (htoken : UsesToken settings token? world.environment token) (hlegal : token.IsLegal)
    {dryRun : Bool} {given : Registry.Receipt}
    (hready : settings.receipt written.world.files dryRun = .ok given) :
    ∃ first more, (runAll.perform (start settings token? world)).2.world.attempts =
        world.attempts ++ first :: more ∧
      (∀ a ∈ first :: more, a.request.method = .put) ∧
      ((∃ a ∈ first :: more, a.IsAccepted) → ∃ published,
        (runAll.perform (start settings token? world)).1 = .ok published) := by
  obtain ⟨first, more, hupload⟩ := attempts_of_ready hwet hunasked hreach
    (h.environment_eq ▸ htoken) hlegal hready
  rw [← h.sent_eq, h.attempts_eq] at hupload
  obtain ⟨lookups, uploads, hsent, hrequests⟩ := requests_of_runLocal h.runLocal_eq
  have hlookups : lookups = [] := by
    by_contra hsome
    have hasked := hrequests.lookup_wanted hsome
    rw [show (start settings token? world).settings = settings from rfl, hunasked] at hasked
    cases hasked
  obtain rfl : uploads = first :: more := by
    rw [hlookups, List.nil_append] at hsent
    exact List.append_cancel_left (hsent.symm.trans hupload)
  refine ⟨first, more, hupload, fun a ha => ?_, fun ⟨a, ha, haccepted⟩ => ?_⟩
  · obtain ⟨_, _, _, _, request, -, -, -, hmethod, hsame, -⟩ :=
      hrequests.upload_request (List.cons_ne_nil first more)
    rw [hsame a ha, hmethod]
  · -- only the last upload can be answered with success
    have hlast : ∃ last ∈ (first :: more).getLast?, last.IsAccepted := by
      have hsplit := List.dropLast_append_getLast (List.cons_ne_nil first more)
      rw [← hsplit, List.mem_append, List.mem_singleton] at ha
      rcases ha with hearly | rfl
      · exact absurd haccepted (hrequests.upload_repeated a hearly).not_isAccepted
      · exact ⟨_, List.getLast?_eq_some_getLast _, haccepted⟩
    obtain ⟨published, hpublished, -⟩ := hrequests.published_iff.mpr hlast
    exact ⟨published, hpublished⟩

/-- The receipt of a release that is accepted is for the files that could be published. -/
theorem runAll_of_rehearsed_ok (hwet : settings.dryRun = false)
    (hunasked : settings.checkExisting = false)
    (hreach : ∀ target, settings.target = .ok target → target.Reachable)
    (htoken : UsesToken settings token? world.environment token) (hlegal : token.IsLegal)
    {receipt : Registry.Receipt} (h : settings.rehearsed world.files = .ok receipt) :
    receipt.dryRun = true ∧ ∃ first more,
      (runAll.perform (start settings token? world)).2.world.attempts =
        world.attempts ++ first :: more ∧
      (∀ a ∈ first :: more, a.request.method = .put) ∧
      ((∃ a ∈ first :: more, a.IsAccepted) →
        (runAll.perform (start settings token? world)).1 =
          .ok { receipt with dryRun := false }) := by
  rcases runAll_cases settings token? world with
    ⟨other, hstoring, -⟩ | ⟨m, written, hreaches⟩
  · unfold Settings.rehearsed at h
    rw [hstoring] at h
    cases h
  rw [hreaches.rehearsed_eq] at h
  cases hready : settings.receipt written.world.files true with
  | error cause =>
    rw [hready] at h
    cases h
  | ok given =>
    rw [hready] at h
    cases h
    obtain ⟨target, parcel, htarget, hparcel, rfl⟩ := Settings.receipt_eq_ok.mp hready
    obtain ⟨first, more, hsent, hput, hpublished⟩ :=
      hreaches.uploads hwet hunasked hreach htoken hlegal hready
    refine ⟨rfl, first, more, hsent, hput, fun haccepted => ?_⟩
    -- both receipts are for the files that the stages on this machine have left
    obtain ⟨published, houtcome⟩ := hpublished haccepted
    obtain ⟨other, hother, again, hagain, rfl⟩ :=
      confirms_of_runAll (Prod.ext houtcome rfl : _ = (Except.ok published, _))
    rw [hreaches.files_eq] at hagain
    obtain rfl : target = other := Except.ok.inj (htarget.symm.trans hother)
    obtain rfl : parcel = again := Except.ok.inj (hparcel.symm.trans hagain)
    rw [houtcome]
    show Except.ok (Registry.receipt target parcel settings.dryRun) = _
    rw [hwet]
    rfl

/-- The files that a release leaves are those of the stages on this machine. -/
theorem files_of_start (settings : Settings) (token? : Option Token) (world : World) :
    (runAll.perform (start settings token? world)).2.world.files =
      (settings.storing world.files).2 := by
  rcases runAll_cases settings token? world with ⟨_, hstoring, -⟩ | ⟨m, written, hreaches⟩
  · rw [hstoring]
  · rw [hreaches.files_eq, hreaches.storing_eq]

end last_stage

end Run

end PackageRelease
