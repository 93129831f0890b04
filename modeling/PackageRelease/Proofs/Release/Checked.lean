import PackageRelease.Proofs.Release.LocalStages

/-! # What a release has checked

  The check of the settings leads to the state that it needs, so the state of a release does not
  tell whether the check was made. The key idea: a release of which nothing has been done refuses
  every call but those that begin with the check and `load`. So the first call that is not refused
  either has made the check, and goes on only if that passes, or it is a `load` on its own.
-/

namespace PackageRelease

/-! ### The check -/

namespace Run

/-- The check leaves a release as it is, or ends it. -/
theorem perform_checkTrigger {run : Run} (h : run.state = .idle) :
    checkTrigger.perform run = match run.settings.check with
      | .ok () => (.ok (), run)
      | .error failure => (.error (failure.atStage .trigger), halt .trigger failure run) := by
  have hwork : (Action.reading fun run : Run => do
      run.settings.validate
      discard run.settings.checkTag).perform run = (run.settings.check, run) := rfl
  unfold checkTrigger
  rw [perform_of_eq h, hwork]
  cases run.settings.check with
  | ok =>
    -- the state does not change, so there is nothing to move on to
    have hadvance : advance .trigger run = run := if_pos h.symm
    exact congrArg (Prod.mk _) hadvance
  | error failure => rfl

end Run

/-- Settings that pass the check are valid, and their tag starts with `v`. -/
theorem Settings.valid_of_check {s : Settings} (h : s.check = .ok ()) :
    s.validate = .ok () ∧ ∀ tag ∈ s.tag?, tag.toList.head? = some 'v' := by
  obtain ⟨⟨⟩, hvalidate, htag⟩ := bind_eq_ok.mp h
  refine ⟨hvalidate, fun tag hsome => ?_⟩
  have hsome : s.tag? = some tag := hsome
  unfold checkTag at htag
  rw [hsome] at htag
  dsimp only at htag
  split at htag
  · next rest hlist => rw [hlist]; rfl
  · cases htag

/-! ### Calls that begin with the check -/

namespace Call

/-- No manifest is loaded on its own before a call that begins with the check. -/
def ChecksFirst (calls : List Call) : Prop :=
  ∀ front back, calls = front ++ .load :: back → ∃ call ∈ front, call.first = .trigger

theorem action_of_first {call : Call} (h : call.first = .trigger) :
    ∃ next, call.action = Run.checkTrigger >>= next := by
  cases call with
  | checkTrigger => exact ⟨_, rfl⟩
  | runLocal =>
    unfold action Run.runLocal
    rw [bind_assoc]
    exact ⟨_, rfl⟩
  | runAll =>
    rw [action_runAll]
    unfold Run.runLocal
    rw [bind_assoc]
    exact ⟨_, rfl⟩
  | load | transform | write | publish => cases h

/-- A call that begins with a check that fails ends the release. -/
theorem perform_of_check_error {call : Call} {run : Run} {failure : Failure}
    (h : call.first = .trigger) (hidle : run.state = .idle)
    (hcheck : run.settings.check = .error failure) :
    (call.action.perform run).2 = Run.halt .trigger failure run := by
  obtain ⟨next, hnext⟩ := action_of_first h
  rw [hnext, Action.perform_bind, Run.perform_checkTrigger hidle, hcheck]

/-- What begins neither with the check nor with `load` is refused at first. -/
theorem perform_of_idle {call : Call} {run : Run} (hidle : run.state = .idle)
    (htrigger : call.first ≠ .trigger) (hload : call ≠ .load) :
    (call.action.perform run).2 = run := by
  have hfirst : run.state ≠ call.first.requires := by
    rw [hidle]
    cases call with
    | checkTrigger | runLocal | runAll => exact absurd rfl htrigger
    | load => exact absurd rfl hload
    | transform | write | publish => nofun
  rw [perform_refused hfirst]

theorem ChecksFirst.tail {call : Call} {calls : List Call} (h : ChecksFirst (call :: calls))
    (htrigger : call.first ≠ .trigger) : ChecksFirst calls := by
  intro front back hcalls
  obtain ⟨other, hmem, hother⟩ := h (call :: front) back (congrArg (call :: ·) hcalls)
  rcases List.mem_cons.mp hmem with rfl | hmem
  · exact absurd hother htrigger
  · exact ⟨other, hmem, hother⟩

/-- Calls leave a release of which nothing has been done as it is, or one of them finds it so and
    checks its settings. -/
theorem performAll_of_checksFirst {calls : List Call} {run : Run} (hcalls : ChecksFirst calls)
    (hidle : run.state = .idle) :
    (performAll calls run).2 = run ∨
      (∃ failure, (performAll calls run).2 = Run.halt .trigger failure run) ∨
      ∃ front call back, calls = front ++ call :: back ∧ call.first = .trigger ∧
        (performAll front run).2 = run ∧ run.settings.check = .ok () := by
  induction calls with
  | nil => exact .inl rfl
  | cons call calls ih =>
    by_cases htrigger : call.first = .trigger
    · -- the outcome of the check decides
      cases hcheck : run.settings.check with
      | ok => exact .inr (.inr ⟨[], call, calls, rfl, htrigger, rfl, rfl⟩)
      | error failure =>
        rw [performAll_cons, perform_of_check_error htrigger hidle hcheck]
        exact .inr (.inl ⟨failure, (performAll_of_isTerminal calls rfl).1⟩)
    · have hload : call ≠ .load := by
        rintro rfl
        obtain ⟨_, hmem, -⟩ := hcalls [] calls rfl
        cases hmem
      have hrefused := perform_of_idle hidle htrigger hload
      rw [performAll_cons, hrefused]
      rcases ih (hcalls.tail htrigger) with hkept | hended | hchecked
      · exact .inl hkept
      · exact .inr (.inl hended)
      · obtain ⟨front, other, back, rfl, hother, hfront, hcheck⟩ := hchecked
        refine .inr (.inr ⟨call :: front, other, back, rfl, hother, ?_, hcheck⟩)
        rw [performAll_cons, hrefused]
        exact hfront

end Call

/-- If no manifest is loaded on its own before a call that begins with the check, then a release
    that has loaded a manifest, changed a file or sent a request had its settings checked before
    any of this: some call found the release as it was at the start, and began with the check, which
    passed. -/
theorem checked_of_calls (settings : Settings) (token? : Option Token) (world : World)
    {calls : List Call} (hcalls : Call.ChecksFirst calls) :
    let run := Run.start settings token? world
    let final := (Call.performAll calls run).2
    .manifestLoaded ∈ final.history ∨ final.world.files ≠ world.files ∨
        final.world.attempts ≠ world.attempts →
      ∃ front call back, calls = front ++ call :: back ∧ call.first = .trigger ∧
        (Call.performAll front run).2 = run ∧ (Run.checkTrigger.perform run).1 = .ok () ∧
        settings.validate = .ok () ∧ ∀ tag ∈ settings.tag?, tag.toList.head? = some 'v' := by
  intro run final hmoved
  have hidle : run.state = .idle := rfl
  rcases Call.performAll_of_checksFirst hcalls hidle with hkept | hended | hchecked
  · have hkept : final = run := hkept
    rw [hkept] at hmoved
    simp [run, Run.start] at hmoved
  · -- a check that fails adds to the history and the log only
    obtain ⟨failure, hended⟩ := hended
    have hended : final = Run.halt .trigger failure run := hended
    rw [hended] at hmoved
    simp [run, Run.start, Run.halt, Chronicle.record] at hmoved
  · obtain ⟨front, call, back, hsplit, htrigger, hfront, hcheck⟩ := hchecked
    refine ⟨front, call, back, hsplit, htrigger, hfront, ?_, Settings.valid_of_check hcheck⟩
    rw [Run.perform_checkTrigger rfl, hcheck]

/-- A release of a package without files, for a tag. -/
def taggedRelease (tag : String) : Run :=
  Run.start
    { Settings.builtIn with
      artifactDirectory := ⟨"p"⟩
      registry := "http://r"
      tag? := some tag }
    (some ⟨"t"⟩)
    (World.start
      { entries := [(["p"], .directory), (["p", "package.json"],
          .file (Text.encode "\x7b\"name\":\"a\",\"version\":\"1.0.0\"\x7d"))]
        workingDirectory := [] }
      [] [some ⟨⟨201⟩, some ""⟩])

theorem checked_of_taggedRelease :
    .manifestLoaded ∈ (Call.performAll [.publish, .runLocal] (taggedRelease "v1.0.0")).2.history ∧
      ∃ front call back, [.publish, .runLocal] = front ++ call :: back ∧ call.first = .trigger ∧
        (Call.performAll front (taggedRelease "v1.0.0")).2 = taggedRelease "v1.0.0" ∧
        (Run.checkTrigger.perform (taggedRelease "v1.0.0")).1 = .ok () ∧
        (taggedRelease "v1.0.0").settings.validate = .ok () ∧
        ∀ tag ∈ (taggedRelease "v1.0.0").settings.tag?, tag.toList.head? = some 'v' := by
  have hloaded : State.manifestLoaded ∈
      (Call.performAll [.publish, .runLocal] (taggedRelease "v1.0.0")).2.history := by
    decide +kernel
  refine ⟨hloaded, checked_of_calls _ _ _ ?_ (.inl hloaded)⟩
  -- there is no `load` among the calls
  intro front back h
  have hload : Call.load ∈ [Call.publish, Call.runLocal] := by rw [h]; simp
  simp at hload

/-- Nothing asks for the check: a manifest that is loaded on its own can be stored and published
    although the check of the settings would fail. -/
theorem unchecked_of_load :
    (Call.performAll [.load, .transform ⟨[]⟩, .write ⟨[]⟩] (taggedRelease "1.0.0")).2.history =
      [.idle, .manifestLoaded, .transformed, .written] ∧
    (Call.performAll [.load, .transform ⟨[]⟩, .write ⟨[("name", .string "b"),
      ("version", .string "1.0.0")]⟩, .publish] (taggedRelease "1.0.0")).2.world.attempts.map
        (·.request.method) = [.put] ∧
    (Run.checkTrigger.perform (taggedRelease "1.0.0")).1 =
      .error (.inStage .trigger (.usage (.invalidTag "1.0.0"))) := by
  decide +kernel

end PackageRelease
