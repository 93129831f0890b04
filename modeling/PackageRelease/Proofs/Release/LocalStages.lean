import PackageRelease.Proofs.Release.Lifecycle

/-! # What the stages on this machine do

  `LocalResult` says how the stages on this machine end and which files they leave, by the settings
  and the files alone. The key idea: a stage that starts hands on what its work comes to, and it
  changes neither the settings nor, except for the one that stores the manifest, the files; so the
  first part of the work that fails decides.
-/

namespace PackageRelease

/-- What the first stage asks of the settings. -/
def Settings.check (s : Settings) : Except Failure Unit := do
  s.validate
  discard s.checkTag

namespace Run

/-! ### One stage -/

/-- What a stage works with. -/
def footing (run : Run) : Settings × FileSystem := (run.settings, run.world.files)

/-- A stage starts, ends with the outcome of its work and leaves the given files. -/
def Ends {α : Type} (stage : Stage) (action : Action Run α) (run : Run)
    (outcome : Except Failure α) (files : FileSystem) : Prop :=
  ∃ after : Run, after.footing = (run.settings, files) ∧
    match outcome with
    | .ok result => action.perform run = (.ok result, after) ∧ after.state = stage.produces
    | .error failure => action.perform run = (.error (.inStage stage failure), after)

theorem advance_footing (stage : Stage) (run : Run) : (advance stage run).footing = run.footing := by
  unfold advance
  split <;> rfl

section one_stage
variable {α : Type} {stage : Stage} {work : Action Run α} {run : Run} {outcome : Except Failure α}

/-- A stage that starts ends as its work does. -/
theorem ends_perform {files : FileSystem} (hstate : run.state = stage.requires)
    (houtcome : (work.perform run).1 = outcome)
    (hfooting : (work.perform run).2.footing = (run.settings, files))
    (hbare : BareOutcome outcome) : Ends stage (perform stage work) run outcome files := by
  have hperform := perform_of_eq hstate work
  generalize work.perform run = worked at houtcome hfooting hperform
  obtain ⟨worked, between⟩ := worked
  obtain rfl : worked = outcome := houtcome
  cases worked with
  | ok result =>
    have hafter := (advance_footing stage between).trans hfooting
    exact ⟨_, hafter, hperform, advance_state stage between⟩
  | error failure =>
    -- a failure of the work names no stage yet, so it gets this one
    have hfailure : failure.atStage stage = .inStage stage failure :=
      atStage_of_bare (hbare failure rfl) stage
    dsimp only at hperform
    rw [hfailure] at hperform
    exact ⟨halt stage failure between, hfooting, hperform⟩

/-- A stage that only reads leaves the files as they are. -/
theorem ends_perform_of_keeps (hstate : run.state = stage.requires)
    (houtcome : (work.perform run).1 = outcome) (hkeeps : Action.Keeps footing work)
    (hbare : BareOutcome outcome) :
    Ends stage (perform stage work) run outcome run.world.files :=
  ends_perform hstate houtcome (hkeeps run) hbare

/-- A sequence ends with the stage that fails. -/
theorem Ends.bind_error {β : Type} {action : Action Run α} {failure : Failure} {files : FileSystem}
    (h : Ends stage action run (.error failure) files) (next : α → Action Run β) :
    ((action >>= next).perform run).1 = .error (.inStage stage failure) ∧
      ((action >>= next).perform run).2.world.files = files := by
  obtain ⟨after, hfooting, hperform⟩ := h
  rw [Action.perform_bind, hperform]
  exact ⟨rfl, (Prod.mk.inj hfooting).2⟩

/-- A sequence goes on behind a stage that does not fail. -/
theorem Ends.bind_ok {β : Type} {action : Action Run α} {result : α} {files : FileSystem}
    (h : Ends stage action run (.ok result) files) (next : α → Action Run β) :
    ∃ between : Run, (action >>= next).perform run = (next result).perform between ∧
      between.state = stage.produces ∧ between.settings = run.settings ∧
      between.world.files = files := by
  obtain ⟨between, hfooting, hperform, hstate⟩ := h
  obtain ⟨hsettings, hfiles⟩ := Prod.mk.inj hfooting
  exact ⟨between, Action.perform_bind_ok hperform next, hstate, hsettings, hfiles⟩

end one_stage

section stages
variable {run : Run}

theorem ends_checkTrigger (h : run.state = .idle) :
    Ends .trigger checkTrigger run run.settings.check run.world.files := by
  refine ends_perform_of_keeps h rfl (Action.keeps_reading _) ?_
  exact bareOutcome_bind (bareOutcome_validate run.settings) fun _ =>
    bareOutcome_bind (bareOutcome_checkTag run.settings) fun _ => bareOutcome_ok _

theorem keeps_footing_note (level : Level) (text : String) :
    Action.Keeps footing (Action.record level text : Action Run Unit) := fun _ => rfl

theorem ends_load (h : run.state = .idle) :
    Ends .load load run (Manifest.load run.world.files run.settings.manifestPath)
      run.world.files := by
  refine ends_perform_of_keeps h ?_ ?_ (bareOutcome_load _ _)
  · rw [Action.perform_bind, Action.perform_get]
    dsimp only
    rw [Action.perform_bind, Action.perform_reading]
    cases Manifest.load run.world.files run.settings.manifestPath with
    | error failure => rfl
    | ok m =>
      -- a warning about the tag goes to the log only
      dsimp only
      cases tagWarning? run.settings m <;> rfl
  · refine Action.keeps_bind Action.keeps_get fun run => Action.keeps_bind
      (Action.keeps_reading _) fun m => ?_
    cases tagWarning? run.settings m with
    | some warning => exact Action.keeps_bind (keeps_footing_note _ _) fun _ => Action.keeps_pure _
    | none => exact Action.keeps_pure m

theorem ends_transform (h : run.state = .manifestLoaded) (m : Manifest) :
    Ends .transform (transform m) run (Edit.applyAll run.settings.edits m) run.world.files := by
  refine ends_perform_of_keeps h ?_ ?_ (bareOutcome_applyAll _ m)
  · rw [Action.perform_bind, Action.perform_get]
    dsimp only
    rw [Action.perform_bind, Action.perform_reading]
    cases Edit.applyAll run.settings.edits m <;> rfl
  · exact Action.keeps_bind Action.keeps_get fun run => Action.keeps_bind
      (Action.keeps_reading _) fun _ =>
        Action.keeps_bind (keeps_footing_note _ _) fun _ => Action.keeps_pure _

theorem ends_write (h : run.state = .transformed) (m : Manifest) :
    Ends .write (write m) run (m.store run.world.files run.settings.manifestPath).1
      (m.store run.world.files run.settings.manifestPath).2 := by
  refine ends_perform h ?_ ?_ (bareOutcome_store m _ _)
  all_goals
    rw [Action.perform_bind, Action.perform_get]
    unfold onWorld
    dsimp only
    rw [Action.perform_bind, Action.perform_ofFunction, Action.perform_ofFunction]
    rcases m.store run.world.files run.settings.manifestPath with ⟨_ | _, _⟩ <;> rfl

end stages

/-! ### All stages on this machine -/

/-- How the stages on this machine can end, by their outcome and the files they leave. -/
inductive LocalResult (settings : Settings) (files : FileSystem) :
    Except Failure Manifest → FileSystem → Prop where
  /-- The settings or the tag are refused. -/
  | rejected {failure : Failure} (hcheck : settings.check = .error failure) :
      LocalResult settings files (.error (.inStage .trigger failure)) files
  /-- The manifest cannot be read. -/
  | unread {failure : Failure} (hcheck : settings.check = .ok ())
      (hload : Manifest.load files settings.manifestPath = .error failure) :
      LocalResult settings files (.error (.inStage .load failure)) files
  /-- The manifest cannot be changed. -/
  | unchanged {failure : Failure} {loaded : Manifest} (hcheck : settings.check = .ok ())
      (hload : Manifest.load files settings.manifestPath = .ok loaded)
      (hedits : Edit.applyAll settings.edits loaded = .error failure) :
      LocalResult settings files (.error (.inStage .transform failure)) files
  /-- The changed manifest cannot be stored. -/
  | unstored {failure : Failure} {loaded m : Manifest} {after : FileSystem}
      (hcheck : settings.check = .ok ())
      (hload : Manifest.load files settings.manifestPath = .ok loaded)
      (hedits : Edit.applyAll settings.edits loaded = .ok m)
      (hstore : m.store files settings.manifestPath = (.error failure, after)) :
      LocalResult settings files (.error (.inStage .write failure)) after
  /-- The changed manifest is stored. -/
  | stored {loaded m : Manifest} {after : FileSystem} (hcheck : settings.check = .ok ())
      (hload : Manifest.load files settings.manifestPath = .ok loaded)
      (hedits : Edit.applyAll settings.edits loaded = .ok m)
      (hstore : m.store files settings.manifestPath = (.ok (), after)) :
      LocalResult settings files (.ok m) after

/-- A release of which nothing has been done goes through its stages in their order. -/
theorem localResult {run : Run} (h : run.state = .idle) :
    LocalResult run.settings run.world.files (runLocal.perform run).1
      (runLocal.perform run).2.world.files := by
  unfold runLocal
  have htrigger := ends_checkTrigger h
  rcases hcheck : run.settings.check with failure | _
  · rw [hcheck] at htrigger
    obtain ⟨houtcome, hfiles⟩ := htrigger.bind_error _
    rw [houtcome, hfiles]
    exact .rejected hcheck
  rw [hcheck] at htrigger
  obtain ⟨checked, hperform, hstate, hchecked, hfiles⟩ := htrigger.bind_ok _
  rw [hperform]
  -- every later stage starts from the same settings and files
  have hread := ends_load hstate
  rw [hchecked, hfiles] at hread
  rcases hload : Manifest.load run.world.files run.settings.manifestPath with failure | loaded
  · rw [hload] at hread
    obtain ⟨houtcome, hfiles⟩ := hread.bind_error _
    rw [houtcome, hfiles]
    exact .unread hcheck hload
  rw [hload] at hread
  obtain ⟨read, hperform, hstate, hread, hfiles⟩ := hread.bind_ok _
  rw [hperform]
  have hchange := ends_transform hstate loaded
  rw [hread, hchecked, hfiles] at hchange
  rcases hedits : Edit.applyAll run.settings.edits loaded with failure | m
  · rw [hedits] at hchange
    obtain ⟨houtcome, hfiles⟩ := hchange.bind_error _
    rw [houtcome, hfiles]
    exact .unchanged hcheck hload hedits
  rw [hedits] at hchange
  obtain ⟨changed, hperform, hstate, hchanged, hfiles⟩ := hchange.bind_ok _
  rw [hperform]
  -- only this stage leaves other files
  have hwrite := ends_write hstate m
  rw [hchanged, hread, hchecked, hfiles] at hwrite
  rcases hstore : m.store run.world.files run.settings.manifestPath with ⟨failure | _, after⟩
  · rw [hstore] at hwrite
    obtain ⟨houtcome, hfiles⟩ := hwrite.bind_error _
    rw [houtcome, hfiles]
    exact .unstored hcheck hload hedits hstore
  · rw [hstore] at hwrite
    obtain ⟨written, hperform, -, -, hfiles⟩ := hwrite.bind_ok _
    rw [hperform]
    obtain rfl : written.world.files = after := hfiles
    exact .stored hcheck hload hedits hstore

/-- A release that has begun refuses to go through its stages again. -/
theorem runLocal_of_ne {run : Run} (h : run.state ≠ .idle) :
    runLocal.perform run = (.error (.outOfOrder run.state .idle), run) := by
  have htrigger := @perform_of_ne Unit .trigger run h
    (Action.reading fun run => do run.settings.validate; discard run.settings.checkTag)
  unfold runLocal checkTrigger
  rw [Action.perform_bind, htrigger]
  rfl

/-- A release whose stages on this machine have passed had not begun, and now only the last stage is
    left. -/
theorem state_of_runLocal {run written : Run} {m : Manifest}
    (h : runLocal.perform run = (.ok m, written)) :
    run.state = .idle ∧ written.state = .written := by
  have hidle : run.state = .idle := by
    by_contra hne
    rw [runLocal_of_ne hne] at h
    cases h
  have hcourse := course_runLocal (fun m => course_pure m) run
  rw [bind_pure, h] at hcourse
  exact ⟨hidle, course_success hcourse rfl⟩

/-- The stages on this machine that have passed have stored the changed manifest. -/
theorem store_of_runLocal {run written : Run} {m : Manifest}
    (h : runLocal.perform run = (.ok m, written)) :
    run.settings.check = .ok () ∧ ∃ loaded,
      Manifest.load run.world.files run.settings.manifestPath = .ok loaded ∧
        Edit.applyAll run.settings.edits loaded = .ok m ∧
          m.store run.world.files run.settings.manifestPath = (.ok (), written.world.files) := by
  have hresult := localResult (state_of_runLocal h).1
  rw [h] at hresult
  generalize written.world.files = files at hresult
  cases hresult with
  | stored hcheck hload hedits hstore => exact ⟨hcheck, _, hload, hedits, hstore⟩

/-- Only a release that fails to store the manifest can have changed files and failed before its
    last stage. -/
theorem failure_of_runLocal {run after : Run} {failure : Failure}
    (h : runLocal.perform run = (.error failure, after)) :
    failure.stage? ≠ some .publish ∧
      (failure.stage? = some .write ∨ after.world.files = run.world.files) := by
  by_cases hidle : run.state = .idle
  · have hresult := localResult hidle
    rw [h] at hresult
    generalize after.world.files = files at hresult ⊢
    generalize run.world.files = before at hresult ⊢
    cases hresult with
    | rejected | unread | unchanged => exact ⟨by simp [Failure.stage?], .inr rfl⟩
    | unstored => exact ⟨by simp [Failure.stage?], .inl rfl⟩
  · rw [runLocal_of_ne hidle] at h
    cases h
    exact ⟨by simp [Failure.stage?], .inr rfl⟩

end Run

end PackageRelease
