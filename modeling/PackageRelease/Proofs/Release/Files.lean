import PackageRelease.Proofs.FileSystem.Operations
import PackageRelease.Proofs.Release.LocalStages
import PackageRelease.Proofs.Release.Requests

/-! # Files during a release

  The key idea: storing the manifest is the only step of a release that changes files. Two things
  follow from it:

  - a release that fails before it stores anything leaves the files alone, and a release that has
    stored the manifest leaves the files as the store has left them, however the upload goes;
  - a release that starts on a tree of files leaves a tree.
-/

namespace PackageRelease

namespace Run

/-! ### Uploading -/

section view
variable {γ : Type} {view : World → γ}

/-- An upload keeps what is seen of the files, the variables and the mark of a panic, if no panic is
    seen where trying again may panic. -/
theorem keeps_send {settings : Settings}
    (hview : ∀ v w, Registry.background v = Registry.background w → view v = view w)
    (hpanic : settings.retryPolicy.totalAttempts? = none →
      ∀ world, view (Chronicle.panic world) = view world) (target : Target) (token : Token) :
    Action.Keeps view (send settings target token) := by
  have hpublish : Action.Keeps view (Action.retry settings.retryPolicy "Registry publish" fun _ =>
      Registry.publish target token) :=
    Action.keeps_retry ⟨fun _ _ => hview _ _ rfl, fun _ _ => hview _ _ rfl, hpanic⟩ _ fun _ =>
      Registry.keeps_of_background hview (Registry.keeps_background_publish target token)
  unfold send
  split
  · exact Action.keeps_bind (Registry.keeps_of_background hview
      (keeps_background_ensureUnpublished target)) fun _ => hpublish
  · exact hpublish

theorem keeps_upload {settings : Settings}
    (hview : ∀ v w, Registry.background v = Registry.background w → view v = view w)
    (hpanic : settings.retryPolicy.totalAttempts? = none →
      ∀ world, view (Chronicle.panic world) = view world) (token? : Option Token) :
    Action.Keeps view (upload settings token?) := by
  refine Action.keeps_bind (Action.keeps_lift _) fun target => ?_
  dsimp only
  split
  · exact Action.keeps_bind (Action.keeps_reading _) fun _ =>
      Action.keeps_bind (fun _ => hview _ _ rfl) fun _ => Action.keeps_pure _
  · cases token? with
    | some token => exact keeps_send hview hpanic target token
    | none => exact Action.keeps_bind (Action.keeps_reading _) (keeps_send hview hpanic target)

/-- The last stage keeps it as well, however it ends. -/
theorem view_publish {run : Run}
    (hview : ∀ v w, Registry.background v = Registry.background w → view v = view w)
    (hpanic : run.settings.retryPolicy.totalAttempts? = none →
      ∀ world, view (Chronicle.panic world) = view world) :
    view (publish.perform run).2.world = view run.world := by
  by_cases hstate : run.state = Stage.publish.requires
  · have hupload := keeps_upload hview hpanic run.token? run.world
    rw [(perform_publish hstate).2]
    generalize (upload run.settings run.token?).perform run.world = uploaded at hupload ⊢
    obtain ⟨outcome, after⟩ := uploaded
    cases outcome with
    | ok receipt => exact hupload
    | error failure =>
      -- behind the failure there is only an entry of the log
      exact (hview (Chronicle.record (failureEntry .publish failure) after) after rfl).trans hupload
  · unfold publish
    rw [perform_of_ne hstate]

end view

/-- The last stage changes no files, whatever the registry answers and however often it is asked. -/
theorem keeps_files_publish : Action.Keeps (fun run : Run => run.world.files) publish :=
  fun _ => view_publish Registry.files_of_background fun _ _ => rfl

/-! ### The whole release -/

/-- A release that has stored the changed manifest leaves the files that the store has left. -/
theorem files_of_runLocal {run written : Run} {m : Manifest}
    (hlocal : runLocal.perform run = (.ok m, written)) :
    m.store run.world.files run.settings.manifestPath = (.ok (), written.world.files) ∧
      (runAll.perform run).2.world.files = written.world.files := by
  obtain ⟨-, -, -, -, hstore⟩ := store_of_runLocal hlocal
  rw [runAll_eq, Action.perform_bind, hlocal]
  exact ⟨hstore, keeps_files_publish written⟩

/-- When the stages on this machine have passed, only the last stage can fail. -/
theorem stage?_of_runLocal {run written : Run} {m : Manifest}
    (hlocal : runLocal.perform run = (.ok m, written)) :
    ∀ failure, (runAll.perform run).1 = .error failure → failure.stage? = some .publish := by
  intro failure h
  rw [runAll_eq, Action.perform_bind, hlocal] at h
  dsimp only at h
  have hresult := stageResult_publish written
  rw [h] at hresult
  generalize (publish.perform written).2 = final at hresult
  cases hresult with
  | refused hstate => exact absurd (state_of_runLocal hlocal).2 hstate
  | stopped => rfl

/-- The files that a release leaves. A failure of one of the first three stages leaves the files
    that were there. A release gets to its last stage exactly if the stages before it have stored
    the changed manifest, and then it leaves the files that the store has left: with a receipt,
    without an upload and with any failure. -/
theorem files_of_runAll (run : Run) :
    (∀ stage ∈ [Stage.trigger, .load, .transform], ∀ failure,
        (runAll.perform run).1 = .error failure → failure.stage? = some stage →
          (runAll.perform run).2.world.files = run.world.files) ∧
      (∀ m written, runLocal.perform run = (.ok m, written) →
        m.store run.world.files run.settings.manifestPath = (.ok (), written.world.files) ∧
          (runAll.perform run).2.world.files = written.world.files) ∧
      ((∃ m written, runLocal.perform run = (.ok m, written)) ↔
        ∀ failure, (runAll.perform run).1 = .error failure →
          failure.stage? = some .publish) := by
  rcases hlocal : runLocal.perform run with ⟨failure | m, after⟩
  · -- the release ends with the failure, which is none of the last stage
    obtain ⟨hpublish, hfiles⟩ := failure_of_runLocal hlocal
    rw [(perform_runAll_of_failed hlocal).1]
    refine ⟨fun stage hstage cause hcause htag => ?_, fun m written h => (by cases h), ?_⟩
    · cases hcause
      refine hfiles.resolve_left fun hwrite => ?_
      rw [htag] at hwrite
      cases hwrite
      simp at hstage
    · exact ⟨fun ⟨m, written, h⟩ => (by cases h), fun h => absurd (h failure rfl) hpublish⟩
  · have hstage := stage?_of_runLocal hlocal
    refine ⟨fun stage hmem failure h htag => ?_, fun m written h => ?_, ?_⟩
    · rw [hstage failure h] at htag
      cases htag
      simp at hmem
    · cases h
      exact files_of_runLocal hlocal
    · exact ⟨fun _ => hstage, fun _ => ⟨m, after, rfl⟩⟩

/-! ### Trees -/

/-- Whether the files of a release form a tree. -/
def OnTree (run : Run) : Prop := run.world.files.Grounded

theorem onTree_of_keeps {α : Type} {action : Action Run α}
    (h : Action.Keeps (fun run : Run => run.world.files) action) :
    Action.Preserves OnTree action :=
  Action.preserves_of_keeps h fun _ next heq hrun => by
    unfold OnTree
    rw [heq]
    exact hrun

/-- A stage leaves a tree if its work does. -/
theorem onTree_perform {α : Type} (stage : Stage) {work : Action Run α}
    (h : Action.Preserves OnTree work) : Action.Preserves OnTree (perform stage work) := by
  have hobserve : Action.Preserves OnTree (Action.observe work) := h
  refine Action.preserves_bind (onTree_of_keeps (Action.keeps_reading _)) fun _ =>
    Action.preserves_bind hobserve fun outcome => ?_
  cases outcome with
  | ok result =>
    refine onTree_of_keeps (Action.keeps_bind (Action.keeps_modify fun run => ?_) fun _ =>
      Action.keeps_pure _)
    rw [advance_world]
  | error failure =>
    exact onTree_of_keeps (Action.keeps_bind (Action.keeps_modify fun _ => rfl) fun _ =>
      Action.keeps_throw _)

theorem onTree_checkTrigger : Action.Preserves OnTree checkTrigger :=
  onTree_perform _ (onTree_of_keeps (Action.keeps_reading _))

theorem onTree_load : Action.Preserves OnTree load := by
  refine onTree_perform _ (onTree_of_keeps (Action.keeps_bind Action.keeps_get fun run =>
    Action.keeps_bind (Action.keeps_reading _) fun manifest => ?_))
  dsimp only
  cases tagWarning? run.settings manifest with
  | some warning => exact Action.keeps_bind (fun _ => rfl) fun _ => Action.keeps_pure _
  | none => exact Action.keeps_pure _

theorem onTree_transform (m : Manifest) : Action.Preserves OnTree (transform m) :=
  onTree_perform _ (onTree_of_keeps (Action.keeps_bind Action.keeps_get fun _ =>
    Action.keeps_bind (Action.keeps_reading _) fun _ =>
      Action.keeps_bind (fun _ => rfl) fun _ => Action.keeps_pure _))

/-- The stage that stores the manifest leaves a tree. -/
theorem onTree_write (m : Manifest) : Action.Preserves OnTree (write m) :=
  onTree_perform _ (Action.preserves_bind (onTree_of_keeps Action.keeps_get) fun _ =>
    Action.preserves_bind (fun _ hrun => Manifest.grounded_store hrun m _) fun _ =>
      onTree_of_keeps fun _ => rfl)

theorem onTree_publish : Action.Preserves OnTree publish := onTree_of_keeps keeps_files_publish

theorem onTree_runLocal : Action.Preserves OnTree runLocal :=
  Action.preserves_bind onTree_checkTrigger fun _ => Action.preserves_bind onTree_load fun loaded =>
    Action.preserves_bind (onTree_transform loaded) fun changed =>
      Action.preserves_bind (onTree_write changed) fun _ => onTree_of_keeps (Action.keeps_pure _)

theorem onTree_runAll : Action.Preserves OnTree runAll := by
  rw [runAll_eq]
  exact Action.preserves_bind onTree_runLocal fun _ => onTree_publish

end Run

end PackageRelease
