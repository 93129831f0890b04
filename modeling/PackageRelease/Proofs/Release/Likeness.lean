import PackageRelease.Proofs.Release.Requests
import PackageRelease.Proofs.Release.SideBySide

/-! # Releases that stay alike

  A likeness is a relation in which two worlds, or two releases, stay whatever is done in both of
  them. The key idea: a release looks at little, at its files, at the answers it gets and at where
  it stands. So it is enough to say how two states agree in these, and each stage is compared once
  for all relations of this kind.
-/

namespace PackageRelease

/-! ### Worlds -/

/-- Worlds stay related: they have the same files, and a question to the registry meets with the
    same in both. -/
structure World.Likeness (related : World → World → Prop) : Prop extends Action.Steady related where
  /-- The files are the same. -/
  files_eq : ∀ v w, related v w → v.files = w.files
  /-- Questions get the same answers. -/
  lookup : ∀ peer url, Action.Matches related (Registry.exchange peer (Registry.lookupRequest url))
    (Registry.exchange peer (Registry.lookupRequest url))

namespace World.Likeness

variable {related : World → World → Prop} (h : World.Likeness related)

include h

theorem matches_dryRun (target : Target) :
    Action.Matches related (Registry.dryRun target) (Registry.dryRun target) := by
  unfold Registry.dryRun
  refine Action.matches_bind
    (Action.matches_reading fun v w hvw => by rw [h.files_eq v w hvw]) fun parcel => ?_
  exact Action.matches_bind (Action.matches_record h.toSteady _ _) fun _ => Action.matches_pure _

theorem matches_versionExists (target : Target) (name version : String) :
    Action.Matches related (Registry.versionExists target name version)
      (Registry.versionExists target name version) := by
  unfold Registry.versionExists
  refine Action.matches_bind (Action.matches_lift _) fun url =>
    Action.matches_bind (h.lookup _ url) fun answer => ?_
  split
  · exact Action.matches_pure _
  · split
    · exact Action.matches_bind (Action.matches_lift _) fun _ => Action.matches_pure _
    · exact Action.matches_bind (Action.matches_lift _) fun _ => Action.matches_pure _

theorem matches_ensureUnpublished (target : Target) :
    Action.Matches related (Run.ensureUnpublished target) (Run.ensureUnpublished target) := by
  unfold Run.ensureUnpublished
  refine Action.matches_bind
    (Action.matches_reading fun v w hvw => by rw [h.files_eq v w hvw]) fun m => ?_
  split
  · refine Action.matches_bind (h.matches_versionExists _ _ _) fun present => ?_
    cases present with
    | true => exact Action.matches_throw _
    | false => exact Action.matches_pure _
  · exact Action.matches_pure _

section uploads
variable {token other : Token} (hupload : ∀ peer url document, Action.Matches related
  (Registry.exchange peer (Registry.uploadRequest url token document))
  (Registry.exchange peer (Registry.uploadRequest url other document)))
include hupload

/-- Uploads match if their requests meet with the same. -/
theorem matches_publish (target : Target) :
    Action.Matches related (Registry.publish target token) (Registry.publish target other) := by
  unfold Registry.publish
  -- the package and its log entry come of the files, the rest of the answer
  refine Action.matches_bind
    (Action.matches_reading fun v w hvw => by rw [h.files_eq v w hvw]) fun parcel => ?_
  refine Action.matches_bind (Action.matches_record h.toSteady _ _) fun _ => ?_
  refine Action.matches_bind (Action.matches_lift _) fun url => ?_
  refine Action.matches_bind (hupload _ _ _) fun answer => ?_
  refine Action.matches_bind (Action.matches_lift _) fun _ => ?_
  exact Action.matches_bind (Action.matches_record h.toSteady _ _) fun _ => Action.matches_pure _

/-- The question for the version and all attempts at an upload match if the uploads do. -/
theorem matches_send (settings : Settings) (target : Target) :
    Action.Matches related (Run.send settings target token) (Run.send settings target other) := by
  have hretry := Action.matches_retry h.toSteady settings.retryPolicy "Registry publish"
    fun _ => h.matches_publish hupload target
  unfold Run.send
  split
  · exact Action.matches_bind (h.matches_ensureUnpublished target) fun _ => hretry
  · exact hretry

end uploads

end World.Likeness

/-! ### Releases -/

/-- Releases stay related: they stand in the same state, and the stages between reading the manifest
    and publishing find the same settings and the same files in both. -/
structure Run.Likeness (related : Run → Run → Prop) : Prop extends Action.Steady related where
  /-- They stand in the same state. -/
  state_eq : ∀ r s, related r s → r.state = s.state
  /-- The manifest is at the same place. -/
  manifestPath_eq : ∀ r s, related r s → r.settings.manifestPath = s.settings.manifestPath
  /-- The same changes are made to it. -/
  edits_eq : ∀ r s, related r s → r.settings.edits = s.settings.edits
  /-- The files are the same. -/
  files_eq : ∀ r s, related r s → r.world.files = s.world.files
  /-- Both may get the same new files. -/
  store : ∀ files r s, related r s → related { r with world := { r.world with files } }
    { s with world := { s.world with files } }
  /-- Both may move on. -/
  advance : ∀ stage r s, related r s → related (Run.advance stage r) (Run.advance stage s)
  /-- Both may end. -/
  halt : ∀ stage failure r s, related r s →
    related (Run.halt stage failure r) (Run.halt stage failure s)

namespace Run.Likeness

variable {related : Run → Run → Prop} (h : Run.Likeness related) {r s : Run}
include h

/-- Stages agree if their work does. -/
theorem agree_perform {α : Type} {stage : Stage} {work other : Action Run α} (hrs : related r s)
    (hwork : Action.Agree related (work.perform r) (other.perform s)) :
    Action.Agree related ((Run.perform stage work).perform r)
      ((Run.perform stage other).perform s) := by
  have hstate := h.state_eq r s hrs
  by_cases hr : r.state = stage.requires
  · rw [perform_of_eq hr, perform_of_eq (hstate ▸ hr)]
    generalize work.perform r = worked at hwork ⊢
    generalize other.perform s = performed at hwork ⊢
    obtain ⟨outcome, after⟩ := worked
    obtain ⟨_, final⟩ := performed
    obtain ⟨rfl, hafter⟩ := hwork
    cases outcome with
    | ok result => exact ⟨rfl, h.advance stage after final hafter⟩
    | error failure => exact ⟨rfl, h.halt stage failure after final hafter⟩
  · rw [perform_of_ne hr, perform_of_ne (hstate ▸ hr), hstate]
    exact ⟨rfl, hrs⟩

theorem matches_perform {α : Type} {stage : Stage} {work other : Action Run α}
    (hwork : Action.Matches related work other) :
    Action.Matches related (Run.perform stage work) (Run.perform stage other) :=
  fun r s hrs => h.agree_perform hrs (hwork r s hrs)

theorem matches_transform (m : Manifest) :
    Action.Matches related (Run.transform m) (Run.transform m) := by
  refine h.matches_perform (Action.matches_get_bind fun r s hrs => ?_)
  rw [← h.edits_eq r s hrs]
  exact Action.matches_bind (Action.matches_reading fun _ _ _ => rfl) (fun _ =>
    Action.matches_bind (Action.matches_record h.toSteady _ _) fun _ =>
      Action.matches_pure _) r s hrs

theorem matches_write (m : Manifest) : Action.Matches related (Run.write m) (Run.write m) := by
  refine h.matches_perform (Action.matches_get_bind fun r s hrs => ?_)
  rw [← h.manifestPath_eq r s hrs]
  refine Action.matches_bind (fun r s hrs => ?_) (fun _ =>
    Action.matches_record h.toSteady _ _) r s hrs
  -- the same files are changed in the same way
  unfold Run.onWorld
  rw [Action.perform_ofFunction, Action.perform_ofFunction, Action.perform_ofFunction,
    Action.perform_ofFunction, h.files_eq r s hrs]
  exact ⟨rfl, h.store _ r s hrs⟩

end Run.Likeness

end PackageRelease
