import PackageRelease.Proofs.Release.Perform
import PackageRelease.Release.Run

/-! # Failures before a stage is named

  Nothing that a stage does names a stage: checking settings, reading and changing a manifest,
  choosing files, packing them, and talking to the registry all fail with a plain cause. The stage
  is therefore named once, by the run itself.
-/

namespace PackageRelease

/-! ### Settings -/

/-- The check of the settings passes only if each of its conditions holds; else it names an
    option. -/
theorem Settings.validate_cases (s : Settings) :
    (s.validate = .ok () ∧ Text.isBlankText s.tokenVariable = false ∧
      Text.isBlankText s.distTag = false ∧ (Version.parse? s.distTag).isSome = false ∧
      (s.rename?.any fun rule => rule.source.isEmpty || rule.target.isEmpty) = false ∧
      s.networkRetries ≤ Settings.maxNetworkRetries) ∨
    ∃ reason, s.validate = .error (.usage (.invalidArguments reason)) := by
  unfold Settings.validate
  by_cases htoken : Text.isBlankText s.tokenVariable = true
  · rw [if_pos htoken]
    exact .inr ⟨_, rfl⟩
  by_cases htag : Text.isBlankText s.distTag = true
  · rw [if_neg htoken, if_pos htag]
    exact .inr ⟨_, rfl⟩
  by_cases hversion : (Version.parse? s.distTag).isSome = true
  · rw [if_neg htoken, if_neg htag, if_pos hversion]
    exact .inr ⟨_, rfl⟩
  by_cases hrename : (s.rename?.any fun rule => rule.source.isEmpty || rule.target.isEmpty) = true
  · rw [if_neg htoken, if_neg htag, if_neg hversion, if_pos hrename]
    exact .inr ⟨_, rfl⟩
  by_cases hretries : Settings.maxNetworkRetries < s.networkRetries
  · rw [if_neg htoken, if_neg htag, if_neg hversion, if_neg hrename, if_pos hretries]
    exact .inr ⟨_, rfl⟩
  · rw [if_neg htoken, if_neg htag, if_neg hversion, if_neg hrename, if_neg hretries]
    refine .inl ⟨rfl, ?_, ?_, ?_, ?_, UInt32.not_lt.mp hretries⟩
    · simpa using htoken
    · simpa using htag
    · simpa using hversion
    · simpa using hrename

theorem bareOutcome_validate (s : Settings) : BareOutcome s.validate := by
  rcases s.validate_cases with ⟨h, -⟩ | ⟨reason, h⟩
  · exact h ▸ bareOutcome_ok ()
  · exact h ▸ bareOutcome_error rfl

theorem bareOutcome_checkTag (s : Settings) : BareOutcome s.checkTag := by
  unfold Settings.checkTag
  split
  · exact bareOutcome_ok none
  · split
    · exact bareOutcome_ok _
    · exact bareOutcome_error rfl

theorem bareOutcome_target (s : Settings) : BareOutcome s.target := by
  refine bareOutcome_bind ?_ fun _ => bareOutcome_ok _
  unfold Target.ofRegistry
  split
  · rename_i fault _
    cases fault <;> exact bareOutcome_error rfl
  · exact bareOutcome_ok _

theorem bareOutcome_ofEnvironment (environment : Environment) (name : String) :
    BareOutcome (Token.ofEnvironment environment name) := by
  unfold Token.ofEnvironment
  split
  · exact bareOutcome_error rfl
  · split
    · exact bareOutcome_error rfl
    · unfold Token.ofText
      dsimp only
      split
      · exact bareOutcome_error rfl
      · exact bareOutcome_ok _

/-! ### Manifests -/

theorem localOutcome_load (fs : FileSystem) (path : Path) :
    LocalOutcome (Manifest.load fs path) := by
  unfold Manifest.load
  split
  · unfold Manifest.parse
    split
    · exact localOutcome_error (.manifest _)
    · exact localOutcome_ok _
    · exact localOutcome_error (.manifest _)
  · exact localOutcome_error (.manifest _)

theorem bareOutcome_load (fs : FileSystem) (path : Path) : BareOutcome (Manifest.load fs path) :=
  (localOutcome_load fs path).bare

theorem bareOutcome_apply (edit : Edit) (m : Manifest) : BareOutcome (edit.apply m) := by
  intro failure h
  unfold Edit.apply at h
  repeat' split at h
  all_goals cases h
  all_goals rfl

theorem bareOutcome_applyAll (edits : List Edit) (m : Manifest) :
    BareOutcome (Edit.applyAll edits m) := by
  induction edits generalizing m with
  | nil => exact bareOutcome_ok m
  | cons edit rest ih => exact bareOutcome_bind (bareOutcome_apply edit m) fun changed => ih changed

theorem bareOutcome_store (m : Manifest) (fs : FileSystem) (path : Path) :
    BareOutcome (m.store fs path).1 := by
  unfold Manifest.store
  dsimp only
  split
  · exact bareOutcome_ok ()
  · exact bareOutcome_error rfl

/-! ### Packing -/

theorem localOutcome_resolve (fs : FileSystem) (directory : Path) (entry : String) :
    LocalOutcome (Selection.resolve fs directory entry) := by
  unfold Selection.resolve
  dsimp only
  split
  · exact localOutcome_ok _
  · split
    · split
      · exact localOutcome_ok _
      · exact localOutcome_error (.validation _)
    · exact localOutcome_ok _

theorem localOutcome_listed (fs : FileSystem) (directory : Path) (entries : List String)
    (set : List Path.Components) : LocalOutcome (Selection.listed fs directory entries set) := by
  induction entries generalizing set with
  | nil => exact localOutcome_ok set
  | cons entry rest ih =>
    refine localOutcome_bind (localOutcome_resolve fs directory entry) fun paths => ?_
    dsimp only
    split
    · exact localOutcome_error (.validation _)
    · exact ih _

theorem localOutcome_files (fs : FileSystem) (directory : Path) (m : Manifest) :
    LocalOutcome (Selection.files fs directory m) := by
  have hentries : LocalOutcome (Selection.entries m) := by
    unfold Selection.entries
    split
    · exact localOutcome_ok _
    · exact localOutcome_error (.validation _)
    · exact localOutcome_ok _
  refine localOutcome_bind hentries fun entries =>
    localOutcome_bind (localOutcome_listed fs directory entries []) fun set => ?_
  dsimp only
  split
  · exact localOutcome_error (.io _)
  · exact localOutcome_ok _

theorem localOutcome_addFiles (fs : FileSystem) (directory : Path) (files : List Path.Components) :
    LocalOutcome (Tarball.addFiles fs directory files) := by
  induction files with
  | nil => exact localOutcome_ok _
  | cons file rest ih =>
    unfold Tarball.addFiles
    split
    · refine localOutcome_bind (localOutcome_ok _) fun content => ?_
      dsimp only
      split
      · exact localOutcome_bind (localOutcome_ok _) fun first =>
          localOutcome_bind ih fun _ => localOutcome_ok _
      · exact localOutcome_error (.io _)
    · exact localOutcome_error (.io _)

theorem localOutcome_pack (fs : FileSystem) (directory : Path) (m : Manifest) :
    LocalOutcome (Tarball.pack fs directory m) := by
  unfold Tarball.pack
  split
  · split
    · exact localOutcome_bind (localOutcome_files fs directory m) fun files =>
        localOutcome_bind (localOutcome_addFiles fs directory files) fun _ => localOutcome_ok _
    · exact localOutcome_error (.validation _)
  · exact localOutcome_error (.validation _)

theorem localOutcome_identity (m : Manifest) : LocalOutcome (Registry.identity m) := by
  unfold Registry.identity
  repeat' split
  · exact localOutcome_ok _
  all_goals exact localOutcome_error (.validation _)

/-- Whatever keeps a package from being made ready is about files. -/
theorem localOutcome_prepare (fs : FileSystem) (target : Target) :
    LocalOutcome (Registry.prepare fs target) :=
  localOutcome_bind (localOutcome_load fs target.manifestPath) fun manifest =>
    localOutcome_bind (localOutcome_pack fs target.artifactDirectory manifest) fun _ =>
      localOutcome_bind (localOutcome_identity manifest) fun _ => localOutcome_ok _

theorem bareOutcome_prepare (fs : FileSystem) (target : Target) :
    BareOutcome (Registry.prepare fs target) :=
  (localOutcome_prepare fs target).bare

/-! ### The registry -/

theorem bareOutcome_addressOf (peer text : String) :
    BareOutcome (Registry.addressOf peer text) := by
  unfold Registry.addressOf
  split
  · exact bareOutcome_ok _
  · exact bareOutcome_error rfl

theorem bareOutcome_ofAnswer (status : Status) (body name version : String) :
    BareOutcome (Verdict.ofAnswer status body name version) := by
  intro failure h
  unfold Verdict.ofAnswer at h
  dsimp only at h
  repeat' split at h
  all_goals cases h
  all_goals rfl

theorem bareOutcome_documentOf (address : String) (answer : Answer) :
    BareOutcome (Registry.documentOf address answer) := by
  unfold Registry.documentOf
  split
  · exact bareOutcome_ok _
  · exact bareOutcome_error rfl

namespace Action

theorem bare_exchange (peer : String) (request : Request) :
    Bare (Registry.exchange peer request) := by
  unfold Registry.exchange
  dsimp only
  split
  · exact bare_throw rfl
  · refine bare_bind (fun _ => bareOutcome_ok _) fun answer? => ?_
    cases answer? with
    | some answer => exact bare_pure answer
    | none => exact bare_throw rfl

theorem bare_versionExists (target : Target) (name version : String) :
    Bare (Registry.versionExists target name version) := by
  unfold Registry.versionExists
  refine bare_bind (bare_lift (bareOutcome_addressOf _ _)) fun url =>
    bare_bind (bare_exchange _ _) fun answer => ?_
  split
  · exact bare_pure _
  · split
    · exact bare_bind (bare_lift (bareOutcome_documentOf _ _)) fun _ => bare_pure _
    · exact bare_bind (bare_lift (bareOutcome_ofAnswer _ _ _ _)) fun _ => bare_pure _

theorem bare_publish (target : Target) (token : Token) : Bare (Registry.publish target token) :=
  bare_bind (bare_reading fun world => bareOutcome_prepare world.files target) fun _ =>
    bare_bind (bare_modify _) fun _ => bare_bind (bare_lift (bareOutcome_addressOf _ _)) fun _ =>
      bare_bind (bare_exchange _ _) fun _ => bare_bind (bare_lift (bareOutcome_ofAnswer _ _ _ _))
        fun _ => bare_bind (bare_modify _) fun _ => bare_pure _

theorem bare_dryRun (target : Target) : Bare (Registry.dryRun target) :=
  bare_bind (bare_reading fun world => bareOutcome_prepare world.files target) fun _ =>
    bare_bind (bare_modify _) fun _ => bare_pure _

theorem bare_ensureUnpublished (target : Target) : Bare (Run.ensureUnpublished target) := by
  refine bare_bind (bare_reading fun world => bareOutcome_load _ _) fun m => ?_
  split
  · refine bare_bind (bare_versionExists _ _ _) fun present => ?_
    split
    · exact bare_throw rfl
    · exact bare_pure _
  · exact bare_pure ()

theorem bare_upload (settings : Settings) (token? : Option Token) :
    Bare (Run.upload settings token?) := by
  refine bare_bind (bare_lift (bareOutcome_target settings)) fun target => ?_
  dsimp only
  split
  · exact bare_dryRun target
  · have hsend : ∀ token, Bare (retry settings.retryPolicy "Registry publish" fun _ =>
        Registry.publish target token) :=
      fun token => bare_retry _ _ fun _ => bare_publish target token
    have hrest : ∀ token, Bare (if settings.checkExisting = true then do
          Run.ensureUnpublished target
          retry settings.retryPolicy "Registry publish" fun _ => Registry.publish target token
        else retry settings.retryPolicy "Registry publish" fun _ =>
          Registry.publish target token) := by
      intro token
      split
      · exact bare_bind (bare_ensureUnpublished target) fun _ => hsend token
      · exact hsend token
    cases token? with
    | some token => exact hrest token
    | none =>
      exact bare_bind (bare_reading fun world => bareOutcome_ofEnvironment _ _) fun token =>
        hrest token

end Action

end PackageRelease
