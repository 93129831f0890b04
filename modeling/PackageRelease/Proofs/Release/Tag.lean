import Mathlib.Data.Option.Basic
import PackageRelease.Proofs.Release.Checked
import PackageRelease.Proofs.Release.Likeness

/-! # What a tag does

  The tag that started a release lets it through or stops it, and otherwise only makes it say
  something. The key idea: once the manifest is read, nothing looks at the tag any more, and nothing
  ever reads the log. So two releases that differ in the tag, and in what was said about it, do the
  same from there on.
-/

namespace PackageRelease

/-! ### Tags -/

/-- The tag of a release starts with `v`. -/
def IsReleaseTag (tag : String) : Prop := ∃ named, tag = "v" ++ named

theorem toList_releaseTag (named : String) : ("v" ++ named).toList = 'v' :: named.toList := by
  rw [String.toList_append]
  rfl

/-- A text says that a tag names another version than the manifest: the manifest can be read and has
    a text as its version, the rest of the tag is a version, and the text is not this version in all
    its parts, or not a version at all. -/
inductive Dissents (files : FileSystem) (manifestPath : Path) (tag? : Option String) :
    String → Prop where
  /-- Both versions stand in the text. -/
  | intro {m : Manifest} {named version : String} {tagVersion : Version}
      (hload : Manifest.load files manifestPath = .ok m)
      (htag : tag? = some ("v" ++ named)) (hnamed : Version.parse? named = some tagVersion)
      (hversion : m.version? = some version) (hother : Version.parse? version ≠ some tagVersion) :
      Dissents files manifestPath tag?
        ("Tag version " ++ tagVersion.render ++ " differs from manifest version " ++ version)

namespace Settings

variable {s : Settings}

theorem checkTag_of_isReleaseTag {named : String} (h : s.tag? = some ("v" ++ named)) :
    s.checkTag = .ok (Version.parse? named) := by
  unfold checkTag
  rw [h]
  dsimp only
  rw [toList_releaseTag]
  show Except.ok (Version.parse? (String.ofList named.toList)) = _
  rw [String.ofList_toList]

theorem checkTag_of_not {tag : String} (h : s.tag? = some tag) (htag : ¬IsReleaseTag tag) :
    s.checkTag = .error (.usage (.invalidTag tag)) := by
  unfold checkTag
  rw [h]
  dsimp only
  split
  · next rest hlist =>
    refine absurd ⟨String.ofList rest, ?_⟩ htag
    rw [← String.toList_inj, toList_releaseTag, String.toList_ofList, hlist]
  · rfl

/-- Only a tag of a release names a version. -/
theorem checkTag_eq_ok_some_iff {v : Version} : s.checkTag = .ok (some v) ↔
    ∃ named, s.tag? = some ("v" ++ named) ∧ Version.parse? named = some v := by
  constructor
  · intro h
    cases htag : s.tag? with
    | none =>
      unfold checkTag at h
      rw [htag] at h
      cases h
    | some tag =>
      by_cases hrelease : IsReleaseTag tag
      · obtain ⟨named, rfl⟩ := hrelease
        rw [checkTag_of_isReleaseTag htag] at h
        exact ⟨named, rfl, Except.ok.inj h⟩
      · rw [checkTag_of_not htag hrelease] at h
        cases h
  · rintro ⟨named, htag, hnamed⟩
    rw [checkTag_of_isReleaseTag htag, hnamed]

/-- Valid settings with a tag pass the check if the tag does. -/
theorem check_of_isReleaseTag {tag? : Option String} (hvalid : s.validate = .ok ())
    (htag : ∀ tag ∈ tag?, IsReleaseTag tag) : { s with tag? }.check = .ok () := by
  have hvalid : { s with tag? }.validate = .ok () := hvalid
  unfold check
  rw [hvalid]
  cases tag? with
  | none => rfl
  | some tag =>
    obtain ⟨named, rfl⟩ := htag tag rfl
    rw [checkTag_of_isReleaseTag rfl]
    rfl

theorem check_of_not {tag : String} (hvalid : s.validate = .ok ()) (htag : ¬IsReleaseTag tag) :
    { s with tag? := some tag }.check = .error (.usage (.invalidTag tag)) := by
  have hvalid : { s with tag? := some tag }.validate = .ok () := hvalid
  unfold check
  rw [hvalid, checkTag_of_not rfl htag]
  rfl

end Settings

namespace Run

/-! ### What is said about a tag -/

theorem tagWarning?_eq_some_iff {settings : Settings} {m : Manifest} {text : String} :
    tagWarning? settings m = some text ↔ ∃ tagVersion version,
      settings.checkTag = .ok (some tagVersion) ∧ m.version? = some version ∧
        Version.parse? version ≠ some tagVersion ∧
          "Tag version " ++ tagVersion.render ++ " differs from manifest version " ++ version =
            text := by
  have hcheck : ∀ tagVersion, settings.checkTag.toOption.join = some tagVersion ↔
      settings.checkTag = .ok (some tagVersion) := by
    intro tagVersion
    rcases settings.checkTag with failure | _ | named <;> simp [Except.toOption]
  unfold tagWarning?
  simp only [Option.bind_eq_bind, Option.bind_eq_some_iff, hcheck, Option.guard_eq_some',
    exists_const, Option.pure_def, Option.some.injEq]
  constructor
  · rintro ⟨tagVersion, htag, version, hversion, hother, htext⟩
    exact ⟨tagVersion, version, htag, hversion, hother, htext⟩
  · rintro ⟨tagVersion, version, htag, hversion, hother, htext⟩
    exact ⟨tagVersion, htag, version, hversion, hother, htext⟩

/-- The log entries about the tag when the manifest is read. -/
def tagEntries (settings : Settings) (files : FileSystem) : List LogEntry :=
  match Manifest.load files settings.manifestPath with
  | .ok m => ((tagWarning? settings m).map (LogEntry.mk .warn)).toList
  | .error _ => []

theorem tagEntries_of_dissents (settings : Settings) {files : FileSystem} {text : String}
    (h : Dissents files settings.manifestPath settings.tag? text) :
    tagEntries settings files = [⟨.warn, text⟩] := by
  obtain ⟨hload, htag, hnamed, hversion, hother⟩ := h
  have hwarning := tagWarning?_eq_some_iff.mpr
    ⟨_, _, Settings.checkTag_eq_ok_some_iff.mpr ⟨_, htag, hnamed⟩, hversion, hother, rfl⟩
  unfold tagEntries
  rw [hload]
  dsimp only
  rw [hwarning]
  rfl

theorem tagEntries_of_not (settings : Settings) {files : FileSystem}
    (h : ∀ text, ¬Dissents files settings.manifestPath settings.tag? text) :
    tagEntries settings files = [] := by
  unfold tagEntries
  split
  · next m hload =>
    cases hwarning : tagWarning? settings m with
    | none => rfl
    | some text =>
      obtain ⟨tagVersion, version, hcheck, hversion, hother, rfl⟩ :=
        tagWarning?_eq_some_iff.mp hwarning
      obtain ⟨named, htag, hnamed⟩ := Settings.checkTag_eq_ok_some_iff.mp hcheck
      exact absurd (.intro hload htag hnamed hversion hother) (h _)
  · rfl

/-- A release that has said what there is to say about its tag. -/
def told (run : Run) : Run :=
  { run with world := { run.world with
      log := run.world.log ++ tagEntries run.settings run.world.files } }

/-- To load is to read the manifest, and to say something about the tag. -/
theorem perform_load {run : Run} (h : run.state = .idle) : load.perform run =
    match Manifest.load run.world.files run.settings.manifestPath with
    | .ok m => (.ok m, advance .load run.told)
    | .error failure => (.error (failure.atStage .load), halt .load failure run.told) := by
  unfold load
  rw [perform_of_eq h, Action.perform_bind, Action.perform_get]
  dsimp only
  rw [Action.perform_bind, Action.perform_reading]
  unfold told tagEntries
  cases Manifest.load run.world.files run.settings.manifestPath with
  | error failure =>
    dsimp only
    rw [List.append_nil]
  | ok m =>
    dsimp only
    cases tagWarning? run.settings m with
    | none =>
      rw [Option.map_none, Option.toList_none, List.append_nil]
      rfl
    | some warning => rfl

end Run

/-! ### Worlds whose logs begin differently -/

/-- Worlds that differ in the beginnings of their logs only. -/
def World.Alike (front other : List LogEntry) (v w : World) : Prop :=
  ∃ rest, v.log = front ++ rest ∧ w = { v with log := other ++ rest }

section worlds
variable {front other : List LogEntry}

theorem World.steady_alike (front other : List LogEntry) : Action.Steady (Alike front other) where
  record entry v w h := by
    obtain ⟨rest, hlog, rfl⟩ := h
    refine ⟨rest ++ [entry], ?_, ?_⟩
    · show v.log ++ [entry] = _
      rw [hlog, List.append_assoc]
    · simp only [Chronicle.record, List.append_assoc]
  wait time v w h := by
    obtain ⟨rest, hlog, rfl⟩ := h
    exact ⟨rest, hlog, rfl⟩
  panic v w h := by
    obtain ⟨rest, hlog, rfl⟩ := h
    exact ⟨rest, hlog, rfl⟩

/-- A request does not depend on the log. -/
theorem Registry.matches_exchange_of_alike (peer : String) (request : Request) :
    Action.Matches (World.Alike front other) (exchange peer request) (exchange peer request) := by
  unfold exchange
  cases unsendable? request with
  | some reason => exact Action.matches_throw _
  | none =>
    refine Action.matches_bind (fun v w h => ?_) fun answer? => ?_
    · obtain ⟨rest, hlog, rfl⟩ := h
      exact ⟨rfl, rest, hlog, rfl⟩
    · cases answer? with
      | some answer => exact Action.matches_pure answer
      | none => exact Action.matches_throw _

theorem World.likeness_alike (front other : List LogEntry) :
    World.Likeness (Alike front other) where
  toSteady := steady_alike front other
  files_eq v w h := by
    obtain ⟨rest, -, rfl⟩ := h
    rfl
  lookup peer url := Registry.matches_exchange_of_alike peer _

theorem Run.matches_upload_of_alike (settings : Settings) (token? : Option Token) :
    Action.Matches (World.Alike front other) (upload settings token?) (upload settings token?) := by
  have hlike := World.likeness_alike front other
  unfold upload
  refine Action.matches_bind (Action.matches_lift _) fun target => ?_
  split
  · exact hlike.matches_dryRun target
  · have hsend (token : Token) : Action.Matches (World.Alike front other)
        (send settings target token) (send settings target token) :=
      hlike.matches_send (fun peer _ _ => Registry.matches_exchange_of_alike peer _) settings target
    cases token? with
    | some token => exact hsend token
    | none =>
      refine Action.matches_bind (Action.matches_reading fun v w h => ?_) hsend
      obtain ⟨rest, -, rfl⟩ := h
      rfl

end worlds

/-! ### Releases that differ in the tag -/

namespace Run

/-- Releases that differ in the tag, which is a given one in the second, and in the beginnings of
    their logs only. -/
def Alike (tag? : Option String) (front other : List LogEntry) (r s : Run) : Prop :=
  ∃ world, World.Alike front other r.world world ∧
    s = { r with settings := { r.settings with tag? }, world }

variable {tag? : Option String} {front other : List LogEntry}

theorem likeness_alike (tag? : Option String) (front other : List LogEntry) :
    Likeness (Alike tag? front other) where
  record entry r s h := by
    obtain ⟨world, hworld, rfl⟩ := h
    exact ⟨_, (World.steady_alike front other).record entry _ _ hworld, rfl⟩
  wait time r s h := by
    obtain ⟨world, hworld, rfl⟩ := h
    exact ⟨_, (World.steady_alike front other).wait time _ _ hworld, rfl⟩
  panic r s h := by
    obtain ⟨world, hworld, rfl⟩ := h
    exact ⟨_, (World.steady_alike front other).panic _ _ hworld, rfl⟩
  state_eq r s h := by
    obtain ⟨world, -, rfl⟩ := h
    rfl
  manifestPath_eq r s h := by
    obtain ⟨world, -, rfl⟩ := h
    rfl
  edits_eq r s h := by
    obtain ⟨world, -, rfl⟩ := h
    rfl
  files_eq r s h := by
    obtain ⟨world, ⟨rest, -, rfl⟩, rfl⟩ := h
    rfl
  store files r s h := by
    obtain ⟨world, ⟨rest, hlog, rfl⟩, rfl⟩ := h
    exact ⟨_, ⟨rest, hlog, rfl⟩, rfl⟩
  advance stage r s h := by
    obtain ⟨world, hworld, rfl⟩ := h
    unfold advance
    split
    · exact ⟨world, hworld, rfl⟩
    · exact ⟨world, hworld, rfl⟩
  halt stage failure r s h := by
    obtain ⟨world, hworld, rfl⟩ := h
    exact ⟨_, (World.steady_alike front other).record _ _ _ hworld, rfl⟩

theorem matches_publish_of_alike :
    Action.Matches (Alike tag? front other) publish publish := by
  refine (likeness_alike tag? front other).matches_perform fun r s h => ?_
  rw [perform_publish_work, perform_publish_work]
  obtain ⟨world, hworld, rfl⟩ := h
  -- an upload does not look at the tag
  obtain ⟨houtcome, hafter⟩ := matches_upload_of_alike r.settings r.token? r.world world hworld
  exact ⟨houtcome, _, hafter, rfl⟩

variable {settings : Settings} {token? : Option Token} {world : World}

/-- With the manifest read, the releases differ in what was said about the tag. -/
theorem agree_load (tag? : Option String) :
    Action.Agree (Alike tag? world.log (world.log ++ tagEntries { settings with tag? } world.files))
      (load.perform (start { settings with tag? := none } token? world))
      (load.perform (start { settings with tag? } token? world)) := by
  have hlike := likeness_alike tag? world.log
    (world.log ++ tagEntries { settings with tag? } world.files)
  -- without a tag there is nothing to say
  have hnone : tagEntries { settings with tag? := none } world.files = [] := by
    refine tagEntries_of_not _ fun text h => ?_
    obtain ⟨-, htag, -⟩ := h
    cases htag
  have htold : Alike tag? world.log (world.log ++ tagEntries { settings with tag? } world.files)
      (start { settings with tag? := none } token? world).told
      (start { settings with tag? } token? world).told := by
    refine ⟨_, ⟨[], congrArg (world.log ++ ·) hnone, rfl⟩, ?_⟩
    rw [List.append_nil]
    rfl
  -- the manifest is the same, whatever the tag
  have hload : ∀ named? : Option String,
      load.perform (start { settings with tag? := named? } token? world) =
        match Manifest.load world.files settings.manifestPath with
        | .ok m => (.ok m, advance .load (start { settings with tag? := named? } token? world).told)
        | .error failure => (.error (failure.atStage .load),
            halt .load failure (start { settings with tag? := named? } token? world).told) :=
    fun named? => perform_load rfl
  rw [hload, hload]
  cases Manifest.load world.files settings.manifestPath with
  | ok m => exact ⟨rfl, hlike.advance .load _ _ htold⟩
  | error failure => exact ⟨rfl, hlike.halt .load failure _ _ htold⟩

/-- What follows the manifest in a call that runs through several stages. -/
theorem exists_tail {call : Call} (hcall : call = .runLocal ∨ call = .runAll) :
    ∃ tail : Manifest → Action Run Response,
      (call.action = do
        checkTrigger
        tail (← load)) ∧
      ∀ m tag? front other, Action.Matches (Alike tag? front other) (tail m) (tail m) := by
  have hlike := likeness_alike
  rcases hcall with rfl | rfl
  · refine ⟨fun loaded => do
      let changed ← transform loaded
      write changed
      return .manifest changed, ?_, fun m tag? front other => ?_⟩
    · unfold Call.action runLocal
      simp only [bind_assoc, pure_bind]
    · exact Action.matches_bind ((hlike _ _ _).matches_transform m) fun changed =>
        Action.matches_bind ((hlike _ _ _).matches_write changed) fun _ => Action.matches_pure _
  · refine ⟨fun loaded => do
      let changed ← transform loaded
      write changed
      return .receipt (← publish), ?_, fun m tag? front other => ?_⟩
    · rw [Call.action_runAll]
      unfold runLocal
      simp only [bind_assoc, pure_bind]
    · exact Action.matches_bind ((hlike _ _ _).matches_transform m) fun changed =>
        Action.matches_bind ((hlike _ _ _).matches_write changed) fun _ =>
          Action.matches_bind matches_publish_of_alike fun _ => Action.matches_pure _

/-! ### The whole release -/

/-- A tag of a release, or none, lets a release with valid settings through, and one like the other:
    it comes to the same and leaves the same, whatever the files hold and the registry answers. Only
    the log has one more entry if the tag dissents from the manifest. Any other tag stops the
    release before anything is read, changed or sent. -/
theorem gate_of_tag (settings : Settings) (token? : Option Token) (world : World) {call : Call}
    (hcall : call = .runLocal ∨ call = .runAll) (hvalid : settings.validate = .ok ()) :
    let run (tag? : Option String) := start { settings with tag? } token? world
    let plain := call.action.perform (run none)
    (∃ rest, plain.2.world.log = world.log ++ rest ∧
      ∀ tag? : Option String, (∀ tag ∈ tag?, IsReleaseTag tag) → ∃ warnings,
        (∀ text, Dissents world.files settings.manifestPath tag? text → warnings = [⟨.warn, text⟩]) ∧
        ((∀ text, ¬Dissents world.files settings.manifestPath tag? text) → warnings = []) ∧
        call.action.perform (run tag?) = (plain.1, { plain.2 with
          settings := { plain.2.settings with tag? }
          world := { plain.2.world with log := world.log ++ warnings ++ rest } })) ∧
    ∀ tag, ¬IsReleaseTag tag → call.action.perform (run (some tag)) =
      (.error (.inStage .trigger (.usage (.invalidTag tag))), { run (some tag) with
        state := .failed
        history := [.idle, .failed]
        failedStage? := some .trigger
        world := { world with
          log := world.log ++ [failureEntry .trigger (.usage (.invalidTag tag))] } }) := by
  intro run plain
  obtain ⟨tail, haction, htail⟩ := exists_tail hcall
  have hagree : ∀ tag? : Option String, (∀ tag ∈ tag?, IsReleaseTag tag) →
      Action.Agree
        (Alike tag? world.log (world.log ++ tagEntries { settings with tag? } world.files))
        plain (call.action.perform (run tag?)) := by
    intro tag? htag
    have hchecked : ∀ other? : Option String, (∀ tag ∈ other?, IsReleaseTag tag) →
        call.action.perform (run other?) = (load >>= tail).perform (run other?) := by
      intro other? hother
      have hcheck : (run other?).settings.check = .ok () :=
        Settings.check_of_isReleaseTag hvalid hother
      rw [haction, Action.perform_bind, perform_checkTrigger rfl, hcheck]
    show Action.Agree _ (call.action.perform (run none)) _
    rw [hchecked none nofun, hchecked tag? htag]
    exact (agree_load tag?).bind fun m => htail m _ _ _
  refine ⟨?_, fun tag htag => ?_⟩
  · -- what is behind the beginning of the log is the same for all tags
    obtain ⟨-, _, ⟨rest, hlog, -⟩, -⟩ := hagree none nofun
    refine ⟨rest, hlog, fun tag? htag => ⟨tagEntries { settings with tag? } world.files,
      fun text => tagEntries_of_dissents { settings with tag? },
      tagEntries_of_not { settings with tag? }, ?_⟩⟩
    obtain ⟨houtcome, _, ⟨more, hmore, rfl⟩, hfinal⟩ := hagree tag? htag
    obtain rfl : rest = more := List.append_cancel_left (hlog.symm.trans hmore)
    exact Prod.ext houtcome.symm hfinal
  · have hcheck : (run (some tag)).settings.check = .error (.usage (.invalidTag tag)) :=
      Settings.check_of_not hvalid htag
    rw [haction, Action.perform_bind, perform_checkTrigger rfl, hcheck]
    rfl

/-- A tag with build metadata names another version than a manifest without it. -/
theorem dissents_of_taggedRelease :
    Dissents (taggedRelease "v1.0.0+b").world.files (taggedRelease "v1.0.0+b").settings.manifestPath
      (some "v1.0.0+b") "Tag version 1.0.0+b differs from manifest version 1.0.0" := by
  have hload : Manifest.load (taggedRelease "v1.0.0+b").world.files
      (taggedRelease "v1.0.0+b").settings.manifestPath =
        .ok ⟨[("name", .string "a"), ("version", .string "1.0.0")]⟩ := by
    decide +kernel
  have hnamed : Version.parse? "1.0.0+b" = some ⟨1, 0, 0, "", "b"⟩ := by decide +kernel
  have hversion : Version.parse? "1.0.0" ≠ some ⟨1, 0, 0, "", "b"⟩ := by decide +kernel
  have htext : "Tag version " ++ Version.render ⟨1, 0, 0, "", "b"⟩ ++
      " differs from manifest version " ++ "1.0.0" =
        "Tag version 1.0.0+b differs from manifest version 1.0.0" := by
    decide +kernel
  rw [← htext]
  exact .intro hload rfl hnamed rfl hversion

theorem gate_of_taggedRelease :
    let settings := { (taggedRelease "v1.0.0+b").settings with tag? := none }
    let plain := (Call.action .runAll).perform
      (start settings (some ⟨"t"⟩) (taggedRelease "v1.0.0+b").world)
    settings.validate = .ok () ∧ ¬IsReleaseTag "nightly" ∧
    (Call.action .runAll).perform (taggedRelease "v1.0.0+b") = (plain.1, { plain.2 with
      settings := { plain.2.settings with tag? := some "v1.0.0+b" }
      world := { plain.2.world with
        log := ⟨.warn, "Tag version 1.0.0+b differs from manifest version 1.0.0"⟩ ::
          plain.2.world.log } }) ∧
    (Call.action .runAll).perform (taggedRelease "nightly") =
      (.error (.inStage .trigger (.usage (.invalidTag "nightly"))), { taggedRelease "nightly" with
        state := .failed
        history := [.idle, .failed]
        failedStage? := some .trigger
        world := { (taggedRelease "nightly").world with
          log := [⟨.error, "trigger stage failed: CLI error: Tag 'nightly' does not match the " ++
            "release pattern 'v*'"⟩] } }) := by
  intro settings plain
  have hvalid : settings.validate = .ok () := by decide +kernel
  have hnightly : ¬IsReleaseTag "nightly" := by
    rintro ⟨named, h⟩
    have hlist := congrArg String.toList h
    rw [toList_releaseTag] at hlist
    cases hlist
  obtain ⟨⟨rest, hlog, hpass⟩, hstop⟩ := gate_of_tag settings (some ⟨"t"⟩)
    (taggedRelease "v1.0.0+b").world (.inr rfl) hvalid
  obtain ⟨warnings, hwarn, -, hrun⟩ := hpass (some "v1.0.0+b")
    (by rintro tag ⟨⟩; exact ⟨"1.0.0+b", by decide⟩)
  have hrest : rest = plain.2.world.log := hlog.symm
  rw [hwarn _ dissents_of_taggedRelease, hrest] at hrun
  refine ⟨hvalid, hnightly, hrun, (hstop "nightly" hnightly).trans ?_⟩
  have hentry : failureEntry .trigger (.usage (.invalidTag "nightly")) =
      ⟨.error, "trigger stage failed: CLI error: Tag 'nightly' does not match the " ++
        "release pattern 'v*'"⟩ := by
    decide +kernel
  rw [hentry]
  rfl

end Run

end PackageRelease
