import PackageRelease.CommandLine.Execution
import PackageRelease.Proofs.FileSystem.Moving
import PackageRelease.Proofs.Package.Contents
import PackageRelease.Proofs.Release.Perform

/-! # The pack command

  The pack command stores the package of a directory. The key idea: the directory and the manifest
  come from the path options and the settings file alone, so a pack command with the path options of
  another command is for the same package.
-/

namespace PackageRelease

variable {arguments : Arguments} {out? : Option Path} {settings : Settings} {world : World}

/-! ### Path options -/

theorem Settings.paths_of_withEdits {edits : EditOptions} {edited : Settings}
    (h : settings.withEdits edits = .ok edited) :
    edited.artifactDirectory = settings.artifactDirectory ∧
      edited.manifestPath? = settings.manifestPath? := by
  unfold withEdits at h
  split at h
  · cases h
    exact ⟨rfl, rfl⟩
  · cases h
    exact ⟨rfl, rfl⟩
  · cases h

/-- The options for changing the manifest and for an upload leave the paths alone. -/
theorem Arguments.paths_of_layer {environment : Environment} {file : FileSettings}
    (h : arguments.layer environment file = .ok settings) :
    settings.artifactDirectory =
        arguments.artifactDirectory?.getD (below environment file).artifactDirectory ∧
      settings.manifestPath? = arguments.manifestPath?.or (below environment file).manifestPath? := by
  unfold layer at h
  cases hedits : arguments.edits? with
  | none =>
    rw [hedits] at h
    cases h
    cases arguments.upload? <;> exact ⟨rfl, rfl⟩
  | some edits =>
    rw [hedits] at h
    obtain ⟨edited, hedited, h⟩ := bind_eq_ok.mp h
    obtain ⟨hdirectory, hpath⟩ := Settings.paths_of_withEdits hedited
    cases h
    cases arguments.upload? <;> exact ⟨hdirectory, hpath⟩

/-- Whether a pack command is for the directory and the manifest of given settings. -/
def Arguments.PacksFor (arguments : Arguments) (out? : Option Path) (world : World)
    (settings : Settings) : Prop :=
  arguments.command = .pack out? ∧ ∃ own,
    arguments.settings world.files world.environment = .ok own ∧
      own.artifactDirectory = settings.artifactDirectory ∧ own.manifestPath = settings.manifestPath

/-- A pack command with the path options of another command is for its directory and manifest, if
    the settings file says the same to both. -/
theorem Arguments.packsFor_of_options {other : Arguments} {files : FileSystem}
    {environment : Environment} (hcommand : arguments.command = .pack out?)
    (hdirectory : arguments.artifactDirectory? = other.artifactDirectory?)
    (hmanifest : arguments.manifestPath? = other.manifestPath?)
    (hfile : arguments.readFile world.files = other.readFile files)
    (hsettings : other.settings files environment = .ok settings) :
    arguments.PacksFor out? world settings := by
  obtain ⟨file, hread, hlayer⟩ := bind_eq_ok.mp hsettings
  obtain ⟨hother, hpath⟩ := paths_of_layer hlayer
  have hedits : arguments.edits? = none := by
    unfold edits?
    rw [hcommand]
  obtain ⟨own, hown⟩ : ∃ own, arguments.layer world.environment file = .ok own := by
    unfold layer
    rw [hedits]
    exact ⟨_, rfl⟩
  obtain ⟨howned, hownPath⟩ := paths_of_layer hown
  have hsame : own.artifactDirectory = settings.artifactDirectory := by
    rw [howned, hother, hdirectory]
    rfl
  refine ⟨hcommand, own, bind_eq_ok.mpr ⟨file, hfile.trans hread, hown⟩, hsame, ?_⟩
  unfold Settings.manifestPath
  rw [hsame, hownPath, hpath, hmanifest]
  rfl

/-! ### Packing -/

/-- The arguments of a pack command fit together if they name a directory that can be packed. -/
theorem Arguments.validate_of_pack (hcommand : arguments.command = .pack out?)
    (hsettings : arguments.settings world.files world.environment = .ok settings)
    (hdirectory : settings.artifactDirectory.text ≠ "") : arguments.validate = .ok () := by
  obtain ⟨file, -, hlayer⟩ := bind_eq_ok.mp hsettings
  have hnamed : arguments.artifactDirectory?.any (·.text.isEmpty) = false := by
    rw [(paths_of_layer hlayer).1] at hdirectory
    cases hdir : arguments.artifactDirectory? with
    | none => rfl
    | some directory =>
      rw [hdir] at hdirectory
      simpa using hdirectory
  have hupload : arguments.upload? = none := by
    unfold upload?
    rw [hcommand]
  unfold validate
  rw [hnamed, hupload]
  rfl

/-- The pack command stores the package of the directory with the stored manifest. -/
theorem Arguments.execute_pack {m : Manifest} {t : Tarball} {files : FileSystem}
    (hcommand : arguments.command = .pack out?)
    (hsettings : arguments.settings world.files world.environment = .ok settings)
    (hload : Manifest.load world.files settings.manifestPath = .ok m)
    (hpack : Tarball.pack world.files settings.artifactDirectory m = .ok t)
    (hwrite : world.files.writeFile (out?.getD ⟨t.fileName⟩) t.bytes = .ok files) :
    (arguments.execute world).exitCode = 0 ∧ (arguments.execute world).world.files = files := by
  have hperform : (executeCommand arguments).perform ⟨world, []⟩ =
      (.ok (), ⟨{ world with files }, packNotices (out?.getD ⟨t.fileName⟩) t⟩) := by
    have hreading : (Action.reading fun world : World => do
        let m ← Manifest.load world.files settings.manifestPath
        Tarball.pack world.files settings.artifactDirectory m).perform world = (.ok t, world) := by
      rw [Action.perform_reading, hload]
      exact congrArg (·, world) hpack
    have hstore : (storeBytes (out?.getD ⟨t.fileName⟩) t.bytes).perform world =
        (.ok (), { world with files }) := by
      unfold storeBytes
      rw [Action.perform_ofFunction, hwrite]
    unfold executeCommand
    rw [hcommand]
    dsimp only
    unfold executePack Session.settings Session.onWorld
    rw [Action.perform_bind, Action.perform_reading, hsettings]
    dsimp only
    rw [Action.perform_bind, Action.perform_ofFunction, hreading]
    dsimp only
    rw [Action.perform_bind, Action.perform_ofFunction, hstore]
    rfl
  obtain ⟨_, _, _, hselection, -⟩ := Tarball.exists_of_pack hpack
  unfold execute
  rw [validate_of_pack hcommand hsettings (Tarball.text_ne_empty_of_files hselection)]
  dsimp only
  rw [hperform]
  exact ⟨rfl, rfl⟩

/-- What the pack command has stored for given settings can be read. -/
theorem Arguments.execute_of_packsFor {m : Manifest} {t : Tarball} {files : FileSystem}
    (hfiles : world.files.Grounded) (h : arguments.PacksFor out? world settings)
    (hload : Manifest.load world.files settings.manifestPath = .ok m)
    (hpack : Tarball.pack world.files settings.artifactDirectory m = .ok t)
    (hwrite : world.files.writeFile (out?.getD ⟨t.fileName⟩) t.bytes = .ok files) :
    (arguments.execute world).exitCode = 0 ∧ (arguments.execute world).world.files = files ∧
      files.readFile (out?.getD ⟨t.fileName⟩) = .ok t.bytes := by
  obtain ⟨hcommand, own, hsettings, hdirectory, hpath⟩ := h
  rw [← hpath] at hload
  rw [← hdirectory] at hpack
  obtain ⟨_, hfilled⟩ := FileSystem.filled_of_writeFile hfiles hwrite
  obtain ⟨hexit, hstored⟩ := execute_pack hcommand hsettings hload hpack hwrite
  exact ⟨hexit, hstored, hfilled.readFile⟩

end PackageRelease
