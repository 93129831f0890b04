import PackageRelease.Proofs.Archive.Compression
import PackageRelease.Proofs.CommandLine.Packing
import PackageRelease.Proofs.Manifest.Storing
import PackageRelease.Proofs.Registry.Document
import PackageRelease.Proofs.Release.Files

/-! # What a release has published

  The manifest of a release is changed in memory, stored as a text, read again, packed and uploaded.
  The key idea: the text that is read again is the one that was stored, and that text reads back as
  the manifest; from there on the files do not change, so every attempt at an upload, the receipt
  and any later packing are made from the same manifest and the same files.
-/

namespace PackageRelease

namespace Registry

/-! ### Receipts -/

/-- What a receipt is made from. -/
def Confirms (files : FileSystem) (target : Target) (dryRun : Bool) (given : Receipt) : Prop :=
  ∃ parcel, prepare files target = .ok parcel ∧ given = receipt target parcel dryRun

theorem confirms_of_publish {target : Target} {token : Token} {world after : World}
    {given : Receipt} (h : (publish target token).perform world = (.ok given, after)) :
    Confirms world.files target false given := by
  obtain ⟨parcel, _, hparcel, h⟩ := Action.perform_bind_eq_ok_iff.mp h
  obtain ⟨_, _, -, h⟩ := Action.perform_bind_eq_ok_iff.mp h
  obtain ⟨_, _, -, h⟩ := Action.perform_bind_eq_ok_iff.mp h
  obtain ⟨_, _, -, h⟩ := Action.perform_bind_eq_ok_iff.mp h
  obtain ⟨_, _, -, h⟩ := Action.perform_bind_eq_ok_iff.mp h
  obtain ⟨_, _, -, h⟩ := Action.perform_bind_eq_ok_iff.mp h
  cases h
  exact ⟨parcel, (Prod.mk.inj hparcel).1, rfl⟩

theorem confirms_of_dryRun {target : Target} {world after : World} {given : Receipt}
    (h : (dryRun target).perform world = (.ok given, after)) :
    Confirms world.files target true given := by
  obtain ⟨parcel, _, hparcel, h⟩ := Action.perform_bind_eq_ok_iff.mp h
  obtain ⟨_, _, -, h⟩ := Action.perform_bind_eq_ok_iff.mp h
  cases h
  exact ⟨parcel, (Prod.mk.inj hparcel).1, rfl⟩

/-- The receipt after several attempts is that of one attempt, and they all meet the same files. -/
theorem confirms_of_retry {policy : RetryPolicy} {name : String} {target : Target} {token : Token}
    {world after : World} {given : Receipt}
    (h : (Action.retry policy name fun _ => publish target token).perform world =
      (.ok given, after)) : Confirms world.files target false given := by
  obtain ⟨_, between, _, hfiles, hpublish⟩ := Action.exists_of_retry
    ⟨fun _ _ => rfl, fun _ _ => rfl, fun _ _ => rfl⟩
    (fun _ => keeps_of_background files_of_background (keeps_background_publish target token)) h
  rw [← hfiles]
  exact confirms_of_publish hpublish

end Registry

namespace Run

/-- The receipt of a release is for what the files hold. -/
theorem confirms_of_upload {settings : Settings} {token? : Option Token} {world after : World}
    {given : Registry.Receipt}
    (h : (upload settings token?).perform world = (.ok given, after)) :
    ∃ target, settings.target = .ok target ∧
      Registry.Confirms world.files target settings.dryRun given := by
  obtain ⟨target, _, hlift, h⟩ := Action.perform_bind_eq_ok_iff.mp h
  rw [Action.perform_lift] at hlift
  obtain ⟨htarget, rfl⟩ := Prod.mk.inj hlift
  refine ⟨target, htarget, ?_⟩
  have hsend : ∀ token, (send settings target token).perform world = (.ok given, after) →
      Registry.Confirms world.files target false given := by
    intro token hsend
    unfold send at hsend
    split at hsend
    · obtain ⟨_, between, hask, hretry⟩ := Action.perform_bind_eq_ok_iff.mp hsend
      have hbackground := keeps_background_ensureUnpublished target world
      rw [hask] at hbackground
      have hfiles : between.files = world.files := congrArg Prod.fst hbackground
      rw [← hfiles]
      exact Registry.confirms_of_retry hretry
    · exact Registry.confirms_of_retry hsend
  dsimp only at h
  cases hdry : settings.dryRun with
  | true =>
    rw [if_pos hdry] at h
    exact Registry.confirms_of_dryRun h
  | false =>
    rw [if_neg (by rw [hdry]; exact Bool.false_ne_true)] at h
    cases token? with
    | some token => exact hsend token h
    | none =>
      obtain ⟨token, _, htoken, h⟩ := Action.perform_bind_eq_ok_iff.mp h
      obtain ⟨-, rfl⟩ := Prod.mk.inj htoken
      exact hsend token h

theorem confirms_of_runAll {run final : Run} {given : Registry.Receipt}
    (h : runAll.perform run = (.ok given, final)) : ∃ target, run.settings.target = .ok target ∧
      Registry.Confirms final.world.files target run.settings.dryRun given := by
  rw [runAll_eq] at h
  obtain ⟨m, written, hlocal, hpublish⟩ := Action.perform_bind_eq_ok_iff.mp h
  -- the last stage finds the settings as they were and leaves the files as they are
  have hsettings := congrArg Prod.fst (keeps_surroundings_runLocal run)
  have hfiles := keeps_files_publish written
  rw [hlocal] at hsettings
  rw [hpublish] at hfiles
  have hsettings : written.settings = run.settings := hsettings
  have hfiles : final.world.files = written.world.files := hfiles
  rw [← hsettings, hfiles]
  rcases publish_result written with ⟨failure, hrefused⟩ | ⟨-, houtcome⟩
  · rw [hpublish] at hrefused
    cases hrefused
  · have hupload := (houtcome given).mp (by rw [hpublish])
    rcases hperform : (upload written.settings written.token?).perform written.world with
      ⟨outcome, after⟩
    rw [hperform] at hupload
    obtain rfl : outcome = .ok given := hupload
    exact confirms_of_upload hperform

end Run

/-! ### The whole release -/

/-- What a release has published, by the changed manifest and the package: everything that was
    stored, packed, sent and said agrees with the two. -/
structure Published (run final : Run) (outcome : Except Failure Registry.Receipt)
    (sent : List Attempt) (m : Manifest) (t : Tarball) (name version : String) : Prop where
  /-- The manifest is the one that was there, changed by the settings. -/
  changed : ∃ loaded, Manifest.load run.world.files run.settings.manifestPath = .ok loaded ∧
    Edit.applyAll run.settings.edits loaded = .ok m
  /-- It has the name and the version. -/
  identity : m.name? = some name ∧ m.version? = some version
  /-- It is what the files hold afterwards. -/
  stored : Manifest.load final.world.files run.settings.manifestPath = .ok m
  /-- The package is what is packed from these files. -/
  packed : Tarball.pack final.world.files run.settings.artifactDirectory m = .ok t
  /-- The manifest comes first in the package, and only there. -/
  manifest : ∃ others, t.entries = ("package/package.json", Text.encode m.render) :: others ∧
    "package/package.json" ∉ others.map Prod.fst
  /-- The archive starts with the text of the manifest. -/
  archive : ∃ rest, t.archive =
    Tar.fileSection (Text.encode "package/package.json") (Text.encode m.render) ++ rest
  /-- The octets of the package are read back as the archive. -/
  compressed : Gzip.decompress? t.bytes = some t.archive
  /-- Every upload has a document about the two. -/
  announced : ∀ a ∈ sent, a.request.method = .put → ∃ document,
    a.request.body? = some document ∧
      Registry.Announces document m t name version run.settings.distTag
  /-- So has the receipt. -/
  confirmed : ∀ receipt, outcome = .ok receipt → receipt.name = name ∧
    receipt.version = version ∧ receipt.distTag = run.settings.distTag ∧
    receipt.shasum = t.shasum ∧ receipt.integrity = t.integrity ∧
    receipt.size = t.bytes.length ∧ receipt.dryRun = false
  /-- The pack command for the same directory and manifest stores the package, if it can write its
      file. -/
  repacked : ∀ (arguments : Arguments) (out? : Option Path) (world : World) (files : FileSystem),
    world.files = final.world.files → arguments.PacksFor out? world run.settings →
    world.files.writeFile (out?.getD ⟨t.fileName⟩) t.bytes = .ok files →
    (arguments.execute world).exitCode = 0 ∧ (arguments.execute world).world.files = files ∧
      files.readFile (out?.getD ⟨t.fileName⟩) = .ok t.bytes

theorem Settings.of_target {settings : Settings} {target : Target}
    (h : settings.target = .ok target) : target.artifactDirectory = settings.artifactDirectory ∧
      target.manifestPath = settings.manifestPath ∧ target.distTag = settings.distTag := by
  obtain ⟨registry, hregistry, h⟩ := bind_eq_ok.mp h
  cases h
  unfold Target.ofRegistry at hregistry
  split at hregistry
  · cases hregistry
  · cases hregistry
    exact ⟨rfl, rfl, rfl⟩

/-- A release that has sent an upload has published the changed manifest. Of the doubles in it is
    assumed that their digits read back. -/
theorem published_of_runAll {run final : Run} {outcome : Except Failure Registry.Receipt}
    {sent : List Attempt} (hrun : Run.runAll.perform run = (outcome, final))
    (hfiles : run.world.files.Grounded)
    (hsent : final.world.attempts = run.world.attempts ++ sent)
    (hput : ∃ a ∈ sent, a.request.method = .put)
    (hdoubles : ∀ loaded m, Manifest.load run.world.files run.settings.manifestPath = .ok loaded →
      Edit.applyAll run.settings.edits loaded = .ok m → m.toJson.DoublesReadBack) :
    ∃ m t name version, Published run final outcome sent m t name version := by
  have htree := Run.onTree_runAll run hfiles
  rcases hlocal : Run.runLocal.perform run with ⟨failure | m, written⟩
  · -- nothing is sent, so nothing is put
    obtain ⟨hfailed, hnone⟩ := Run.perform_runAll_of_failed hlocal
    cases hrun.symm.trans hfailed
    obtain rfl : sent = [] := List.self_eq_append_right.mp (hnone.symm.trans hsent)
    obtain ⟨a, ha, -⟩ := hput
    cases ha
  obtain ⟨lookups, uploads, hattempts, hrequests⟩ := Run.requests_of_runLocal hlocal
  obtain ⟨hstore, hkept⟩ := Run.files_of_runLocal hlocal
  rw [hrun] at htree hattempts hrequests hkept
  dsimp only at htree hattempts hrequests hkept
  obtain rfl : sent = lookups ++ uploads := List.append_cancel_left (hsent.symm.trans hattempts)
  have hsome : uploads ≠ [] := by
    obtain ⟨a, ha, hmethod⟩ := hput
    exact List.ne_nil_of_mem (hrequests.mem_uploads ha hmethod)
  obtain ⟨target, parcel, url, token, request, htarget, -, hrequest, -, hsame, -⟩ :=
    hrequests.upload_request hsome
  obtain ⟨-, loaded, hload, hedits, -⟩ := Run.store_of_runLocal hlocal
  obtain ⟨_, _, hread, -, -⟩ := Manifest.exists_of_load hload
  have hfits := Edit.fits_of_applyAll (Manifest.fits_of_load hload) hedits
  rw [← hkept] at hrequest hstore
  -- what is read again for an upload is the manifest that was stored
  obtain ⟨hdirectory, hpath, htag⟩ := Settings.of_target htarget
  obtain ⟨hfound, hpack, hname, hversion⟩ := Registry.of_prepare hrequest.1
  rw [hpath] at hfound
  have hparcel := Manifest.eq_of_load hfiles hread hstore hfits (hdoubles loaded m hload hedits)
    hfound
  rw [hparcel] at hfound hname hversion hpack
  rw [hdirectory] at hpack
  obtain ⟨selected, hholds⟩ := Tarball.holds_of_pack htree.tree hpack
  obtain ⟨_, _, archive, -, -, -, harchive⟩ := Tarball.exists_of_pack hpack
  refine ⟨m, parcel.tarball, parcel.name, parcel.version, ⟨loaded, hload, hedits⟩,
    ⟨hname, hversion⟩, hfound, hpack, hholds.manifest_first, ⟨archive, harchive⟩,
    Gzip.decompress?_compress _, ?_, ?_, ?_⟩
  · intro a ha hmethod
    rw [hsame a (hrequests.mem_uploads ha hmethod), hrequest.2.2, Registry.uploadRequest_body,
      hparcel, ← htag]
    exact ⟨_, rfl, Registry.announces_uploadDocument (Manifest.nodup_keys_of_fits hfits)
      target _ _ _⟩
  · rintro receipt rfl
    obtain ⟨other, hother, again, hagain, rfl⟩ := Run.confirms_of_runAll hrun
    obtain rfl : target = other := Except.ok.inj (htarget.symm.trans hother)
    obtain rfl : parcel = again := Except.ok.inj (hrequest.1.symm.trans hagain)
    have hwet : run.settings.dryRun = false := by
      by_contra hdry
      exact hsome (hrequests.withheld (.inl (by simpa using hdry))).2
    exact ⟨rfl, rfl, htag, rfl, rfl, rfl, hwet⟩
  · intro arguments out? world files hworld hpacks hwrite
    rw [← hworld] at hfound hpack
    exact Arguments.execute_of_packsFor (by rw [hworld]; exact htree) hpacks hfound hpack hwrite

/-- A release of a package without files, which is given another name. -/
def sampleRelease : Run :=
  Run.start
    { Settings.builtIn with
      artifactDirectory := ⟨"p"⟩
      registry := "http://r"
      setFields := [("name", "b")] }
    (some ⟨"t"⟩)
    (World.start
      { entries := [(["p"], .directory), (["p", "package.json"],
          .file (Text.encode "\x7b\"name\":\"a\",\"version\":\"1.0.0\"\x7d"))]
        workingDirectory := [] }
      [] [some ⟨⟨201⟩, some ""⟩])

/-- A command with the paths of this release. -/
def commandFor (command : Command) : Arguments where
  configFile? := none
  artifactDirectory? := some ⟨"p"⟩
  manifestPath? := none
  registryAddress? := some "http://r"
  verbosity := ⟨false, false⟩
  command := command

/-- The settings of this release are those of a publish command with the same paths. -/
theorem packsFor_sampleRelease (world : World) :
    (commandFor (.pack (some ⟨"out.tgz"⟩))).PacksFor (some ⟨"out.tgz"⟩) world
      sampleRelease.settings := by
  have hsettings : (commandFor (.publish ⟨none, none, [], [("name", "b")]⟩
      ⟨none, none, none, none, false, false, false, none⟩)).settings world.files [] =
        .ok sampleRelease.settings := rfl
  refine Arguments.packsFor_of_options ?_ ?_ ?_ ?_ hsettings
  all_goals rfl

/-- The release uploads the package, and a pack command stores the same one. -/
theorem published_of_sampleRelease :
    (Run.runAll.perform sampleRelease).2.world.attempts.map (·.request.method) = [.put] ∧
      ∃ m t name version files, Published sampleRelease (Run.runAll.perform sampleRelease).2
        (Run.runAll.perform sampleRelease).1 (Run.runAll.perform sampleRelease).2.world.attempts
        m t name version ∧
      ((commandFor (.pack (some ⟨"out.tgz"⟩))).execute
        (Run.runAll.perform sampleRelease).2.world).exitCode = 0 ∧
      ((commandFor (.pack (some ⟨"out.tgz"⟩))).execute
        (Run.runAll.perform sampleRelease).2.world).world.files = files ∧
      files.readFile ⟨"out.tgz"⟩ = .ok t.bytes := by
  have hmethods :
      (Run.runAll.perform sampleRelease).2.world.attempts.map (·.request.method) = [.put] := by
    decide +kernel
  have hput : ∃ attempt ∈ (Run.runAll.perform sampleRelease).2.world.attempts,
      attempt.request.method = .put := by
    rw [← List.mem_map, hmethods]
    exact List.mem_singleton.mpr rfl
  have hdoubles : ∀ loaded m, Manifest.load sampleRelease.world.files
      sampleRelease.settings.manifestPath = .ok loaded →
        Edit.applyAll sampleRelease.settings.edits loaded = .ok m → m.toJson.DoublesReadBack := by
    intro loaded m hload hedits x hx
    have hloaded : Manifest.load sampleRelease.world.files sampleRelease.settings.manifestPath =
        .ok ⟨[("name", .string "a"), ("version", .string "1.0.0")]⟩ := by
      decide +kernel
    cases hloaded.symm.trans hload
    have hchanged : Edit.applyAll sampleRelease.settings.edits
        ⟨[("name", .string "a"), ("version", .string "1.0.0")]⟩ =
          .ok ⟨[("name", .string "b"), ("version", .string "1.0.0")]⟩ := by
      decide +kernel
    cases hchanged.symm.trans hedits
    -- there is no double in the manifest
    cases hx with
    | field hmem hvalue =>
      simp only [List.mem_cons, List.not_mem_nil, or_false] at hmem
      rcases hmem with rfl | rfl <;> cases hvalue
  have hcreate :
      ((Run.runAll.perform sampleRelease).2.world.files.create ⟨"out.tgz"⟩).isOk = true := by
    decide +kernel
  obtain ⟨m, t, name, version, hpublished⟩ := published_of_runAll (Prod.eta _).symm
    ⟨by decide +kernel, rfl⟩ (List.nil_append _).symm hput hdoubles
  obtain ⟨files, hwrite⟩ : ∃ files, (Run.runAll.perform sampleRelease).2.world.files.writeFile
      ⟨"out.tgz"⟩ t.bytes = .ok files := by
    unfold FileSystem.writeFile
    cases hopened : (Run.runAll.perform sampleRelease).2.world.files.create ⟨"out.tgz"⟩ with
    | ok opened => exact ⟨_, rfl⟩
    | error cause =>
      rw [hopened] at hcreate
      cases hcreate
  exact ⟨hmethods, m, t, name, version, files, hpublished,
    hpublished.repacked _ _ _ files rfl (packsFor_sampleRelease _) hwrite⟩

end PackageRelease
