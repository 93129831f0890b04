import PackageRelease.Proofs.Manifest.Changes
import PackageRelease.Proofs.Manifest.Reloading
import PackageRelease.Proofs.Release.Requests
import PackageRelease.Proofs.Release.Rerun

/-! # A change of name is made once

  A release that changes the name of a package cannot be run a second time: the manifest has the new
  name by then. The key idea: what the second release loads is the stored manifest up to its
  doubles, so it always gets as far as the changes, and the first of them finds the new name.
-/

namespace PackageRelease

namespace Settings

variable {s : Settings} {rule : RenameRule} {loaded m : Manifest}

/-- After a change of name the manifest has the new one, unless the name is set. -/
theorem get?_name_of_applyAll (hrule : s.rename? = some rule)
    (hfree : "name" ∉ s.setFields.map Prod.fst) (hedits : Edit.applyAll s.edits loaded = .ok m) :
    m.get? "name" = some (.string rule.target) := by
  rcases permits_or_obstacle s loaded with hpermits | ⟨failure, hobstacle⟩
  · obtain ⟨changed, hchanged, hedited⟩ := exists_edited hpermits
    cases hchanged.symm.trans hedits
    exact hedited.name rule hrule hfree
  · cases (applyAll_of_obstacle hobstacle).symm.trans hedits

/-- What was stored with the new name is not changed again. -/
theorem applyAll_reread (hrule : s.rename? = some rule) (hne : rule.source ≠ rule.target)
    (hname : m.get? "name" = some (.string rule.target)) : Edit.applyAll s.edits m.reread =
      .error (.validation (.nameMismatch rule.source rule.target)) := by
  have hagain : m.reread.get? "name" = some (.string rule.target) := by
    rw [Manifest.get?_reread, hname]
    rfl
  exact applyAll_of_obstacle (.nameDiffers hrule hagain hne.symm)

end Settings

namespace Run

/-- A second release with the same settings is refused where it would change the name, because the
    name is the new one by then. It changes no file and sends nothing. Neither what stands in the
    manifest nor the other changes matter, as long as no change sets the name; only the path beside
    the manifest must not be that of a link. -/
theorem runAll_refused_again {settings : Settings} {rule : RenameRule}
    {token? again? : Option Token} {world next : World} {m : Manifest} {written : Run}
    (hrule : settings.rename? = some rule)
    (hne : rule.source ≠ rule.target) (hfree : "name" ∉ settings.setFields.map Prod.fst)
    (hfiles : world.files.Grounded)
    (hlink : ¬world.files.IsLink (Manifest.temporaryPath settings.manifestPath))
    (hlocal : runLocal.perform (start settings token? world) = (.ok m, written))
    (hnext : next.files = written.world.files) :
    ∃ stopped, runAll.perform (start settings again? next) =
        (.error (.inStage .transform (.validation (.nameMismatch rule.source rule.target))),
          stopped) ∧
      stopped.world.files = next.files ∧ stopped.world.attempts = next.attempts := by
  obtain ⟨hcheck, loaded, hload, hedits, hstore⟩ := store_of_runLocal hlocal
  rw [← hnext] at hstore
  have hfound := Manifest.load_of_store hfiles hlink hload hedits hstore
  have hname := settings.get?_name_of_applyAll hrule hfree hedits
  obtain ⟨stopped, hstopped, hsame⟩ := @runLocal_of_refused (start settings again? next) _ rfl
    hcheck hfound _ (settings.applyAll_reread hrule hne hname)
  obtain ⟨hrun, hnone⟩ := perform_runAll_of_failed hstopped
  exact ⟨stopped, hrun, hsame, hnone⟩

/-- A release that changes the name of a package with a double whose digits do not read back. -/
def renamingRun : Run :=
  start { Settings.builtIn with
      artifactDirectory := ⟨"p"⟩
      rename? := some ⟨"a", "b"⟩
      setFields := [("main", "m")] } none
    (World.start
      { entries := [(["p"], .directory), (["p", "package.json"],
          .file (Text.encode "\x7b\"name\":\"a\",\"x\":0.09008935884700598\x7d"))]
        workingDirectory := [] } [] [])

theorem start_rerun (run : Run) : start run.settings none run.rerun.world = run.rerun := rfl

theorem runAll_sample_refused_again : (runLocal.perform renamingRun).1.isOk = true ∧
    ∃ stopped, runAll.perform renamingRun.rerun =
        (.error (.inStage .transform (.validation (.nameMismatch "a" "b"))), stopped) ∧
      stopped.world.files = renamingRun.rerun.world.files ∧ stopped.world.attempts = [] := by
  have hok : (runLocal.perform renamingRun).1.isOk = true := by decide +kernel
  have hnone : renamingRun.rerun.world.attempts = [] := by decide +kernel
  have hfree : renamingRun.world.files.find false
      (Manifest.temporaryPath renamingRun.settings.manifestPath) = .error .notFound := by
    decide +kernel
  rcases hperform : runLocal.perform renamingRun with ⟨failure | m, written⟩
  · rw [hperform] at hok
    cases hok
  · have hnext : renamingRun.rerun.world.files = written.world.files := by
      unfold rerun
      rw [hperform]
      rfl
    obtain ⟨stopped, hrun, hsame, hsent⟩ := @runAll_refused_again renamingRun.settings ⟨"a", "b"⟩
      none none renamingRun.world renamingRun.rerun.world m written rfl (by decide) (by decide)
      ⟨by decide +kernel, rfl⟩ (fun ⟨_, _, hlink⟩ => by cases hfree.symm.trans hlink) hperform hnext
    rw [start_rerun] at hrun
    exact ⟨rfl, stopped, hrun, hsame, hsent.trans hnone⟩

end Run

end PackageRelease
