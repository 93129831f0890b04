import PackageRelease.Proofs.Manifest.Editing
import PackageRelease.Proofs.Manifest.Storing
import PackageRelease.Proofs.Release.LocalStages

/-! # Changing and storing a manifest again

  A second release with the same settings finds the manifest that the first one has stored. The key
  idea: what it reads is the manifest of the first release, which the same changes leave as it is,
  so it stores the same text again. If the list of files was set to a string, the changes are
  refused, and nothing is stored.
-/

namespace PackageRelease

namespace Run

/-! ### One release -/

section one_release
variable {run : Run} {loaded m : Manifest} (hidle : run.state = .idle)
  (hcheck : run.settings.check = .ok ())
  (hload : Manifest.load run.world.files run.settings.manifestPath = .ok loaded)
include hidle hcheck hload

/-- A release whose changes can be made and stored passes its stages on this machine. -/
theorem runLocal_of_store {after : FileSystem}
    (hedits : Edit.applyAll run.settings.edits loaded = .ok m)
    (hstore : m.store run.world.files run.settings.manifestPath = (.ok (), after)) :
    ∃ written, runLocal.perform run = (.ok m, written) ∧ written.world.files = after := by
  have hresult := localResult hidle
  generalize runLocal.perform run = performed at hresult ⊢
  obtain ⟨outcome, written⟩ := performed
  generalize hfiles : written.world.files = files at hresult
  cases hresult with
  | rejected h => cases hcheck.symm.trans h
  | unread _ h => cases hload.symm.trans h
  | unchanged _ hread h =>
    cases hload.symm.trans hread
    cases hedits.symm.trans h
  | unstored _ hread hchange h =>
    cases hload.symm.trans hread
    cases hedits.symm.trans hchange
    cases hstore.symm.trans h
  | stored _ hread hchange h =>
    cases hload.symm.trans hread
    cases hedits.symm.trans hchange
    cases hstore.symm.trans h
    exact ⟨written, rfl, hfiles⟩

/-- A release whose changes are refused leaves the files as they are. -/
theorem runLocal_of_refused {failure : Failure}
    (hedits : Edit.applyAll run.settings.edits loaded = .error failure) :
    ∃ stopped, runLocal.perform run = (.error (.inStage .transform failure), stopped) ∧
      stopped.world.files = run.world.files := by
  have hresult := localResult hidle
  generalize runLocal.perform run = performed at hresult ⊢
  obtain ⟨outcome, stopped⟩ := performed
  generalize hfiles : stopped.world.files = files at hresult
  generalize hbefore : run.world.files = before at hresult hload ⊢
  cases hresult with
  | rejected h => cases hcheck.symm.trans h
  | unread _ h => cases hload.symm.trans h
  | unchanged _ hread h =>
    cases hload.symm.trans hread
    cases hedits.symm.trans h
    exact ⟨stopped, rfl, hfiles⟩
  | unstored _ hread hchange =>
    cases hload.symm.trans hread
    cases hedits.symm.trans hchange
  | stored _ hread hchange =>
    cases hload.symm.trans hread
    cases hedits.symm.trans hchange

end one_release

/-! ### Two releases -/

/-- A second release with the same settings, without a change of name, reads what the first one has
    stored and stores the same text again. Only if files are to be listed and the list of files is
    set it is refused, and then it leaves all files as they are. Of the doubles in the manifest is
    assumed that their digits read back, and of the file beside the manifest that it is found
    without the manifest. -/
theorem runLocal_again {settings : Settings} {token? again? : Option Token} {world next : World}
    {m : Manifest} {written : Run} (hrename : settings.rename? = none)
    (hfiles : world.files.Grounded)
    (hlocal : runLocal.perform (start settings token? world) = (.ok m, written))
    (hnext : next.files = written.world.files) (hdoubles : m.toJson.DoublesReadBack)
    (hapart : Manifest.IsApart world.files settings.manifestPath) :
    next.files.readFile settings.manifestPath = .ok (Text.encode m.render) ∧
    (settings.addFiles = [] ∨ "files" ∉ settings.setFields.map Prod.fst → ∃ final,
      runLocal.perform (start settings again? next) = (.ok m, final) ∧
        final.world.files.readFile settings.manifestPath = .ok (Text.encode m.render)) ∧
    (settings.addFiles ≠ [] → "files" ∈ settings.setFields.map Prod.fst → ∃ final,
      runLocal.perform (start settings again? next) = (.error (.inStage .transform (.validation
          (.fieldType "augment-files" "files" "an array of strings"))), final) ∧
        final.world.files = next.files) := by
  obtain ⟨hcheck, loaded, hload, hedits, hstore⟩ := store_of_runLocal hlocal
  rw [← hnext] at hstore
  obtain ⟨_, _, hread, -, -⟩ := Manifest.exists_of_load hload
  have hloaded := Manifest.fits_of_load hload
  have hnodup := Manifest.nodup_keys_of_fits hloaded
  -- the second release loads the manifest of the first
  have hstored := Manifest.readFile_of_store hfiles hread hstore hapart
  have hfound := Manifest.load_of_readFile hstored (Edit.fits_of_applyAll hloaded hedits) hdoubles
  refine ⟨hstored, fun hsettings => ?_, fun hlisted hset => ?_⟩
  · obtain ⟨after, hagain, hsame⟩ := Manifest.store_again hfiles hread hstore hapart m
    obtain ⟨final, hperform, hfinal⟩ := @runLocal_of_store (start settings again? next) _ _ rfl
      hcheck hfound _ (settings.applyAll_again hrename hnodup hedits hsettings) hagain
    exact ⟨final, hperform, by rw [hfinal]; exact hsame⟩
  · exact @runLocal_of_refused (start settings again? next) _ rfl hcheck hfound _
      (settings.applyAll_refused hrename hedits hlisted hset)

/-- A release of a directory with a manifest and further entries. -/
def sampleRun (addFiles : List String) (setFields : List (String × String)) (manifest : String)
    (further : List (Location × Entry)) : Run :=
  start { Settings.builtIn with artifactDirectory := ⟨"p"⟩, addFiles, setFields } none
    (World.start
      { entries := [(["p"], .directory), (["p", "package.json"], .file (Text.encode manifest))] ++
          further
        workingDirectory := [] } [] [])

/-- Another release with the same settings, on the files that the stages on this machine leave. -/
def rerun (run : Run) : Run := start run.settings none (runLocal.perform run).2.world

theorem runLocal_sample_again : ∃ m written final,
    runLocal.perform (sampleRun ["a"] [("main", "a")] "\x7b\"files\":[]\x7d" []) =
      (.ok m, written) ∧
    runLocal.perform (sampleRun ["a"] [("main", "a")] "\x7b\"files\":[]\x7d" []).rerun =
      (.ok m, final) ∧
    final.world.files.readFile ⟨"p/package.json"⟩ = .ok (Text.encode m.render) := by
  have hfirst : (runLocal.perform
      (sampleRun ["a"] [("main", "a")] "\x7b\"files\":[]\x7d" [])).1 =
        .ok ⟨[("files", .array [.string "a"]), ("main", .string "a")]⟩ := by
    decide +kernel
  have hlocal := (Prod.eta (runLocal.perform
    (sampleRun ["a"] [("main", "a")] "\x7b\"files\":[]\x7d" []))).symm
  rw [hfirst] at hlocal
  -- there is no file beside the manifest, and no double in it
  have hmissing : (sampleRun ["a"] [("main", "a")] "\x7b\"files\":[]\x7d" []).world.files.find true
      (Manifest.temporaryPath
        (sampleRun ["a"] [("main", "a")] "\x7b\"files\":[]\x7d" []).settings.manifestPath) =
      .error .notFound := by
    decide +kernel
  have hdoubles : (Manifest.toJson ⟨[("files", .array [.string "a"]),
      ("main", .string "a")]⟩).DoublesReadBack := by
    intro x hx
    cases hx with
    | field hmem hvalue =>
      simp only [List.mem_cons, List.not_mem_nil, or_false] at hmem
      rcases hmem with rfl | rfl
      · cases hvalue with
        | item hmem hvalue =>
          obtain rfl := List.mem_singleton.mp hmem
          cases hvalue
      · cases hvalue
  obtain ⟨-, hagain, -⟩ := @runLocal_again _ none none _ _ _ _ rfl ⟨by decide +kernel, rfl⟩ hlocal
    rfl hdoubles fun _ _ _ hfound => by cases hmissing.symm.trans hfound
  obtain ⟨final, hperform, hread⟩ := hagain (.inr (by decide))
  exact ⟨_, _, final, hlocal, hperform, hread⟩

/-- A second release fails if files are to be listed and the list of files was set to a string, and
    if a link beside the manifest went through the manifest; and it stores another text if the
    digits of a double do not read back. -/
theorem runLocal_differs_again :
    (runLocal.perform (sampleRun ["a"] [("files", "a")] "\x7b\"files\":[]\x7d" [])).1.isOk = true ∧
    (runLocal.perform (sampleRun ["a"] [("files", "a")] "\x7b\"files\":[]\x7d" []).rerun).1 =
      .error (.inStage .transform (.validation
        (.fieldType "augment-files" "files" "an array of strings"))) ∧
    (runLocal.perform (sampleRun [] [] "\x7b\x7d"
      [(["p", ".package.json.tmp"], .link "package.json")])).1.isOk = true ∧
    (runLocal.perform (sampleRun [] [] "\x7b\x7d"
      [(["p", ".package.json.tmp"], .link "package.json")]).rerun).1 =
      .error (.inStage .load (.manifest (.io ⟨"p/package.json"⟩ (.os .tooManyLinks)))) ∧
    (runLocal.perform (sampleRun [] [] "\x7b\"x\":0.09008935884700598\x7d" [])).1.isOk = true ∧
    (runLocal.perform (sampleRun [] [] "\x7b\"x\":0.09008935884700598\x7d" []).rerun).1.isOk =
      true ∧
    (runLocal.perform (sampleRun [] [] "\x7b\"x\":0.09008935884700598\x7d"
      []).rerun).2.world.files.readFile ⟨"p/package.json"⟩ ≠
    (runLocal.perform (sampleRun [] [] "\x7b\"x\":0.09008935884700598\x7d"
      [])).2.world.files.readFile ⟨"p/package.json"⟩ := by
  decide +kernel

end Run

end PackageRelease
