import PackageRelease.Proofs.FileSystem.Lookups
import PackageRelease.Proofs.Manifest.Storing

/-! # What storing a manifest does

  A stored manifest is loaded again, the path beside it finds nothing any more, and other paths read
  what they read. The key idea: a store changes what stands in three places, that of the manifest,
  that beside it, and the one where the file was written. The last two are the same unless a link
  stands beside the manifest; then the file to which it leads is overwritten, and the link itself is
  what is moved.
-/

namespace PackageRelease

open FileSystem

namespace Manifest

variable {fs after : FileSystem} {path : Path} {m : Manifest}

section stored
variable {filled : FileSystem} {content : Bytes} {directory place : Location} {name : String}
  (hstored : Stored fs filled after path content directory place name)
include hstored

/-! ### The three places -/

/-- Writing the file has changed no directory and no link. -/
theorem Stored.sameOutline : SameOutline fs filled := by
  refine ⟨hstored.writes.ways.current, fun location => ?_⟩
  rw [hstored.writes.get?_eq]
  split
  · next heq =>
    rw [heq, outline_eq_none_iff.mpr hstored.writes.before]
    rfl
  · rfl

/-- The places of the manifest, beside it, and where the file was written. -/
theorem Stored.places : fs.place? false path = some (directory ++ [name]) ∧
    fs.place? false (temporaryPath path) = some (directory ++ [besideName name]) ∧
    fs.place? true (temporaryPath path) = some place := by
  have hsame := hstored.sameOutline
  rw [← hsame.place?_eq, ← hsame.place?_eq, ← hsame.place?_eq]
  refine ⟨hstored.target.place?_false hstored.slash hstored.length.2,
    hstored.source.place?_false hstored.slash_beside hstored.length.1, ?_⟩
  have hwalk := hstored.writes.leads.walk_eq
  exact place?_eq_some_iff.mpr ⟨_, locate_eq_ok_iff.mpr
    ⟨hstored.writes.written.1, hstored.writes.written.2, hwalk⟩, rfl⟩

/-- Nothing has changed anywhere else. -/
theorem Stored.get?_eq {location : Location} (htarget : location ≠ directory ++ [name])
    (hbeside : location ≠ directory ++ [besideName name]) (hplace : location ≠ place) :
    after.get? location = fs.get? location := by
  rw [hstored.moved.other location hbeside htarget, hstored.writes.get?_eq, if_neg hplace]

/-- A path that looks at none of the three places is read as before. -/
theorem Stored.readFile_eq {other : Path} (htarget : directory ++ [name] ∉ fs.lookups other)
    (hbeside : directory ++ [besideName name] ∉ fs.lookups other)
    (hplace : place ∉ fs.lookups other) : after.readFile other = fs.readFile other := by
  have hcurrent := hstored.moved.current.trans hstored.writes.ways.current
  refine readFile_eq_of_lookups hcurrent fun location hlocation => hstored.get?_eq ?_ ?_ ?_
  · exact fun heq => htarget (heq ▸ hlocation)
  · exact fun heq => hbeside (heq ▸ hlocation)
  · exact fun heq => hplace (heq ▸ hlocation)

/-! ### The path beside the manifest -/

/-- Nothing is found beside the manifest any more: where the names in front of the last one still
    lead to a directory, it is the one in which the file was. -/
theorem Stored.find_beside (hafter : after.Grounded) (through : Bool) (found : Location × Entry) :
    after.find through (temporaryPath path) ≠ .ok found := by
  intro hfind
  obtain ⟨location, entry⟩ := found
  obtain ⟨hlocate, hentry⟩ := FileSystem.find_eq_ok_iff.mp hfind
  obtain ⟨-, -, hwalk⟩ := locate_eq_ok_iff.mp hlocate
  obtain ⟨front, hpieces, hfront⟩ := hstored.source.front
  have hname := hstored.source.isName
  unfold Path.steps at hwalk
  rw [hstored.slash_beside, if_neg Bool.false_ne_true, List.append_nil, hpieces] at hwalk
  have horigin := directory_origin hafter.current (temporaryPath path)
  obtain ⟨directory', left, hdirectory, hleads, hlast⟩ :=
    hafter.tree.exists_of_walk_concat horigin hwalk
  -- the names in front led to the same directory before the move
  obtain ⟨_, hbeside⟩ := hstored.beside_leads
  have hplace := hstored.writes.get?_place
  rw [hstored.moved.current] at hleads
  have hbefore := hstored.moved.leads_of_directory hstored.grounded.tree hstored.target.directory
    hname hbeside hplace hleads hdirectory
    (directory_origin hstored.grounded.current (temporaryPath path))
  obtain rfl := hbefore.unique hfront
  rw [walk, stretch_name through directory' hname.2.2.1 hname.2.2.2,
    if_neg (Nat.not_lt.mpr hstored.length.1), hstored.moved.gone] at hlast
  cases hlast

/-! ### The path of the manifest -/

/-- The stored content is read if the path beside the manifest does not look at the manifest. -/
theorem Stored.readFile_of_lookups
    (hapart : directory ++ [name] ∉ fs.lookups (temporaryPath path)) :
    after.readFile path = .ok content := by
  obtain ⟨-, -, hwritten⟩ := hstored.places
  have hne : place ≠ directory ++ [name] := by
    rintro rfl
    exact hapart (mem_lookups_of_place? hwritten)
  have herase := @get?_erase _ (concat_ne_nil directory name)
  have hplace : (filled.erase (directory ++ [name])).get? place = some (.file content) := by
    rw [herase, if_neg hne, hstored.writes.get?_place]
  -- without the manifest the path beside it leads to the same place
  obtain ⟨spot, hlocate, rfl⟩ := place?_eq_some_iff.mp hwritten
  have hsame : (fs.erase (directory ++ [name])).locate true (temporaryPath path) = .ok spot := by
    rw [← hlocate]
    refine locate_eq_of_lookups rfl fun location hlocation => ?_
    have hother : location ≠ directory ++ [name] := by
      rintro rfl
      exact hapart hlocation
    rw [herase, if_neg hother]
  obtain ⟨-, -, hwalk⟩ := locate_eq_ok_iff.mp hsame
  have hseen : ∀ location, (fs.erase (directory ++ [name])).get? location ≠ none →
      seen ((filled.erase (directory ++ [name])).get? location) =
        seen ((fs.erase (directory ++ [name])).get? location) := by
    intro location hentry
    rw [herase fs] at hentry ⊢
    rw [herase filled]
    split at hentry
    · exact absurd rfl hentry
    · next hother =>
      rw [if_neg hother, if_neg hother]
      exact hstored.seen_eq location hentry
  have hleads := Leads.of_walk hseen hwalk fun parent free hmissing => by
    rw [hmissing] at hplace
    exact ⟨content, hplace⟩
  have horigin : (temporaryPath path).origin (fs.erase (directory ++ [name])).workingDirectory =
      path.origin filled.workingDirectory := hstored.origin_before
  rw [horigin, hstored.leads_beside_iff] at hleads
  exact hstored.readFile hleads hplace

end stored

/-! ### A store as a whole -/

/-- A manifest that was stored is loaded again if the path beside it did not look at the manifest.
    Nothing is found beside the manifest any more. Any path that looked neither at the manifest, nor
    beside it, nor at the file to which the path beside it led, reads what it read. -/
theorem round_trip_of_store (h : fs.Grounded) (hstore : m.store fs path = (.ok (), after))
    (hfits : m.toJson.Fits 0) (hdoubles : m.toJson.DoublesReadBack) :
    ∃ target beside written, fs.place? false path = some target ∧
      fs.place? false (temporaryPath path) = some beside ∧
      fs.place? true (temporaryPath path) = some written ∧
      (target ∉ fs.lookups (temporaryPath path) → load after path = .ok m) ∧
      (∀ through found, after.find through (temporaryPath path) ≠ .ok found) ∧
      ∀ other, target ∉ fs.lookups other → beside ∉ fs.lookups other → written ∉ fs.lookups other →
        after.readFile other = fs.readFile other := by
  obtain ⟨filled, directory, place, name, hstored⟩ := exists_stored h hstore
  obtain ⟨htarget, hbeside, hwritten⟩ := hstored.places
  have hafter := grounded_of_store h hstore
  refine ⟨_, _, _, htarget, hbeside, hwritten, fun hapart => ?_, hstored.find_beside hafter,
    fun other => hstored.readFile_eq⟩
  exact load_of_readFile (hstored.readFile_of_lookups hapart) hfits hdoubles

/-- Files in which a link beside the manifest leads to another file. -/
def sampleBeside : FileSystem :=
  sampleFiles [(["p", "other"], .file (Text.encode "a")), (["p", "third"], .file (Text.encode "b")),
    (["p", ".package.json.tmp"], .link "other")]

theorem round_trip_of_sampleBeside : ∃ after,
    Manifest.store ⟨[("name", .string "a")]⟩ sampleBeside ⟨"p/package.json"⟩ = (.ok (), after) ∧
    load after ⟨"p/package.json"⟩ = .ok ⟨[("name", .string "a")]⟩ ∧
    (∀ through found, after.find through (temporaryPath ⟨"p/package.json"⟩) ≠ .ok found) ∧
    after.readFile ⟨"p/third"⟩ = .ok (Text.encode "b") := by
  have hgrounded : sampleBeside.Grounded := ⟨by decide +kernel, rfl⟩
  have hstore : (Manifest.store ⟨[("name", .string "a")]⟩ sampleBeside ⟨"p/package.json"⟩).1 =
      .ok () := by decide +kernel
  have hfits : (Manifest.toJson ⟨[("name", .string "a")]⟩).Fits 0 := by
    refine .object (by decide) (by decide) fun field hfield => ?_
    obtain rfl := List.mem_singleton.mp hfield
    exact .string "a"
  have hdoubles : (Manifest.toJson ⟨[("name", .string "a")]⟩).DoublesReadBack := by
    intro x hx
    cases hx with
    | field hmem hvalue =>
      obtain rfl := List.mem_singleton.mp hmem
      cases hvalue
  obtain ⟨target, beside, written, htarget, hbeside, hwritten, hload, hgone, hother⟩ :=
    round_trip_of_store hgrounded (Prod.ext hstore rfl) hfits hdoubles
  have hplaces : sampleBeside.place? false ⟨"p/package.json"⟩ = some ["p", "package.json"] ∧
      sampleBeside.place? false (temporaryPath ⟨"p/package.json"⟩) =
        some ["p", ".package.json.tmp"] ∧
      sampleBeside.place? true (temporaryPath ⟨"p/package.json"⟩) = some ["p", "other"] := by
    decide +kernel
  obtain rfl := Option.some.inj (htarget.symm.trans hplaces.1)
  obtain rfl := Option.some.inj (hbeside.symm.trans hplaces.2.1)
  obtain rfl := Option.some.inj (hwritten.symm.trans hplaces.2.2)
  refine ⟨_, Prod.ext hstore rfl, hload (by decide +kernel), hgone, ?_⟩
  rw [hother ⟨"p/third"⟩ (by decide +kernel) (by decide +kernel) (by decide +kernel)]
  decide +kernel

/-- Links decide what a store does. A file that has nothing to do with the manifest is overwritten
    through a link beside it; a manifest to which such a link leads is lost; and what was read
    through a link in the place of the manifest is not found any more. -/
theorem store_through_links :
    ((Manifest.store ⟨[]⟩ sampleBeside ⟨"p/package.json"⟩).1 = .ok () ∧
      sampleBeside.place? true ⟨"p/other"⟩ = some ["p", "other"] ∧
      sampleBeside.place? false ⟨"p/package.json"⟩ = some ["p", "package.json"] ∧
      sampleBeside.place? false (temporaryPath ⟨"p/package.json"⟩) =
        some ["p", ".package.json.tmp"] ∧
      (Manifest.store ⟨[]⟩ sampleBeside ⟨"p/package.json"⟩).2.readFile ⟨"p/other"⟩ ≠
        sampleBeside.readFile ⟨"p/other"⟩) ∧
    (∃ after, Manifest.store ⟨[]⟩ (sampleFiles [(["p", ".package.json.tmp"], .link "package.json")])
        ⟨"p/package.json"⟩ = (.ok (), after) ∧
      load after ⟨"p/package.json"⟩ =
        .error (.manifest (.io ⟨"p/package.json"⟩ (.os .tooManyLinks)))) ∧
    ∃ after, Manifest.store ⟨[]⟩ (sampleFiles [(["p", "d"], .directory),
        (["p", "d", "x"], .file (Text.encode "a")), (["p", "t"], .link "d")]) ⟨"p/t"⟩ =
          (.ok (), after) ∧
      (sampleFiles [(["p", "d"], .directory), (["p", "d", "x"], .file (Text.encode "a")),
        (["p", "t"], .link "d")]).place? true ⟨"p/t/x"⟩ = some ["p", "d", "x"] ∧
      after.readFile ⟨"p/t/x"⟩ = .error (.os .notADirectory) := by
  refine ⟨by decide +kernel, ⟨_, Prod.ext (by decide +kernel) rfl, by decide +kernel⟩,
    ⟨_, Prod.ext (by decide +kernel) rfl, by decide +kernel⟩⟩

end Manifest

end PackageRelease
