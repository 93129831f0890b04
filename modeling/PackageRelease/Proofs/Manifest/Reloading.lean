import PackageRelease.Proofs.FileSystem.Places
import PackageRelease.Proofs.Json.Rereading
import PackageRelease.Proofs.Manifest.Editing
import PackageRelease.Proofs.Manifest.Storing

/-! # Loading what was stored

  Where the path beside a manifest is not that of a link, a manifest that was loaded, changed and
  stored is loaded again, whatever stands in it: with the same fields in the same order, and with
  the same values up to the doubles in them.
-/

namespace PackageRelease

open FileSystem

/-! ### The doubles in a manifest -/

theorem Manifest.isFinite_of_load {fs : FileSystem} {path : Path} {m : Manifest}
    (h : load fs path = .ok m) : m.toJson.IsFinite := by
  obtain ⟨_, _, -, -, hparse⟩ := exists_of_load h
  exact kept_of_parse Json.keptByReading_isFinite hparse

/-- A change puts no double into a manifest. -/
theorem Edit.isFinite_of_applyAll {edits : List Edit} {m changed : Manifest}
    (h : m.toJson.IsFinite) (hchanged : applyAll edits m = .ok changed) : changed.toJson.IsFinite :=
  kept_of_applyAll Json.keptByReading_isFinite h hchanged

namespace Manifest

/-! ### Reading the text of a manifest -/

/-- What is read from the text of a manifest. -/
def reread (m : Manifest) : Manifest := ⟨m.fields.map fun field => (field.1, field.2.reread)⟩

theorem get?_reread (m : Manifest) (key : String) :
    m.reread.get? key = (m.get? key).map Json.reread := by
  obtain ⟨fields⟩ := m
  show List.lookup key (fields.map _) = (List.lookup key fields).map _
  induction fields with
  | nil => rfl
  | cons field fields ih =>
    rw [List.map_cons, List.lookup_cons, List.lookup_cons, ih]
    cases key == field.1 <;> rfl

/-- A manifest with doubles in range is read from its own text. -/
theorem parse_render_of_isFinite {m : Manifest} (h : m.toJson.Fits 0)
    (hfinite : m.toJson.IsFinite) (path : Path) : parse m.render path = .ok m.reread := by
  have hread : Json.parse m.render = .ok m.toJson.reread := by
    unfold Json.parse render Json.pretty Json.render
    rw [String.toList_append, String.toList_ofList]
    exact Json.parseChars_renderAt_of_isFinite h hfinite .pretty
      (List.forall_mem_singleton.mpr (.inr (.inr (.inl rfl))))
  unfold parse
  rw [hread, toJson, Json.reread_object]
  rfl

/-! ### Reading a stored manifest -/

section stored
variable {fs filled after : FileSystem} {path : Path} {content previous : Bytes}
  {directory place : Location} {name : String}

/-- A file is written without changing any directory or link. -/
theorem sameOutline_of_filled {p : Path} (h : Filled fs filled p place content) :
    SameOutline fs filled := by
  refine ⟨h.ways.current, fun location => ?_⟩
  rw [h.get?_eq]
  split
  · next heq =>
    rw [heq]
    exact (outline_eq_none_iff.mpr h.before).symm
  · rfl

variable (hfs : fs.Grounded) (hstored : Stored fs filled after path content directory place name)
  (hlink : ¬fs.IsLink (temporaryPath path))
include hfs hstored hlink

/-- The file that was written has its place under the name beside the manifest. -/
theorem Stored.place_eq : place = directory ++ [besideName name] := by
  obtain ⟨_, hbeside⟩ := hstored.beside_leads
  have hname := hstored.source.isName
  obtain ⟨entry, hentry⟩ := Option.isSome_iff_exists.mp
    (hbeside.isSome_get? hname.2.2.1 hname.2.2.2)
  cases entry with
  | file found => exact (hbeside.behind_file hname.2.2.1 hname.2.2.2 hentry).2
  | directory =>
    exact absurd hentry (ne_directory_of_leads hname hbeside hstored.writes.get?_place)
  | link target =>
    have hfind := hstored.source.find_false hstored.slash_beside hstored.length.1 hentry
    have hsame := sameOutline_of_filled hstored.writes
    exact absurd ((hsame.isLink_iff hfs hstored.grounded).mp ⟨_, _, hfind⟩) hlink

/-- A stored manifest is read if the path beside it was not that of a link. -/
theorem Stored.readFile_of_not_isLink (hload : fs.readFile path = .ok previous) :
    after.readFile path = .ok content := by
  have htarget := hstored.target.keep hstored.grounded.tree (hstored.ways hload)
  have hentry : after.get? (directory ++ [name]) = some (.file content) := by
    rw [hstored.moved.moved, ← hstored.place_eq hfs hlink]
    exact hstored.writes.get?_place
  exact readFile_eq_ok_iff.mpr
    ⟨_, find_true_of_file (htarget.find_false hstored.slash hstored.length.2 hentry)⟩

end stored

/-- What was loaded, changed and stored is loaded again up to the doubles in it. -/
theorem load_of_store {fs after : FileSystem} {path : Path} {loaded m : Manifest}
    {edits : List Edit} (h : fs.Grounded) (hlink : ¬fs.IsLink (temporaryPath path))
    (hload : load fs path = .ok loaded) (hedits : Edit.applyAll edits loaded = .ok m)
    (hstore : m.store fs path = (.ok (), after)) : load after path = .ok m.reread := by
  obtain ⟨_, _, hread, -, -⟩ := exists_of_load hload
  obtain ⟨filled, directory, place, name, hstored⟩ := exists_stored h hstore
  have hfits := Edit.fits_of_applyAll (fits_of_load hload) hedits
  have hfinite := Edit.isFinite_of_applyAll (isFinite_of_load hload) hedits
  have hwritten := hstored.readFile_of_not_isLink h hlink hread
  rw [load_eq_parse hwritten, parse_render_of_isFinite hfits hfinite]

end Manifest

end PackageRelease
