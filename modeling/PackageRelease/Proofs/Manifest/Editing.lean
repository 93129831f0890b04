import PackageRelease.Proofs.Json.Fields
import PackageRelease.Proofs.Manifest.RoundTrip
import PackageRelease.Settings.Basic

/-! # Changing a manifest again

  Changes without a change of name come in two groups: files are listed, then fields are set. The
  key idea: each group alone changes nothing the second time, so the groups together change nothing
  unless one undoes what the other needs. They meet in one field only: if the list of files is
  itself set, it is a string afterwards, and no file can be listed in it.
-/

namespace PackageRelease

namespace Edit

/-! ### Listing files -/

theorem mem_addOnce {files : List String} {entry other : String} :
    other ∈ addOnce files entry ↔ other = entry ∨ other ∈ files := by
  unfold addOnce
  split
  · next hmem =>
    refine ⟨.inr, fun h => h.elim (fun heq => ?_) id⟩
    rw [heq]
    exact hmem
  · rw [List.mem_append, List.mem_singleton, or_comm]

theorem mem_foldl_addOnce {entries files : List String} {other : String} :
    other ∈ entries.foldl addOnce files ↔ other ∈ entries ∨ other ∈ files := by
  induction entries generalizing files with
  | nil => simp
  | cons entry entries ih =>
    rw [List.foldl_cons, ih, mem_addOnce, or_left_comm, ← or_assoc, List.mem_cons]

/-- What is added to a list are the entries that it does not have, each at its first place. -/
theorem foldl_addOnce (entries files : List String) : entries.foldl addOnce files =
    files ++ (entries.filter (· ∉ files)).eraseDups := by
  induction entries generalizing files with
  | nil => simp
  | cons entry entries ih =>
    rw [List.foldl_cons, addOnce]
    by_cases hmem : entry ∈ files
    · rw [if_pos hmem, ih, List.filter_cons_of_neg (by simpa using hmem)]
    · rw [if_neg hmem, ih, List.filter_cons_of_pos (by simpa using hmem), List.eraseDups_cons,
        List.filter_filter, List.append_assoc]
      refine congrArg (files ++ entry :: List.eraseDups ·) (List.filter_congr fun other _ => ?_)
      by_cases hother : other = entry <;> simp [hother]

/-- Entries that are listed are not listed again. -/
theorem foldl_addOnce_of_subset {entries files : List String}
    (h : ∀ entry ∈ entries, entry ∈ files) : entries.foldl addOnce files = files := by
  induction entries with
  | nil => rfl
  | cons entry entries ih =>
    rw [List.foldl_cons, addOnce, if_pos (h entry List.mem_cons_self)]
    exact ih fun other hother => h other (List.mem_cons_of_mem _ hother)

theorem texts?_strings (texts : List String) :
    Manifest.texts? (.array (texts.map .string)) = some texts := by
  show (texts.map Json.string).mapM Json.string? = some texts
  induction texts with
  | nil => rfl
  | cons text texts ih =>
    rw [List.map_cons, List.mapM_cons, ih]
    rfl

/-- Files can be listed exactly in a list of strings. -/
theorem apply_addFiles_eq_ok_iff {entries : List String} {m changed : Manifest} :
    (addFiles entries).apply m = .ok changed ↔ ∃ files, m.files? = some files ∧
      changed = m.set "files" (.array ((entries.foldl addOnce files).map .string)) := by
  unfold apply Manifest.files?
  dsimp only
  cases m.get? "files" with
  | none => exact iff_of_false nofun (by rintro ⟨_, h, -⟩; cases h)
  | some value =>
    dsimp only [Option.bind_some]
    cases Manifest.texts? value with
    | none => exact iff_of_false nofun (by rintro ⟨_, h, -⟩; cases h)
    | some files =>
      constructor
      · intro h
        cases h
        exact ⟨files, rfl, rfl⟩
      · rintro ⟨_, h, rfl⟩
        cases h
        rfl

/-- A list to which the files were added stays as it is. -/
theorem apply_addFiles_again {entries files : List String} {m : Manifest}
    (h : m.get? "files" = some (.array ((entries.foldl addOnce files).map .string))) :
    (addFiles entries).apply m = .ok m := by
  have hfiles : m.files? = some (entries.foldl addOnce files) := by
    unfold Manifest.files?
    rw [h]
    exact texts?_strings _
  refine apply_addFiles_eq_ok_iff.mpr ⟨_, hfiles, ?_⟩
  rw [foldl_addOnce_of_subset fun entry hentry => mem_foldl_addOnce.mpr (.inl hentry)]
  exact congrArg Manifest.mk (Fields.set_of_get? h).symm

/-- In a string no files can be listed. -/
theorem apply_addFiles_string {entries : List String} {m : Manifest} {text : String}
    (h : m.get? "files" = some (.string text)) : (addFiles entries).apply m =
      .error (.validation (.fieldType "augment-files" "files" "an array of strings")) := by
  unfold apply
  dsimp only
  rw [h]
  rfl

/-! ### Setting fields -/

/-- The fields that are set to strings. -/
def stringFields (fields : List (String × String)) : Fields Json :=
  fields.map fun field => (field.1, .string field.2)

theorem keys_stringFields (fields : List (String × String)) :
    (stringFields fields).keys = fields.map Prod.fst := by
  unfold stringFields Fields.keys
  rw [List.map_map]
  rfl

theorem apply_setField_eq_ok_iff {key value : String} {m changed : Manifest} :
    (setField key value).apply m = .ok changed ↔
      Text.isBlankText key = false ∧ changed = m.set key (.string value) := by
  unfold apply
  dsimp only
  split
  · next hblank =>
    refine iff_of_false nofun fun h => ?_
    rw [hblank] at h
    cases h.1
  · next hkey =>
    constructor
    · intro h
      cases h
      exact ⟨by simpa using hkey, rfl⟩
    · rintro ⟨-, rfl⟩
      rfl

/-- Fields are set one after the other, unless one of the keys is blank. -/
theorem applyAll_setField_eq_ok_iff {fields : List (String × String)} {m changed : Manifest} :
    applyAll (fields.map fun (key, value) => .setField key value) m = .ok changed ↔
      (∀ field ∈ fields, Text.isBlankText field.1 = false) ∧
        changed = ⟨m.fields.setAll (stringFields fields)⟩ := by
  induction fields generalizing m with
  | nil =>
    refine ⟨fun h => ?_, fun h => ?_⟩
    · cases h
      exact ⟨nofun, rfl⟩
    · rw [h.2]
      rfl
  | cons field fields ih =>
    obtain ⟨key, value⟩ := field
    rw [List.map_cons, applyAll, bind_eq_ok, List.forall_mem_cons]
    constructor
    · rintro ⟨next, hnext, hrest⟩
      obtain ⟨hkey, rfl⟩ := apply_setField_eq_ok_iff.mp hnext
      obtain ⟨hkeys, hchanged⟩ := ih.mp hrest
      exact ⟨⟨hkey, hkeys⟩, hchanged⟩
    · rintro ⟨⟨hkey, hkeys⟩, hchanged⟩
      exact ⟨_, apply_setField_eq_ok_iff.mpr ⟨hkey, rfl⟩, ih.mpr ⟨hkeys, hchanged⟩⟩

/-! ### One change again -/

/-- Of the entries that are to be listed only the first of each kind counts. -/
theorem foldl_addOnce_repeated {front repeated : List String}
    (h : ∀ entry ∈ repeated, entry ∈ front) (back files : List String) :
    (front ++ repeated ++ back).foldl addOnce files = (front ++ back).foldl addOnce files := by
  -- whatever was listed before, all of `front` is there when its repetitions come
  have hlisted : ∀ entry ∈ repeated, entry ∈ front.foldl addOnce files := by
    intro entry hentry
    exact mem_foldl_addOnce.mpr (.inl (h entry hentry))
  simp only [List.foldl_append]
  rw [foldl_addOnce_of_subset hlisted]

/-- Steps that add the same to every list are the same. -/
theorem apply_addFiles_congr {entries others : List String}
    (h : ∀ files, entries.foldl addOnce files = others.foldl addOnce files) (m : Manifest) :
    (addFiles entries).apply m = (addFiles others).apply m := by
  unfold apply name
  simp only [h]

/-- A change that does not touch the name of the package makes no difference when it is made again:
    the manifest stays as it is, with the same fields in the same order.

    - Behind the files that were listed come those that were not, each of them once, however often
      the step or the list names it; made again, the step finds them all.
    - A field that is set, whichever it is, holds the string; made again, the change sets the same.
    - A step that lists files is the same step, refusals included, when entries are repeated
      anywhere behind their first place. -/
theorem apply_again (m changed : Manifest) :
    (∀ entries, (addFiles entries).apply m = .ok changed →
      (∃ files, m.files? = some files ∧
        changed.files? = some (files ++ (entries.filter (· ∉ files)).eraseDups)) ∧
      (addFiles entries).apply changed = .ok changed) ∧
    (∀ key value, (setField key value).apply m = .ok changed →
      changed.get? key = some (.string value) ∧
      (setField key value).apply changed = .ok changed) ∧
    (∀ front repeated back, (∀ entry ∈ repeated, entry ∈ front) →
      (addFiles (front ++ repeated ++ back)).apply m = (addFiles (front ++ back)).apply m) := by
  refine ⟨?_, ?_, ?_⟩
  · intro entries h
    obtain ⟨files, hfiles, rfl⟩ := apply_addFiles_eq_ok_iff.mp h
    have hget : (m.set "files" (.array ((entries.foldl addOnce files).map .string))).get? "files" =
        some (.array ((entries.foldl addOnce files).map .string)) := Fields.get?_set_self _ _ _
    refine ⟨⟨files, hfiles, ?_⟩, apply_addFiles_again hget⟩
    rw [← foldl_addOnce]
    unfold Manifest.files?
    rw [hget]
    exact texts?_strings _
  · intro key value h
    obtain ⟨hkey, rfl⟩ := apply_setField_eq_ok_iff.mp h
    have hget : (m.set key (.string value)).get? key = some (.string value) :=
      Fields.get?_set_self _ _ _
    -- the value is there already, so setting it keeps its place
    have hsame : (m.set key (.string value)).set key (.string value) = m.set key (.string value) :=
      congrArg Manifest.mk (Fields.set_of_get? hget)
    exact ⟨hget, apply_setField_eq_ok_iff.mpr ⟨hkey, hsame.symm⟩⟩
  · intro front repeated back h
    exact apply_addFiles_congr (foldl_addOnce_repeated h back) m

/-- A manifest whose list of files names one of them twice. -/
def twiceListed : Manifest :=
  ⟨[("files", .array [.string "a", .string "a"]), ("name", .string "n")]⟩

theorem apply_twiceListed_again :
    (∃ changed, (addFiles ["b", "a", "b"]).apply twiceListed = .ok changed ∧
      changed.files? = some ["a", "a", "b"] ∧
      (addFiles ["b", "a", "b"]).apply changed = .ok changed) ∧
    (∃ changed, (setField "files" "a").apply twiceListed = .ok changed ∧
      (setField "files" "a").apply changed = .ok changed) ∧
    (addFiles ["b", "a", "b"]).apply twiceListed = (addFiles ["b", "a"]).apply twiceListed := by
  refine ⟨⟨⟨[("files", .array [.string "a", .string "a", .string "b"]), ("name", .string "n")]⟩,
    by decide, by decide, ?_⟩, ⟨⟨[("files", .string "a"), ("name", .string "n")]⟩, by decide, ?_⟩, ?_⟩
  · exact ((apply_again twiceListed _).1 ["b", "a", "b"] (by decide)).2
  · exact ((apply_again twiceListed _).2.1 "files" "a" (by decide)).2
  · exact (apply_again twiceListed twiceListed).2.2 ["b", "a"] ["b"] [] (by decide)

/-! ### Both -/

theorem applyAll_append (front back : List Edit) (m : Manifest) :
    applyAll (front ++ back) m = applyAll front m >>= applyAll back := by
  induction front generalizing m with
  | nil => rfl
  | cons edit front ih =>
    rw [List.cons_append, applyAll, applyAll]
    cases edit.apply m with
    | error failure => rfl
    | ok next => exact ih next

end Edit

/-! ### The changes of a release -/

namespace Settings

variable {s : Settings} {loaded m : Manifest}

/-- Without a change of name files are listed first, and then fields are set. -/
theorem applyAll_edits_eq_ok_iff (hrename : s.rename? = none) :
    Edit.applyAll s.edits loaded = .ok m ↔ ∃ listed,
      Edit.applyAll (if s.addFiles.isEmpty then [] else [.addFiles s.addFiles]) loaded = .ok listed ∧
        (∀ field ∈ s.setFields, Text.isBlankText field.1 = false) ∧
          m = ⟨listed.fields.setAll (Edit.stringFields s.setFields)⟩ := by
  have hedits : s.edits = (if s.addFiles.isEmpty then [] else [.addFiles s.addFiles]) ++
      s.setFields.map fun (key, value) => .setField key value := by
    unfold edits
    rw [hrename]
    rfl
  rw [hedits, Edit.applyAll_append, bind_eq_ok]
  exact exists_congr fun listed => and_congr_right fun _ => Edit.applyAll_setField_eq_ok_iff

/-- The same changes change nothing the second time, unless files are to be listed and the list of
    files is set. -/
theorem applyAll_again (hrename : s.rename? = none) (hnodup : loaded.fields.keys.Nodup)
    (hedits : Edit.applyAll s.edits loaded = .ok m)
    (hapart : s.addFiles = [] ∨ "files" ∉ s.setFields.map Prod.fst) :
    Edit.applyAll s.edits m = .ok m := by
  obtain ⟨listed, hlisted, hkeys, rfl⟩ := (applyAll_edits_eq_ok_iff hrename).mp hedits
  rw [applyAll_edits_eq_ok_iff hrename]
  by_cases hnone : s.addFiles = []
  · rw [hnone] at hlisted
    cases hlisted
    rw [hnone]
    exact ⟨_, rfl, hkeys, by rw [Fields.setAll_setAll hnodup]⟩
  · have hsome : ¬ s.addFiles.isEmpty = true := by simpa using hnone
    rw [if_neg hsome] at hlisted
    obtain ⟨_, happly, hlisted⟩ := bind_eq_ok.mp hlisted
    cases hlisted
    obtain ⟨files, -, hlisted⟩ := Edit.apply_addFiles_eq_ok_iff.mp happly
    have hnodup : listed.fields.keys.Nodup := by
      rw [hlisted]
      exact Fields.nodup_keys_set hnodup
    refine ⟨_, ?_, hkeys, congrArg Manifest.mk (Fields.setAll_setAll hnodup).symm⟩
    -- no field that is set touches the list
    have hfree : "files" ∉ (Edit.stringFields s.setFields).keys := by
      rw [Edit.keys_stringFields]
      exact hapart.resolve_left hnone
    have hget : Manifest.get? ⟨listed.fields.setAll (Edit.stringFields s.setFields)⟩ "files" =
        some (.array ((s.addFiles.foldl Edit.addOnce files).map .string)) := by
      unfold Manifest.get?
      rw [Fields.get?_setAll_of_notMem hfree, hlisted]
      exact Fields.get?_set_self _ _ _
    rw [if_neg hsome]
    exact bind_eq_ok.mpr ⟨_, Edit.apply_addFiles_again hget, rfl⟩

/-- If files are to be listed and the list of files is set, the changes are refused the second
    time. -/
theorem applyAll_refused (hrename : s.rename? = none)
    (hedits : Edit.applyAll s.edits loaded = .ok m) (hfiles : s.addFiles ≠ [])
    (hset : "files" ∈ s.setFields.map Prod.fst) : Edit.applyAll s.edits m =
      .error (.validation (.fieldType "augment-files" "files" "an array of strings")) := by
  obtain ⟨listed, -, -, rfl⟩ := (applyAll_edits_eq_ok_iff hrename).mp hedits
  rw [← Edit.keys_stringFields] at hset
  obtain ⟨value, hmem, hget⟩ := @Fields.exists_get?_setAll _ listed.fields _ _ hset
  obtain ⟨⟨_, text⟩, -, hvalue⟩ := List.mem_map.mp hmem
  obtain rfl := (Prod.mk.inj hvalue).2
  have hstring : Manifest.get? ⟨listed.fields.setAll (Edit.stringFields s.setFields)⟩ "files" =
      some (.string text) := hget
  unfold edits
  rw [hrename, if_neg (by simpa using hfiles)]
  have hrefused := @Edit.apply_addFiles_string s.addFiles _ _ hstring
  rw [Edit.applyAll_append]
  show (do Edit.applyAll [] (← (Edit.addFiles s.addFiles).apply _)) >>= _ = _
  rw [hrefused]
  rfl

end Settings

end PackageRelease
