import PackageRelease.Proofs.Manifest.Editing

/-! # What the changes of a release do

  The changes of a release are a new name, further files and single fields, in this order. The key
  idea: the first two meet different fields and each needs something of its own field, so the
  conditions can be read off the manifest before any change; the single fields come last and win
  over both. So the changes are described in three parts: when they can be made, what is said when
  they cannot, and what every field holds afterwards.
-/

namespace PackageRelease

/-! ### Keys and values after setting fields -/

namespace Fields

variable {α : Type} {fields changes : Fields α} {key : String}

/-- A key that is set is there once more only if it was not there. -/
theorem keys_set (fields : Fields α) (key : String) (value : α) :
    (fields.set key value).keys = Edit.addOnce fields.keys key := by
  unfold Edit.addOnce
  split
  · next h => exact keys_set_of_mem h
  · next h =>
    rw [set_of_notMem h]
    exact List.map_append

/-- Keys that are not there come behind the others, each at its first place. -/
theorem keys_setAll_eq (fields changes : Fields α) : (fields.setAll changes).keys =
    fields.keys ++ (changes.keys.filter (· ∉ fields.keys)).eraseDups := by
  rw [← Edit.foldl_addOnce]
  induction changes generalizing fields with
  | nil => rfl
  | cons change changes ih =>
    rw [setAll_cons, ih, keys_set]
    rfl

/-- A key has the value that it is set to last, else the one that it had. -/
theorem get?_setAll (fields changes : Fields α) (key : String) :
    (fields.setAll changes).get? key = (changes.reverse.lookup key).or (fields.get? key) := by
  induction changes generalizing fields with
  | nil => rfl
  | cons change changes ih =>
    obtain ⟨k, v⟩ := change
    have hfirst : ((fields.set k v).get? key) = ([(k, v)].lookup key).or (fields.get? key) := by
      by_cases hk : key = k
      · subst hk
        rw [get?_set_self, List.lookup_cons_self]
        rfl
      · rw [get?_set_of_ne hk, List.lookup_cons, beq_eq_false_iff_ne.mpr hk]
        rfl
    rw [setAll_cons, ih, List.reverse_cons, List.lookup_append, hfirst, Option.or_assoc]

end Fields

/-! ### Conditions of single changes -/

/-- Texts are those of a list of strings. -/
theorem Manifest.texts?_eq_some_iff {value : Json} {texts : List String} :
    texts? value = some texts ↔ value = .array (texts.map .string) := by
  constructor
  · intro h
    cases value with
    | array items =>
      refine congrArg Json.array ?_
      replace h : items.mapM Json.string? = some texts := h
      induction items generalizing texts with
      | nil =>
        cases h
        rfl
      | cons item items ih =>
        rw [List.mapM_cons] at h
        obtain ⟨text, htext, h⟩ := Option.bind_eq_some_iff.mp h
        obtain ⟨rest, hrest, h⟩ := Option.bind_eq_some_iff.mp h
        cases h
        cases item with
        | string other =>
          cases htext
          exact congrArg (_ :: ·) (ih hrest)
        | _ => cases htext
    | _ => cases h
  · rintro rfl
    exact Edit.texts?_strings texts

namespace Edit

theorem lookup_reverse_stringFields (fields : List (String × String)) (key : String) :
    (stringFields fields).reverse.lookup key = (fields.reverse.lookup key).map .string := by
  unfold stringFields
  rw [← List.map_reverse]
  induction fields.reverse with
  | nil => rfl
  | cons field rest ih =>
    rw [List.map_cons, List.lookup_cons, List.lookup_cons, ih]
    cases key == field.1 <;> rfl

theorem applyAll_of_apply_error {edit : Edit} {m : Manifest} {failure : Failure}
    (h : edit.apply m = .error failure) (rest : List Edit) :
    applyAll (edit :: rest) m = .error failure := by
  rw [applyAll, h]
  rfl

theorem applyAll_append_of_ok {front : List Edit} {m next : Manifest}
    (h : applyAll front m = .ok next) (back : List Edit) :
    applyAll (front ++ back) m = applyAll back next := by
  rw [applyAll_append, h]
  rfl

/-- What is said about a field without a name. -/
def blankKey : Failure :=
  .validation (.invalidValue "set-field key" "field name must not be empty")

/-- A blank key among others is refused, wherever it stands. -/
theorem applyAll_setField_of_blank {fields : List (String × String)}
    (h : ∃ field ∈ fields, Text.isBlankText field.1 = true) (m : Manifest) :
    applyAll (fields.map fun (key, value) => .setField key value) m = .error blankKey := by
  induction fields generalizing m with
  | nil =>
    obtain ⟨_, hmem, -⟩ := h
    cases hmem
  | cons field fields ih =>
    obtain ⟨key, value⟩ := field
    rw [List.map_cons]
    by_cases hkey : Text.isBlankText key = true
    · refine applyAll_of_apply_error ?_ _
      unfold apply
      dsimp only
      rw [if_pos hkey]
      rfl
    · obtain ⟨field, hmem, hblank⟩ := h
      have hrest : field ∈ fields := by
        refine (List.mem_cons.mp hmem).resolve_left ?_
        rintro rfl
        exact hkey hblank
      have hset : (setField key value).apply m = .ok (m.set key (.string value)) :=
        apply_setField_eq_ok_iff.mpr ⟨by simpa using hkey, rfl⟩
      rw [applyAll, hset]
      exact ih ⟨field, hrest, hblank⟩ _

end Edit

/-! ### The changes of a release -/

namespace Settings

variable {s : Settings} {m : Manifest}

/-- What the changes need of a manifest, and of the fields to set. -/
structure Permits (s : Settings) (m : Manifest) : Prop where
  /-- The name is a string, and the one that a change of name expects. -/
  name : ∀ rule, s.rename? = some rule → m.get? "name" = some (.string rule.source)
  /-- If there are files to list, they are listed in an array of strings. -/
  files : s.addFiles ≠ [] → ∃ files : List String,
    m.get? "files" = some (.array (files.map .string))
  /-- No key is blank. -/
  keys : ∀ field ∈ s.setFields, Text.isBlankText field.1 = false

/-- What is said about the first condition that a manifest does not meet. -/
inductive Obstacle (s : Settings) (m : Manifest) : Failure → Prop where
  /-- There is no name to change. -/
  | nameMissing {rule : RenameRule} (hrule : s.rename? = some rule)
      (hname : m.get? "name" = none) :
      Obstacle s m (.validation (.missingField "rename" "name"))
  /-- The name is no string. -/
  | nameType {rule : RenameRule} {value : Json} (hrule : s.rename? = some rule)
      (hname : m.get? "name" = some value) (htype : ∀ text, value ≠ .string text) :
      Obstacle s m (.validation (.fieldType "rename" "name" "a string"))
  /-- The name is another one. -/
  | nameDiffers {rule : RenameRule} {found : String} (hrule : s.rename? = some rule)
      (hname : m.get? "name" = some (.string found)) (hne : found ≠ rule.source) :
      Obstacle s m (.validation (.nameMismatch rule.source found))
  /-- There is no list of files. -/
  | filesMissing
      (hname : ∀ rule, s.rename? = some rule → m.get? "name" = some (.string rule.source))
      (hadd : s.addFiles ≠ []) (hfiles : m.get? "files" = none) :
      Obstacle s m (.validation (.missingField "augment-files" "files"))
  /-- The list of files is no array of strings. -/
  | filesType {value : Json}
      (hname : ∀ rule, s.rename? = some rule → m.get? "name" = some (.string rule.source))
      (hadd : s.addFiles ≠ []) (hfiles : m.get? "files" = some value)
      (htype : ∀ files : List String, value ≠ .array (files.map .string)) :
      Obstacle s m (.validation (.fieldType "augment-files" "files" "an array of strings"))
  /-- A key is blank. -/
  | keyBlank {field : String × String}
      (hname : ∀ rule, s.rename? = some rule → m.get? "name" = some (.string rule.source))
      (hfiles : s.addFiles ≠ [] → ∃ files : List String,
        m.get? "files" = some (.array (files.map .string)))
      (hmem : field ∈ s.setFields) (hblank : Text.isBlankText field.1 = true) :
      Obstacle s m (.validation (.invalidValue "set-field key" "field name must not be empty"))

/-- What every field holds after the changes. -/
structure Edited (s : Settings) (m changed : Manifest) : Prop where
  /-- The keys keep their places; those that were not there come behind, in the order in which they
      are first set. -/
  keys : changed.keys = m.keys ++ ((s.setFields.map Prod.fst).filter (· ∉ m.keys)).eraseDups
  /-- A field that is set has the value that it is set to last. -/
  set : ∀ key value, s.setFields.reverse.lookup key = some value →
    changed.get? key = some (.string value)
  /-- Else the name is the new one. -/
  name : ∀ rule, s.rename? = some rule → "name" ∉ s.setFields.map Prod.fst →
    changed.get? "name" = some (.string rule.target)
  /-- Else the list of files is the old one, repeated entries included, and behind it are the
      further files that are not in it, each at its first place. -/
  files : s.addFiles ≠ [] → "files" ∉ s.setFields.map Prod.fst → ∃ files : List String,
    m.get? "files" = some (.array (files.map .string)) ∧
      changed.get? "files" =
        some (.array ((files ++ (s.addFiles.filter (· ∉ files)).eraseDups).map .string))
  /-- Every other field has the value that it had. -/
  kept : ∀ key, key ∉ s.setFields.map Prod.fst → (key = "name" → s.rename? = none) →
    (key = "files" → s.addFiles = []) → changed.get? key = m.get? key

/-! ### One kind of change after the other -/

/-- The change of name, if there is one. -/
def renames (s : Settings) : List Edit :=
  s.rename?.toList.map fun rule => .rename rule.source rule.target

/-- The change of the list of files, if there is one. -/
def listings (s : Settings) : List Edit :=
  if s.addFiles.isEmpty then [] else [.addFiles s.addFiles]

theorem edits_eq (s : Settings) : s.edits = s.renames ++
    (s.listings ++ s.setFields.map fun (key, value) => .setField key value) :=
  List.append_assoc _ _ _

/-- What a group of changes to one field has done: the field was there, and it is set if the group
    has a change. -/
structure Changes (m changed : Manifest) (key : String) (value? : Option Json) : Prop where
  /-- The keys are the same. -/
  keys : changed.keys = m.keys
  /-- The field has its new value. -/
  present : ∀ value, value? = some value → changed.get? key = some value
  /-- Every other field has the value that it had, and so has this one without a change. -/
  kept : ∀ other, (other = key → value? = none) → changed.get? other = m.get? other

theorem changes_refl (m : Manifest) (key : String) : Changes m m key none :=
  ⟨rfl, nofun, fun _ _ => rfl⟩

theorem changes_set {key : String} {old : Json} (h : m.get? key = some old) (value : Json) :
    Changes m (m.set key value) key (some value) := by
  have hmem : key ∈ m.fields.keys := (Fields.isSome_get?_iff m.fields key).mp (by
    rw [show m.fields.get? key = some old from h]
    rfl)
  refine ⟨Fields.keys_set_of_mem hmem, ?_, fun other hother => ?_⟩
  · rintro _ ⟨⟩
    exact Fields.get?_set_self _ _ _
  · refine Fields.get?_set_of_ne (fun heq => ?_) _ _
    cases hother heq

/-- A name that is expected is changed. -/
theorem exists_renamed
    (h : ∀ rule, s.rename? = some rule → m.get? "name" = some (.string rule.source)) :
    ∃ named, Edit.applyAll s.renames m = .ok named ∧
      Changes m named "name" (s.rename?.map fun rule => .string rule.target) := by
  unfold renames
  cases hrule : s.rename? with
  | none => exact ⟨m, rfl, changes_refl m "name"⟩
  | some rule =>
    have hname := h rule hrule
    have happly : (Edit.rename rule.source rule.target).apply m =
        .ok (m.set "name" (.string rule.target)) := by
      unfold Edit.apply
      dsimp only
      rw [hname]
      exact if_pos rfl
    refine ⟨_, ?_, changes_set hname (.string rule.target)⟩
    show Edit.applyAll [.rename rule.source rule.target] m = _
    rw [Edit.applyAll, happly]
    rfl

/-- Files are listed behind those that are listed in an array of strings. -/
theorem exists_listed (h : s.addFiles ≠ [] → ∃ files : List String,
      m.get? "files" = some (.array (files.map .string))) :
    ∃ listed value?, Edit.applyAll s.listings m = .ok listed ∧ Changes m listed "files" value? ∧
      (s.addFiles = [] → value? = none) ∧
      (s.addFiles ≠ [] → ∃ files : List String,
        m.get? "files" = some (.array (files.map .string)) ∧
        value? = some
          (.array ((files ++ (s.addFiles.filter (· ∉ files)).eraseDups).map .string))) := by
  unfold listings
  by_cases hadd : s.addFiles = []
  · rw [if_pos (by simpa using hadd)]
    exact ⟨m, none, rfl, changes_refl m "files", fun _ => rfl, fun hne => absurd hadd hne⟩
  · rw [if_neg (by simpa using hadd)]
    obtain ⟨files, hfiles⟩ := h hadd
    have hlist : m.files? = some files := by
      unfold Manifest.files?
      rw [hfiles]
      exact Edit.texts?_strings files
    have happly := @Edit.apply_addFiles_eq_ok_iff s.addFiles m _ |>.mpr ⟨files, hlist, rfl⟩
    rw [Edit.foldl_addOnce] at happly
    refine ⟨_, _, ?_, changes_set hfiles _, fun hnone => absurd hnone hadd,
      fun _ => ⟨files, hfiles, rfl⟩⟩
    rw [Edit.applyAll, happly]
    rfl

/-- Changing the name does not touch the list of files. -/
theorem Changes.get?_files {named : Manifest} {value? : Option Json}
    (h : Changes m named "name" value?) : named.get? "files" = m.get? "files" :=
  h.kept "files" fun heq => absurd heq (by decide)

/-! ### All changes -/

/-- If the conditions are met, the changes are made. -/
theorem exists_edited (h : s.Permits m) :
    ∃ changed, Edit.applyAll s.edits m = .ok changed ∧ s.Edited m changed := by
  obtain ⟨named, hrenames, hnamed⟩ := exists_renamed h.name
  have hsame := hnamed.get?_files
  obtain ⟨listed, value?, hlistings, hlisted, hnone, hsome⟩ :=
    @exists_listed s named (by rw [hsame]; exact h.files)
  have hkeys : listed.keys = m.keys := hlisted.keys.trans hnamed.keys
  have hset : Edit.applyAll s.edits m =
      .ok ⟨listed.fields.setAll (Edit.stringFields s.setFields)⟩ := by
    rw [edits_eq, Edit.applyAll_append_of_ok hrenames, Edit.applyAll_append_of_ok hlistings]
    exact Edit.applyAll_setField_eq_ok_iff.mpr ⟨h.keys, rfl⟩
  -- a field that is not set at the end has the value after the other changes
  have hbefore : ∀ key, key ∉ s.setFields.map Prod.fst →
      Manifest.get? ⟨listed.fields.setAll (Edit.stringFields s.setFields)⟩ key =
        listed.get? key := by
    intro key hkey
    rw [← Edit.keys_stringFields] at hkey
    exact Fields.get?_setAll_of_notMem hkey
  refine ⟨_, hset, ?_, fun key value hvalue => ?_, fun rule hrule hfree => ?_,
    fun hadd hfree => ?_, fun key hfree hname hfiles => ?_⟩
  · show Fields.keys _ = _
    rw [Fields.keys_setAll_eq, Edit.keys_stringFields, show listed.fields.keys = m.keys from hkeys]
  · show Fields.get? _ key = _
    rw [Fields.get?_setAll, Edit.lookup_reverse_stringFields, hvalue]
    rfl
  · rw [hbefore _ hfree, hlisted.kept "name" fun heq => absurd heq (by decide)]
    exact hnamed.present _ (by rw [hrule]; rfl)
  · obtain ⟨files, hfiles, hvalue⟩ := hsome hadd
    refine ⟨files, hsame.symm.trans hfiles, ?_⟩
    rw [hbefore _ hfree]
    exact hlisted.present _ hvalue
  · rw [hbefore _ hfree, hlisted.kept key fun heq => hnone (hfiles heq)]
    exact hnamed.kept key fun heq => by rw [hname heq]; rfl

/-- A failure of the first change is that of the whole sequence. -/
theorem applyAll_of_rename_error {rule : RenameRule} {failure : Failure}
    (hrule : s.rename? = some rule)
    (happly : (Edit.rename rule.source rule.target).apply m = .error failure) :
    Edit.applyAll s.edits m = .error failure := by
  have hrenames : s.renames = [.rename rule.source rule.target] := by
    unfold renames
    rw [hrule]
    rfl
  rw [edits_eq, hrenames]
  exact Edit.applyAll_of_apply_error happly _

/-- Behind the change of the name the list of files is the old one, so it is what decides whether
    files can be listed. -/
theorem applyAll_of_addFiles_error {failure : Failure}
    (hname : ∀ rule, s.rename? = some rule → m.get? "name" = some (.string rule.source))
    (hadd : s.addFiles ≠ []) (happly : ∀ named : Manifest, named.get? "files" = m.get? "files" →
      (Edit.addFiles s.addFiles).apply named = .error failure) :
    Edit.applyAll s.edits m = .error failure := by
  obtain ⟨named, hrenames, hnamed⟩ := exists_renamed hname
  have hlistings : s.listings = [.addFiles s.addFiles] := if_neg (by simpa using hadd)
  rw [edits_eq, Edit.applyAll_append_of_ok hrenames, hlistings]
  exact Edit.applyAll_of_apply_error (happly named hnamed.get?_files) _

/-- If a condition is not met, the first such is what the changes fail with. -/
theorem applyAll_of_obstacle {failure : Failure} (h : s.Obstacle m failure) :
    Edit.applyAll s.edits m = .error failure := by
  cases h with
  | nameMissing hrule hname =>
    refine applyAll_of_rename_error hrule ?_
    unfold Edit.apply
    dsimp only
    rw [hname]
    rfl
  | @nameType rule value hrule hname htype =>
    refine applyAll_of_rename_error hrule ?_
    unfold Edit.apply
    dsimp only
    rw [hname]
    cases value with
    | string text => exact absurd rfl (htype text)
    | _ => rfl
  | nameDiffers hrule hname hne =>
    refine applyAll_of_rename_error hrule ?_
    unfold Edit.apply
    dsimp only
    rw [hname]
    exact if_neg hne
  | filesMissing hname hadd hfiles =>
    refine applyAll_of_addFiles_error hname hadd fun named hsame => ?_
    unfold Edit.apply
    dsimp only
    rw [hsame, hfiles]
    rfl
  | @filesType value hname hadd hfiles htype =>
    refine applyAll_of_addFiles_error hname hadd fun named hsame => ?_
    have htexts : Manifest.texts? value = none :=
      Option.eq_none_iff_forall_ne_some.mpr fun files hsome =>
        htype files (Manifest.texts?_eq_some_iff.mp hsome)
    unfold Edit.apply
    dsimp only
    rw [hsame, hfiles]
    dsimp only
    rw [htexts]
    rfl
  | keyBlank hname hfiles hmem hblank =>
    -- the fields are set last, behind a name and a list that are in order
    obtain ⟨named, hrenames, hnamed⟩ := exists_renamed hname
    obtain ⟨listed, _, hlistings, -⟩ :=
      @exists_listed s named (by rw [hnamed.get?_files]; exact hfiles)
    rw [edits_eq, Edit.applyAll_append_of_ok hrenames, Edit.applyAll_append_of_ok hlistings]
    exact Edit.applyAll_setField_of_blank ⟨_, hmem, hblank⟩ listed

/-- The conditions are met, or there is a first one that is not. -/
theorem permits_or_obstacle (s : Settings) (m : Manifest) :
    s.Permits m ∨ ∃ failure, s.Obstacle m failure := by
  by_cases hname : ∀ rule, s.rename? = some rule → m.get? "name" = some (.string rule.source)
  · by_cases hfiles : s.addFiles ≠ [] → ∃ files : List String,
        m.get? "files" = some (.array (files.map .string))
    · by_cases hkeys : ∀ field ∈ s.setFields, Text.isBlankText field.1 = false
      · exact .inl ⟨hname, hfiles, hkeys⟩
      · obtain ⟨field, hmem, hblank⟩ : ∃ field ∈ s.setFields,
            Text.isBlankText field.1 = true := by simpa using hkeys
        exact .inr ⟨_, .keyBlank hname hfiles hmem hblank⟩
    · obtain ⟨hadd, hnone⟩ := Classical.not_imp.mp hfiles
      cases hvalue : m.get? "files" with
      | none => exact .inr ⟨_, .filesMissing hname hadd hvalue⟩
      | some value =>
        refine .inr ⟨_, .filesType hname hadd hvalue fun files heq => hnone ⟨files, ?_⟩⟩
        rw [hvalue, heq]
  · obtain ⟨rule, hrest⟩ := Classical.not_forall.mp hname
    obtain ⟨hrule, hne⟩ := Classical.not_imp.mp hrest
    cases hvalue : m.get? "name" with
    | none => exact .inr ⟨_, .nameMissing hrule hvalue⟩
    | some value =>
      by_cases htype : ∃ found, value = .string found
      · obtain ⟨found, rfl⟩ := htype
        refine .inr ⟨_, .nameDiffers hrule hvalue fun heq => hne ?_⟩
        rw [hvalue, heq]
      · exact .inr ⟨_, .nameType hrule hvalue fun text heq => htype ⟨text, heq⟩⟩

/-- The changes of a release can be made exactly if a change of name finds the name that it expects,
    files to list find an array of strings, and no key to set is blank. They fail exactly with what
    is said about the first of these conditions that is not met. Where they are made, every field is
    as the changes say, and all others are as they were. -/
theorem edited_of_applyAll (s : Settings) (m : Manifest) :
    ((∃ changed, Edit.applyAll s.edits m = .ok changed) ↔ s.Permits m) ∧
    (∀ failure, Edit.applyAll s.edits m = .error failure ↔ s.Obstacle m failure) ∧
    ∀ changed, Edit.applyAll s.edits m = .ok changed → s.Edited m changed := by
  rcases permits_or_obstacle s m with hpermits | ⟨failure, hobstacle⟩
  · obtain ⟨changed, hedits, hedited⟩ := exists_edited hpermits
    refine ⟨iff_of_true ⟨changed, hedits⟩ hpermits, fun failure => ?_, fun other hother => ?_⟩
    · refine iff_of_false (fun herror => ?_) fun hobstacle => ?_
      · cases hedits.symm.trans herror
      · cases hedits.symm.trans (applyAll_of_obstacle hobstacle)
    · cases hedits.symm.trans hother
      exact hedited
  · have herror := applyAll_of_obstacle hobstacle
    refine ⟨iff_of_false ?_ fun hpermits => ?_, fun other => ⟨fun hother => ?_, applyAll_of_obstacle⟩,
      fun changed hedits => ?_⟩
    · rintro ⟨changed, hedits⟩
      cases herror.symm.trans hedits
    · obtain ⟨changed, hedits, -⟩ := exists_edited hpermits
      cases herror.symm.trans hedits
    · cases herror.symm.trans hother
      exact hobstacle
    · cases herror.symm.trans hedits

/-- Settings with a change of every kind, in which entries and keys come more than once. -/
def sampleChanges : Settings :=
  { builtIn with
    rename? := some ⟨"a", "b"⟩
    addFiles := ["x", "y", "x"]
    setFields := [("type", "t"), ("main", "m"), ("type", "u")] }

theorem edited_of_sampleChanges :
    Edit.applyAll sampleChanges.edits ⟨[("main", .null), ("name", .string "a"),
        ("files", .array [.string "y", .string "y"])]⟩ =
      .ok ⟨[("main", .string "m"), ("name", .string "b"),
        ("files", .array [.string "y", .string "y", .string "x"]), ("type", .string "u")]⟩ ∧
    sampleChanges.Edited ⟨[("main", .null), ("name", .string "a"),
        ("files", .array [.string "y", .string "y"])]⟩
      ⟨[("main", .string "m"), ("name", .string "b"),
        ("files", .array [.string "y", .string "y", .string "x"]), ("type", .string "u")]⟩ := by
  have hedits : Edit.applyAll sampleChanges.edits ⟨[("main", .null), ("name", .string "a"),
        ("files", .array [.string "y", .string "y"])]⟩ =
      .ok ⟨[("main", .string "m"), ("name", .string "b"),
        ("files", .array [.string "y", .string "y", .string "x"]), ("type", .string "u")]⟩ := by
    decide +kernel
  exact ⟨hedits, (edited_of_applyAll sampleChanges _).2.2 _ hedits⟩

end Settings

end PackageRelease
