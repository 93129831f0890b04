import Mathlib.Data.List.Dedup
import PackageRelease.Proofs.CommandLine.Packing
import PackageRelease.Proofs.Manifest.Changes
import PackageRelease.Proofs.Toml.Distinct

/-! # Fields to set, in layers

  Fields to set come from the table of the settings file and from flags. A flag takes the key out of
  its place and puts it last, so each key is there once and has the value of its last flag. The key
  idea: what setting fields does to a manifest depends only on the last value for each key, so the
  layers do the same as the table followed by all flags, although the keys stand in another order.
-/

namespace PackageRelease

/-! ### The layers -/

section layers
variable (table flags : List (String × String)) (key : String)

/-- Other keys keep their values when a key is taken out. -/
theorem lookup_filter_of_ne {other : String} (h : key ≠ other) :
    (table.filter (·.1 ≠ other)).lookup key = table.lookup key := by
  induction table with
  | nil => rfl
  | cons field table ih =>
    obtain ⟨k, v⟩ := field
    rw [List.lookup_cons, ← ih]
    by_cases hk : k = other
    · rw [List.filter_cons_of_neg (by simpa using hk), hk, beq_eq_false_iff_ne.mpr h]
    · rw [List.filter_cons_of_pos (by simpa using hk), List.lookup_cons]

theorem lookup_setLast (field : String × String) :
    (setLast table field).lookup key = ([field].lookup key).or (table.lookup key) := by
  unfold setLast
  rw [List.lookup_append]
  by_cases hkey : key = field.1
  · have hnone : (table.filter (·.1 ≠ field.1)).lookup key = none := by
      refine Fields.get?_eq_none_iff.mpr fun hmem => ?_
      obtain ⟨other, hother, hsame⟩ := List.mem_map.mp hmem
      exact of_decide_eq_true (List.mem_filter.mp hother).2 (hsame.trans hkey)
    rw [hnone, List.lookup_cons, hkey, beq_self_eq_true]
    rfl
  · rw [lookup_filter_of_ne table key hkey, List.lookup_cons, beq_eq_false_iff_ne.mpr hkey]
    exact Option.or_none

/-- A key has the value of its last flag, else the one in the table. -/
theorem lookup_foldl_setLast : (flags.foldl setLast table).lookup key =
    (flags.reverse.lookup key).or (table.lookup key) := by
  induction flags generalizing table with
  | nil => rfl
  | cons flag flags ih =>
    rw [List.foldl_cons, ih, lookup_setLast, List.reverse_cons, List.lookup_append, Option.or_assoc]

theorem keys_setLast (field : String × String) : (setLast table field).map Prod.fst =
    (table.map Prod.fst).filter (· ≠ field.1) ++ [field.1] := by
  unfold setLast
  rw [List.map_append, List.filter_map]
  rfl

/-- Keys without a flag keep their order in front, and behind them come the others in the order of
    their last flags. -/
theorem keys_foldl_setLast : (flags.foldl setLast table).map Prod.fst =
    (table.map Prod.fst).filter (· ∉ flags.map Prod.fst) ++ (flags.map Prod.fst).dedup := by
  induction flags generalizing table with
  | nil => simp
  | cons flag flags ih =>
    have hothers : (((table.map Prod.fst).filter (· ≠ flag.1)).filter (· ∉ flags.map Prod.fst)) =
        (table.map Prod.fst).filter (· ∉ (flag :: flags).map Prod.fst) := by
      rw [List.filter_filter]
      refine List.filter_congr fun key _ => ?_
      simp only [List.map_cons, List.mem_cons, not_or, Bool.decide_and, Bool.and_comm, ne_eq]
    rw [List.foldl_cons, ih, keys_setLast, List.filter_append, hothers, List.append_assoc,
      List.map_cons]
    refine congrArg ((table.map Prod.fst).filter (· ∉ (flag :: flags).map Prod.fst) ++ ·) ?_
    -- a further flag for the same key comes later
    by_cases hlater : flag.1 ∈ flags.map Prod.fst
    · rw [List.dedup_cons_of_mem hlater, List.filter_cons_of_neg (by simpa using hlater)]
      rfl
    · rw [List.dedup_cons_of_notMem hlater, List.filter_cons_of_pos (by simpa using hlater)]
      rfl

end layers

/-- How fields come about from a table and from flags that are laid over it. -/
structure LaidOver (layered table flags : List (String × String)) : Prop where
  /-- Each key is there once. -/
  nodup : (layered.map Prod.fst).Nodup
  /-- It has the value of its last flag, or without a flag that of the table. -/
  lookup : ∀ key, layered.lookup key = (flags.reverse.lookup key).or (table.lookup key)
  /-- Keys without a flag keep their order and come first, then those with one in the order of their
      last flags. -/
  keys : layered.map Prod.fst =
    (table.map Prod.fst).filter (· ∉ flags.map Prod.fst) ++ (flags.map Prod.fst).dedup

variable {table flags layered : List (String × String)}

theorem laidOver_foldl_setLast (htable : (table.map Prod.fst).Nodup) :
    LaidOver (flags.foldl setLast table) table flags where
  nodup := by
    rw [keys_foldl_setLast, List.nodup_append]
    refine ⟨htable.filter _, List.nodup_dedup _, fun key hkey other hother => ?_⟩
    rintro rfl
    exact of_decide_eq_true (List.mem_filter.mp hkey).2 (List.mem_dedup.mp hother)
  lookup := lookup_foldl_setLast table flags
  keys := keys_foldl_setLast table flags

/-! ### What the layers do to a manifest -/

/-- Two outcomes say the same: both are the same failure, or the manifests have the same value under
    every key. -/
def SameFields (outcome other : Except Failure Manifest) : Prop :=
  match outcome, other with
  | .ok m, .ok m' => ∀ key, m.get? key = m'.get? key
  | .error failure, .error failure' => failure = failure'
  | _, _ => False

/-- The changes that set fields. -/
def Edit.settingAll (fields : List (String × String)) : List Edit :=
  fields.map fun (key, value) => .setField key value

/-- Each key is there once, so it does not matter from which end it is looked for. -/
theorem lookup_reverse_of_nodup {fields : List (String × String)}
    (h : (fields.map Prod.fst).Nodup) (key : String) :
    fields.reverse.lookup key = fields.lookup key := by
  induction fields with
  | nil => rfl
  | cons field fields ih =>
    obtain ⟨k, v⟩ := field
    obtain ⟨hnotMem, hnodup⟩ := List.nodup_cons.mp h
    rw [List.reverse_cons, List.lookup_append, ih hnodup, List.lookup_cons, List.lookup_cons]
    by_cases hkey : key = k
    · have hnone : fields.lookup key = none := by
        rw [hkey]
        exact Fields.get?_eq_none_iff.mpr hnotMem
      rw [hnone, hkey, beq_self_eq_true]
      rfl
    · rw [beq_eq_false_iff_ne.mpr hkey]
      exact Option.or_none

/-- Fields with the same last values for all keys are set with the same result. -/
theorem Edit.sameFields_settingAll {fields others : List (String × String)}
    (h : ∀ key, fields.reverse.lookup key = others.reverse.lookup key) (m : Manifest) :
    SameFields (applyAll (settingAll fields) m) (applyAll (settingAll others) m) := by
  have hkeys (key : String) : key ∈ fields.map Prod.fst ↔ key ∈ others.map Prod.fst := by
    have hmem (list : List (String × String)) :
        key ∈ list.map Prod.fst ↔ (list.reverse.lookup key).isSome = true := by
      rw [← List.mem_reverse, ← List.map_reverse]
      exact (Fields.isSome_get?_iff list.reverse key).symm
    rw [hmem, hmem, h]
  have hblank : (∃ field ∈ fields, Text.isBlankText field.1 = true) ↔
      ∃ field ∈ others, Text.isBlankText field.1 = true := by
    have hkey (list : List (String × String)) : (∃ field ∈ list, Text.isBlankText field.1 = true) ↔
        ∃ key ∈ list.map Prod.fst, Text.isBlankText key = true := by
      simp only [List.mem_map, exists_exists_and_eq_and]
    rw [hkey, hkey]
    simp only [hkeys]
  by_cases hfields : ∃ field ∈ fields, Text.isBlankText field.1 = true
  · unfold settingAll
    rw [applyAll_setField_of_blank hfields, applyAll_setField_of_blank (hblank.mp hfields)]
    exact rfl
  · have hset (list : List (String × String))
        (hlist : ¬ ∃ field ∈ list, Text.isBlankText field.1 = true) :
        applyAll (settingAll list) m = .ok ⟨m.fields.setAll (stringFields list)⟩ :=
      applyAll_setField_eq_ok_iff.mpr ⟨fun field hmem =>
        Bool.eq_false_iff.mpr fun hfield => hlist ⟨field, hmem, hfield⟩, rfl⟩
    rw [hset fields hfields, hset others (mt hblank.mpr hfields)]
    intro key
    unfold Manifest.get?
    rw [Fields.get?_setAll, Fields.get?_setAll, lookup_reverse_stringFields,
      lookup_reverse_stringFields, h]

/-- Behind the same changes they are, too. -/
theorem Edit.sameFields_append {back others : List Edit}
    (h : ∀ m, SameFields (applyAll back m) (applyAll others m)) (front : List Edit) (m : Manifest) :
    SameFields (applyAll (front ++ back) m) (applyAll (front ++ others) m) := by
  rw [applyAll_append, applyAll_append]
  cases applyAll front m with
  | error failure => exact rfl
  | ok next => exact h next

/-- Fields in layers do the same as the table followed by the flags. -/
theorem LaidOver.sameFields (h : LaidOver layered table flags) (htable : (table.map Prod.fst).Nodup)
    (m : Manifest) : SameFields (Edit.applyAll (Edit.settingAll layered) m)
      (Edit.applyAll (Edit.settingAll (table ++ flags)) m) := by
  refine Edit.sameFields_settingAll (fun key => ?_) m
  rw [lookup_reverse_of_nodup h.nodup, h.lookup, List.reverse_append, List.lookup_append,
    lookup_reverse_of_nodup htable]

/-! ### The settings of a command -/

namespace Arguments

variable {arguments : Arguments} {settings : Settings}

/-- The flags of a command line that set fields. -/
def fieldFlags (arguments : Arguments) : List (String × String) :=
  arguments.edits?.elim [] (·.setFields)

theorem setFields_of_layer {environment : Environment} {file : FileSettings}
    (h : arguments.layer environment file = .ok settings) :
    settings.setFields = arguments.fieldFlags.foldl setLast (file.setFields?.getD []) := by
  unfold layer at h
  unfold fieldFlags
  cases hedits : arguments.edits? with
  | none =>
    rw [hedits] at h
    cases h
    cases arguments.upload? <;> rfl
  | some edits =>
    rw [hedits] at h
    obtain ⟨edited, hedited, h⟩ := bind_eq_ok.mp h
    have hset : edited.setFields = edits.setFields.foldl setLast (file.setFields?.getD []) := by
      unfold Settings.withEdits at hedited
      split at hedited
      · cases hedited
        rfl
      · cases hedited
        rfl
      · cases hedited
    cases h
    cases arguments.upload? <;> exact hset

/-- The fields of the settings file have different keys. -/
theorem setsApart_of_readFile {files : FileSystem} {file : FileSettings}
    (h : arguments.readFile files = .ok file) : file.SetsApart := by
  unfold readFile at h
  split at h
  · exact FileSettings.setsApart_of_load h
  · cases h
    exact nofun

/-- A settings file that sets three fields. -/
def fieldFiles : FileSystem where
  entries := [(["c.toml"], .file (Text.encode
    "[set]\nlicense = \"MIT\"\nauthor = \"A\"\nhomepage = \"h\"\n"))]
  workingDirectory := []

/-- Flags for a field of the file and for a new one, which come in turn. -/
def fieldArguments : Arguments where
  configFile? := some ⟨"c.toml"⟩
  artifactDirectory? := none
  manifestPath? := none
  registryAddress? := none
  verbosity := ⟨false, false⟩
  command := .transform ⟨none, none, [], [("author", "B"), ("type", "module"), ("author", "C")]⟩

/-- What they lead to. -/
def fieldSettings : Settings :=
  { Settings.builtIn with
    setFields := [("license", "MIT"), ("homepage", "h"), ("type", "module"), ("author", "C")] }

end Arguments

end PackageRelease
