import PackageRelease.Proofs.Json.Value

/-! # Setting fields

  A field that is set keeps its place or goes to the end. The key idea: an object without repeated
  keys is given by the order of its keys and by the value under each key, so two ways of setting
  fields are compared key by key.
-/

namespace PackageRelease.Fields

variable {α : Type} {fields other : Fields α} {key : String} {value : α}

/-! ### One field -/

theorem get?_eq_none_iff : fields.get? key = none ↔ key ∉ fields.keys := by
  have hsome := isSome_get?_iff fields key
  cases hget : fields.get? key with
  | none =>
    rw [hget] at hsome
    exact iff_of_true rfl fun hmem => Bool.false_ne_true (hsome.mpr hmem)
  | some value =>
    rw [hget] at hsome
    exact iff_of_false nofun fun hnotMem => hnotMem (hsome.mp rfl)

theorem keys_set_of_mem (h : key ∈ fields.keys) : (fields.set key value).keys = fields.keys := by
  induction fields with
  | nil => cases h
  | cons field rest ih =>
    obtain ⟨k, v⟩ := field
    by_cases hk : k = key
    · rw [set, if_pos hk]
      rfl
    · have hrest := (List.mem_cons.mp h).resolve_left (Ne.symm hk)
      rw [set, if_neg hk]
      exact congrArg (k :: ·) (ih hrest)

/-- The value that is there already changes nothing. -/
theorem set_of_get? (h : fields.get? key = some value) : fields.set key value = fields := by
  induction fields with
  | nil => cases h
  | cons field rest ih =>
    obtain ⟨k, v⟩ := field
    unfold get? at h ih
    rw [List.lookup_cons] at h
    by_cases hk : k = key
    · rw [set, if_pos hk]
      rw [show (key == k) = true by simpa using hk.symm] at h
      cases h
      rfl
    · rw [show (key == k) = false by simpa using Ne.symm hk] at h
      rw [set, if_neg hk, ih h]

/-- Without repeated keys an object is given by the order of its keys and the values under them. -/
theorem eq_of_get?_eq (hnodup : fields.keys.Nodup) (hkeys : other.keys = fields.keys)
    (hget : ∀ key, other.get? key = fields.get? key) : other = fields := by
  induction fields generalizing other with
  | nil => exact List.map_eq_nil_iff.mp hkeys
  | cons field rest ih =>
    obtain ⟨k, v⟩ := field
    obtain ⟨⟨k', v'⟩, rest', rfl, hk, hrest⟩ := List.map_eq_cons_iff.mp hkeys
    obtain rfl : k' = k := hk
    obtain ⟨hnotMem, hnodup⟩ := List.nodup_cons.mp hnodup
    -- the values under the first key agree
    have hvalue := hget k'
    unfold get? at hvalue hget
    rw [List.lookup_cons_self, List.lookup_cons_self] at hvalue
    cases hvalue
    refine congrArg ((k', v) :: ·) (ih hnodup hrest fun key => ?_)
    by_cases hkey : key = k'
    · have habsent : k' ∉ keys rest' := by
        unfold keys
        rw [hrest]
        exact hnotMem
      rw [hkey, get?_eq_none_iff.mpr hnotMem, get?_eq_none_iff.mpr habsent]
    · have h := hget key
      rw [List.lookup_cons, List.lookup_cons, show (key == k') = false by simpa using hkey] at h
      exact h

/-! ### Several fields -/

/-- Sets several fields, one after the other. -/
def setAll (fields : Fields α) (changes : Fields α) : Fields α :=
  changes.foldl (fun fields change => fields.set change.1 change.2) fields

variable {changes : Fields α}

theorem setAll_cons (change : String × α) (fields changes : Fields α) :
    fields.setAll (change :: changes) = (fields.set change.1 change.2).setAll changes := rfl

theorem mem_keys_setAll : key ∈ (fields.setAll changes).keys ↔
    key ∈ changes.keys ∨ key ∈ fields.keys := by
  induction changes generalizing fields with
  | nil => simp [setAll, keys]
  | cons change changes ih =>
    rw [setAll_cons, ih, mem_keys_set, or_left_comm, ← or_assoc]
    exact or_congr_left List.mem_cons.symm

theorem nodup_keys_setAll (h : fields.keys.Nodup) : (fields.setAll changes).keys.Nodup := by
  induction changes generalizing fields with
  | nil => exact h
  | cons change changes ih => exact ih (nodup_keys_set h)

/-- Keys that are there keep their places. -/
theorem keys_setAll_of_subset (h : ∀ key ∈ changes.keys, key ∈ fields.keys) :
    (fields.setAll changes).keys = fields.keys := by
  induction changes generalizing fields with
  | nil => rfl
  | cons change changes ih =>
    have hfirst := @keys_set_of_mem _ _ _ change.2 (h change.1 List.mem_cons_self)
    rw [setAll_cons, ih, hfirst]
    intro key hkey
    rw [hfirst]
    exact h key (List.mem_cons_of_mem _ hkey)

/-- Keys that are not there come behind the others, in their order. -/
theorem keys_setAll (h : changes.keys.Nodup) : (fields.setAll changes).keys =
    fields.keys ++ changes.keys.filter (· ∉ fields.keys) := by
  induction changes generalizing fields with
  | nil => exact (List.append_nil _).symm
  | cons change changes ih =>
    obtain ⟨k, v⟩ := change
    obtain ⟨hnotMem, hnodup⟩ := List.nodup_cons.mp h
    -- none of the keys behind the first one is that key
    have hothers : (keys changes).filter (· ∉ (fields.set k v).keys) =
        (keys changes).filter (· ∉ fields.keys) := by
      refine List.filter_congr fun key hkey => decide_eq_decide.mpr (not_congr ?_)
      have hne : key ≠ k := by
        rintro rfl
        exact hnotMem hkey
      rw [mem_keys_set, or_iff_right hne]
    rw [setAll_cons, ih hnodup, hothers]
    show _ = _ ++ (k :: keys changes).filter _
    by_cases hk : k ∈ fields.keys
    · rw [keys_set_of_mem hk, List.filter_cons_of_neg (by simpa using hk)]
    · rw [List.filter_cons_of_pos (by simpa using hk), set_of_notMem hk]
      unfold keys
      rw [List.map_append, List.append_assoc]
      rfl

/-- A key that is not set keeps its value. -/
theorem get?_setAll_of_notMem (h : key ∉ changes.keys) :
    (fields.setAll changes).get? key = fields.get? key := by
  induction changes generalizing fields with
  | nil => rfl
  | cons change changes ih =>
    obtain ⟨hne, hrest⟩ := not_or.mp fun hmem => h (List.mem_cons.mpr hmem)
    rw [setAll_cons, ih hrest, get?_set_of_ne hne]

/-- A key that is set gets one of the values it is set to. -/
theorem exists_get?_setAll (h : key ∈ changes.keys) :
    ∃ value, (key, value) ∈ changes ∧ (fields.setAll changes).get? key = some value := by
  induction changes generalizing fields with
  | nil => cases h
  | cons change changes ih =>
    rw [setAll_cons]
    by_cases hrest : key ∈ keys changes
    · obtain ⟨value, hmem, hget⟩ := @ih (fields.set change.1 change.2) hrest
      exact ⟨value, List.mem_cons_of_mem _ hmem, hget⟩
    · obtain rfl : key = change.1 := (List.mem_cons.mp h).resolve_right hrest
      refine ⟨change.2, List.mem_cons_self, ?_⟩
      rw [get?_setAll_of_notMem hrest, get?_set_self]

/-- A key that is set once gets its value. -/
theorem get?_setAll_of_nodup (h : changes.keys.Nodup) (hmem : (key, value) ∈ changes) :
    (fields.setAll changes).get? key = some value := by
  induction changes generalizing fields with
  | nil => cases hmem
  | cons change changes ih =>
    obtain ⟨hnotMem, hnodup⟩ := List.nodup_cons.mp h
    rw [setAll_cons]
    rcases List.mem_cons.mp hmem with rfl | hrest
    · rw [get?_setAll_of_notMem hnotMem, get?_set_self]
    · exact ih hnodup hrest

/-- How fields come from others by setting some: nothing else differs. -/
structure Extends (extended fields changes : Fields α) : Prop where
  /-- The keys keep their places, and those that were not there come behind. -/
  keys : extended.keys = fields.keys ++ changes.keys.filter (· ∉ fields.keys)
  /-- No key comes twice. -/
  nodup : extended.keys.Nodup
  /-- The fields are set. -/
  set : ∀ key value, (key, value) ∈ changes → extended.get? key = some value
  /-- All other fields have the values that they had. -/
  kept : ∀ key, key ∉ changes.keys → extended.get? key = fields.get? key

theorem extends_setAll (hfields : fields.keys.Nodup) (h : changes.keys.Nodup) :
    Extends (fields.setAll changes) fields changes where
  keys := keys_setAll h
  nodup := nodup_keys_setAll hfields
  set _ _ hmem := get?_setAll_of_nodup h hmem
  kept _ hkey := get?_setAll_of_notMem hkey

/-- The value under a key that is set does not depend on what was there. -/
theorem get?_setAll_of_mem (h : key ∈ changes.keys) :
    (fields.setAll changes).get? key = (other.setAll changes).get? key := by
  induction changes generalizing fields other with
  | nil => cases h
  | cons change changes ih =>
    rw [setAll_cons, setAll_cons]
    by_cases hrest : key ∈ keys changes
    · exact ih hrest
    · obtain rfl : key = change.1 := (List.mem_cons.mp h).resolve_right hrest
      rw [get?_setAll_of_notMem hrest, get?_setAll_of_notMem hrest, get?_set_self, get?_set_self]

/-- Setting the same fields again changes nothing. -/
theorem setAll_setAll (h : fields.keys.Nodup) :
    (fields.setAll changes).setAll changes = fields.setAll changes := by
  refine eq_of_get?_eq (nodup_keys_setAll h)
    (keys_setAll_of_subset fun key hkey => mem_keys_setAll.mpr (.inl hkey)) fun key => ?_
  by_cases hkey : key ∈ changes.keys
  · exact get?_setAll_of_mem hkey
  · exact get?_setAll_of_notMem hkey

end PackageRelease.Fields
