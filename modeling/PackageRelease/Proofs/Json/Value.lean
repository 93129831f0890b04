import PackageRelease.Json.Reader

/-! # Values that texts can hold

  Not every value has a text: a whole number may lie outside of 64 bits, a key may come twice, and
  arrays and objects may be nested too deeply. `Fits` leaves these out. It counts levels from the
  outside, because a value that is moved into a container has less room than before.
-/

namespace PackageRelease

/-! ### Fields -/

namespace Fields

variable {α : Type} {fields : Fields α} {key : String} {value : α}

/-- A name has a value exactly if it is one of the names. -/
theorem isSome_get?_iff (fields : Fields α) (key : String) :
    (fields.get? key).isSome = true ↔ key ∈ fields.map Prod.fst := by
  induction fields with
  | nil => simp [get?]
  | cons field rest ih =>
    obtain ⟨k, v⟩ := field
    unfold get? at ih ⊢
    rw [List.lookup_cons, List.map_cons, List.mem_cons]
    by_cases hk : key = k
    · simp [hk]
    · rw [show (key == k) = false by simpa using hk]
      simp only [hk, false_or]
      exact ih

theorem mem_keys_set {other : String} :
    other ∈ (fields.set key value).keys ↔ other = key ∨ other ∈ fields.keys := by
  induction fields with
  | nil => simp [set, keys]
  | cons field rest ih =>
    obtain ⟨k, v⟩ := field
    unfold keys at ih ⊢
    by_cases hk : k = key
    · subst hk
      simp [set]
    · rw [set, if_neg hk, List.map_cons, List.mem_cons, ih, List.map_cons, List.mem_cons]
      exact or_left_comm

/-- A name that is set is there once. -/
theorem nodup_keys_set (h : fields.keys.Nodup) : (fields.set key value).keys.Nodup := by
  induction fields with
  | nil => simp [set, keys]
  | cons field rest ih =>
    obtain ⟨k, v⟩ := field
    obtain ⟨hnotMem, hrest⟩ := List.nodup_cons.mp (show (k :: keys rest).Nodup from h)
    by_cases hk : k = key
    · rw [set, if_pos hk]
      exact h
    · rw [set, if_neg hk]
      refine List.nodup_cons.mpr ⟨?_, ih hrest⟩
      intro hmem
      exact (mem_keys_set.mp hmem).elim hk hnotMem

/-- A field after setting is the new one or was there before. -/
theorem mem_of_mem_set {field : String × α} (h : field ∈ fields.set key value) :
    field = (key, value) ∨ field ∈ fields := by
  induction fields with
  | nil => exact .inl (List.mem_singleton.mp h)
  | cons first rest ih =>
    obtain ⟨k, v⟩ := first
    by_cases hk : k = key
    · rw [set, if_pos hk, hk] at h
      rcases List.mem_cons.mp h with rfl | hrest
      · exact .inl rfl
      · exact .inr (List.mem_cons_of_mem _ hrest)
    · rw [set, if_neg hk] at h
      rcases List.mem_cons.mp h with rfl | hrest
      · exact .inr List.mem_cons_self
      · exact (ih hrest).imp_right (List.mem_cons_of_mem _)

/-- A new name goes to the end. -/
theorem set_of_notMem (h : key ∉ fields.keys) :
    fields.set key value = fields ++ [(key, value)] := by
  induction fields with
  | nil => rfl
  | cons field rest ih =>
    obtain ⟨k, v⟩ := field
    obtain ⟨hk, hrest⟩ := not_or.mp fun hmem => h (List.mem_cons.mpr hmem)
    rw [set, if_neg (Ne.symm hk), ih hrest, List.cons_append]

end Fields

/-! ### Numbers in range -/

theorem Word.holdsSigned_iff {i : Int} :
    Word.holdsSigned 64 i = true ↔ -9223372036854775808 ≤ i ∧ i ≤ 9223372036854775807 := by
  have hleast : leastSigned 64 = -9223372036854775808 := rfl
  have hgreatest : greatestSigned 64 = 9223372036854775807 := rfl
  unfold holdsSigned
  rw [decide_eq_true_iff, hleast, hgreatest]

namespace JsonNumber

/-- Whether a number has a text: whole numbers have 64 bits, with or without a sign. -/
def InRange : JsonNumber → Prop
  | .integer i => Word.leastSigned 64 ≤ i ∧ i ≤ Word.greatest 64
  | .double _ => True

theorem inRange_integer_iff {i : Int} :
    InRange (.integer i) ↔ -9223372036854775808 ≤ i ∧ i ≤ 18446744073709551615 := by
  have hleast : Word.leastSigned 64 = -9223372036854775808 := rfl
  have hgreatest : Word.greatest 64 = 18446744073709551615 := rfl
  unfold InRange
  rw [hleast, hgreatest]

theorem significandLimit_eq : significandLimit = 18446744073709551615 := rfl

end JsonNumber

/-! ### Values with a text -/

namespace Json

/-- Whether a value can stand at a level, counted by the containers around it. -/
inductive Fits : Nat → Json → Prop where
  /-- Literals fit everywhere. -/
  | null {level : Nat} : Fits level .null
  /-- Literals fit everywhere. -/
  | bool {level : Nat} (value : Bool) : Fits level (.bool value)
  /-- A number has to be in range. -/
  | number {level : Nat} {n : JsonNumber} (hrange : n.InRange) : Fits level (.number n)
  /-- Strings fit everywhere. -/
  | string {level : Nat} (value : String) : Fits level (.string value)
  /-- An array may still be opened, and its items fit one level further in. -/
  | array {level : Nat} {items : List Json} (hlevel : level < maxDepth)
      (hitems : ∀ item ∈ items, Fits (level + 1) item) : Fits level (.array items)
  /-- An object may still be opened, its keys differ, and its values fit one level further in. -/
  | object {level : Nat} {fields : Fields Json} (hlevel : level < maxDepth)
      (hkeys : fields.keys.Nodup) (hfields : ∀ field ∈ fields, Fits (level + 1) field.2) :
      Fits level (.object fields)

/-- Whether a double stands somewhere in a value. -/
inductive Contains (x : Binary64) : Json → Prop where
  /-- It is the value. -/
  | here : Contains x (.number (.double x))
  /-- It stands in an item. -/
  | item {items : List Json} {item : Json} (hmem : item ∈ items) (h : Contains x item) :
      Contains x (.array items)
  /-- It stands under a key. -/
  | field {fields : Fields Json} {field : String × Json} (hmem : field ∈ fields)
      (h : Contains x field.2) : Contains x (.object fields)

/-- Further out there is more room. -/
theorem Fits.mono {level outer : Nat} {value : Json} (h : Fits level value) (hle : outer ≤ level) :
    Fits outer value := by
  induction h generalizing outer with
  | null => exact .null
  | bool value => exact .bool value
  | number hrange => exact .number hrange
  | string value => exact .string value
  | array hlevel _ ih =>
    exact .array (Nat.lt_of_le_of_lt hle hlevel) fun item hmem =>
      ih item hmem (Nat.succ_le_succ hle)
  | object hlevel hkeys _ ih =>
    exact .object (Nat.lt_of_le_of_lt hle hlevel) hkeys fun field hmem =>
      ih field hmem (Nat.succ_le_succ hle)

/-- Setting a key to a value that fits keeps an object fitting. -/
theorem Fits.object_set {level : Nat} {fields : Fields Json} (h : Fits level (.object fields))
    (key : String) {value : Json} (hvalue : Fits (level + 1) value) :
    Fits level (.object (fields.set key value)) := by
  cases h with
  | object hlevel hkeys hfields =>
    refine .object hlevel (Fields.nodup_keys_set hkeys) fun field hmem => ?_
    rcases Fields.mem_of_mem_set hmem with rfl | hbefore
    · exact hvalue
    · exact hfields field hbefore

end Json

end PackageRelease
