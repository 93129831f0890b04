import PackageRelease.Proofs.Json.Accepting
import PackageRelease.Proofs.Json.Reading

/-! # The doubles that are read

  Every double that is read from a text is within the range of doubles, because the number of a
  literal is and a container holds no other doubles than its parts do.
-/

namespace PackageRelease

namespace Json

/-! ### Values with doubles -/

/-- Whether every double in a value is within the range of doubles. -/
def IsFinite (value : Json) : Prop := ∀ x, Contains x value → x.IsFinite

theorem isFinite_null : IsFinite .null := fun _ h => nomatch h

theorem isFinite_bool (value : Bool) : IsFinite (.bool value) := fun _ h => nomatch h

theorem isFinite_string (s : String) : IsFinite (.string s) := fun _ h => nomatch h

theorem isFinite_array_iff {items : List Json} :
    IsFinite (.array items) ↔ ∀ item ∈ items, item.IsFinite := by
  constructor
  · exact fun h item hmem x hx => h x (.item hmem hx)
  · rintro h x (_ | ⟨hmem, hx⟩)
    exact h _ hmem x hx

theorem isFinite_object_iff {fields : Fields Json} :
    IsFinite (.object fields) ↔ ∀ field ∈ fields, field.2.IsFinite := by
  constructor
  · exact fun h field hmem x hx => h x (.field hmem hx)
  · rintro h x (_ | _ | ⟨hmem, hx⟩)
    exact h _ hmem x hx

theorem IsFinite.object_set {fields : Fields Json} (h : IsFinite (.object fields)) (key : String)
    {value : Json} (hvalue : value.IsFinite) : IsFinite (.object (fields.set key value)) := by
  rw [isFinite_object_iff] at h ⊢
  intro field hmem
  rcases Fields.mem_of_mem_set hmem with rfl | hbefore
  · exact hvalue
  · exact h field hbefore

/-! ### Values that are read -/

/-- Reading a value keeps every double in it within the range of doubles. -/
theorem keptByReading_isFinite : KeptByReading fun _ value => value.IsFinite where
  null _ := isFinite_null
  bool _ value := isFinite_bool value
  string _ s := isFinite_string s
  number _ _ _ h := by
    rintro x ⟨⟩
    exact JsonNumber.isFinite_of_ofLiteral? h
  array_nil _ _ := isFinite_array_iff.mpr (List.forall_mem_nil _)
  array_cons _ _ _ harray hvalue :=
    isFinite_array_iff.mpr (List.forall_mem_cons.mpr ⟨hvalue, isFinite_array_iff.mp harray⟩)
  array_reverse _ _ harray := isFinite_array_iff.mpr fun item hmem =>
    isFinite_array_iff.mp harray item (List.mem_reverse.mp hmem)
  object_nil _ _ := isFinite_object_iff.mpr (List.forall_mem_nil _)
  object_set _ _ key _ hobject hvalue := hobject.object_set key hvalue
  outermost _ _ h := h

end Json

end PackageRelease
