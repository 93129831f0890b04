import PackageRelease.Manifest.Edit
import PackageRelease.Proofs.Json.Printing
import PackageRelease.Registry.Target

/-! # A manifest survives being stored

  What is read from the text of a manifest is that manifest, however it came about. The key idea: a
  change sets one field to something that could have been read there. So whatever reading keeps
  holds of a manifest that was read and changed, and above all it fits.
-/

namespace PackageRelease

section kept
variable {P : Nat → Json → Prop} (hkept : Json.KeptByReading P)
include hkept

/-- A list of strings is put together like one that is read. -/
theorem Json.KeptByReading.texts {level : Nat} (hlevel : level < Json.maxDepth)
    (texts : List String) : P level (.array (texts.map .string)) := by
  induction texts with
  | nil => exact hkept.array_nil level hlevel
  | cons s texts ih => exact hkept.array_cons level _ _ ih (hkept.string _ s)

/-- What is read from a text is an object with each property that reading keeps. -/
theorem Manifest.kept_of_parse {text : String} {path : Path} {m : Manifest}
    (h : parse text path = .ok m) : P 0 m.toJson := by
  unfold parse at h
  split at h
  · cases h
  · next fields hparse =>
    cases h
    exact hkept.of_parse hparse
  · cases h

/-! ### Changes -/

/-- A change sets one field, to a string or to a list of strings. -/
theorem Edit.kept_of_apply {edit : Edit} {m changed : Manifest} (h : P 0 m.toJson)
    (hchanged : edit.apply m = .ok changed) : P 0 changed.toJson := by
  cases edit with
  | rename source target =>
    unfold apply at hchanged
    dsimp only at hchanged
    split at hchanged
    · cases hchanged
    · split at hchanged
      · cases hchanged
        exact hkept.object_set 0 _ "name" _ h (hkept.string 1 target)
      · cases hchanged
    · cases hchanged
  | addFiles entries =>
    unfold apply at hchanged
    dsimp only at hchanged
    split at hchanged
    · cases hchanged
    · split at hchanged
      · cases hchanged
      · cases hchanged
        exact hkept.object_set 0 _ "files" _ h (hkept.texts (by decide) _)
  | setField key value =>
    unfold apply at hchanged
    dsimp only at hchanged
    split at hchanged
    · cases hchanged
    · cases hchanged
      exact hkept.object_set 0 _ key _ h (hkept.string 1 value)

theorem Edit.kept_of_applyAll {edits : List Edit} {m changed : Manifest} (h : P 0 m.toJson)
    (hchanged : applyAll edits m = .ok changed) : P 0 changed.toJson := by
  induction edits generalizing m with
  | nil =>
    cases hchanged
    exact h
  | cons edit edits ih =>
    obtain ⟨next, hnext, hrest⟩ := bind_eq_ok.mp hchanged
    exact ih (kept_of_apply hkept h hnext) hrest

end kept

/-! ### Manifests that fit -/

/-- What is read from a text is an object that fits at the outermost level. -/
theorem Manifest.fits_of_parse {text : String} {path : Path} {m : Manifest}
    (h : parse text path = .ok m) : m.toJson.Fits 0 :=
  kept_of_parse Json.keptByReading_fits h

/-- A manifest that fits has each field once. -/
theorem Manifest.nodup_keys_of_fits {m : Manifest} (h : m.toJson.Fits 0) :
    m.fields.keys.Nodup := by
  cases h with
  | object _ hkeys _ => exact hkeys

theorem Edit.fits_of_applyAll {edits : List Edit} {m changed : Manifest} (h : m.toJson.Fits 0)
    (hchanged : applyAll edits m = .ok changed) : changed.toJson.Fits 0 :=
  kept_of_applyAll Json.keptByReading_fits h hchanged

/-! ### Round trip -/

/-- A manifest that fits is read from its own text. -/
theorem Manifest.parse_render {m : Manifest} (h : m.toJson.Fits 0)
    (hdoubles : m.toJson.DoublesReadBack) (path : Path) : parse m.render path = .ok m := by
  have hread : Json.parse m.render = .ok m.toJson := by
    unfold Json.parse render Json.pretty Json.render
    rw [String.toList_append, String.toList_ofList]
    -- the line break at the end is white space behind the value
    refine Json.parseChars_renderAt h hdoubles .pretty ?_ rfl
    exact JsonToken.endsNumber_of_head? rfl (by decide)
  unfold parse
  rw [hread]
  rfl

/-- A manifest that was read and changed is read from its own text, with all keys in their order and
    all values; its text ends in a line break and is the same when it is printed again. Only of the
    doubles in it is it assumed that their digits read back. -/
theorem parse_render_of_applyAll {text : String} {path : Path} {loaded m : Manifest}
    {edits : List Edit} (hloaded : Manifest.parse text path = .ok loaded)
    (hedits : Edit.applyAll edits loaded = .ok m)
    (hdoubles : ∀ x, m.toJson.Contains x →
      Json.parse (Json.compact (.number (.double x))) = .ok (.number (.double x)))
    (origin : Path) :
    ∃ again, Manifest.parse m.render origin = .ok again ∧ again.fields = m.fields ∧
      again.render = m.render ∧ ∃ body, again.render = body ++ "\n" := by
  have hfits : m.toJson.Fits 0 := Edit.fits_of_applyAll (Manifest.fits_of_parse hloaded) hedits
  exact ⟨m, Manifest.parse_render hfits hdoubles origin, rfl, rfl, m.toJson.pretty, rfl⟩

/-- One half, as a double. -/
def Binary64.half : Binary64 := ⟨false, 4503599627370496, 1021⟩

/-- The digits of one half read back, so a manifest with it is read from its text after a change. -/
theorem parse_render_half :
    Manifest.parse "\x7b\"name\":\"a\",\"ratio\":0.5\x7d" manifestName =
      .ok ⟨[("name", .string "a"), ("ratio", .number (.double .half))]⟩ ∧
    Json.parse (Json.compact (.number (.double .half))) = .ok (.number (.double .half)) ∧
    ∃ again, Manifest.parse (Manifest.render
        ⟨[("name", .string "b"), ("ratio", .number (.double .half))]⟩) manifestName = .ok again ∧
      again.fields = [("name", .string "b"), ("ratio", .number (.double .half))] := by
  have hloaded : Manifest.parse "\x7b\"name\":\"a\",\"ratio\":0.5\x7d" manifestName =
      .ok ⟨[("name", .string "a"), ("ratio", .number (.double .half))]⟩ := by
    decide +kernel
  have hhalf : Json.parse (Json.compact (.number (.double .half))) =
      .ok (.number (.double .half)) := by
    decide +kernel
  have hedits : Edit.applyAll [.rename "a" "b"]
        ⟨[("name", .string "a"), ("ratio", .number (.double .half))]⟩ =
      .ok ⟨[("name", .string "b"), ("ratio", .number (.double .half))]⟩ := by
    decide +kernel
  have hdoubles : ∀ x, (Manifest.toJson
        ⟨[("name", .string "b"), ("ratio", .number (.double .half))]⟩).Contains x →
      Json.parse (Json.compact (.number (.double x))) = .ok (.number (.double x)) := by
    intro x hx
    cases hx with
    | field hmem hvalue =>
      simp only [List.mem_cons, List.not_mem_nil, or_false] at hmem
      rcases hmem with rfl | rfl
      · cases hvalue
      · cases hvalue
        exact hhalf
  obtain ⟨again, hparse, hfields, -⟩ :=
    parse_render_of_applyAll hloaded hedits hdoubles manifestName
  exact ⟨hloaded, hhalf, again, hparse, hfields⟩

end PackageRelease
