import PackageRelease.Manifest.Basic
import PackageRelease.Proofs.Json.Keeping
import PackageRelease.Registry.Target

/-! # What a manifest keeps of its text

  A manifest that is read and printed again says what it said before: the same fields in the same
  order, the same strings and the same structure. Only a number can say something else, where it has
  too many digits for 64 bits or for a double.
-/

namespace PackageRelease

open JsonNumber (Literal)

namespace Manifest

/-- What is printed for a manifest says the document that was read, with every number in the
    spelling of what it became. -/
theorem isSaid_render {document : Document Literal} {text : String} {path : Path} {m : Manifest}
    (hsaid : document.IsSaid text) (hdistinct : document.Distinct)
    (hparse : parse text path = .ok m) : (document.map Literal.respelling).IsSaid m.render := by
  have hread : m.toJson = document.read := by
    unfold parse at hparse
    split at hparse
    · cases hparse
    · next fields hjson =>
      cases hparse
      exact (Document.read_of_parse hsaid hdistinct hjson).1
    · cases hparse
  have hend : Lexeme.Makes [] ['\n'] :=
    .done (List.forall_mem_singleton.mpr (.inr (.inr (.inl rfl))))
  have hmakes := Document.makes_renderAt .pretty (document.map (·.number)) 0 hend
  have hspelled : (document.map (·.number)).spelled = document.map Literal.respelling :=
    Document.map_map _ _ document
  rw [hspelled, List.append_nil, ← Document.read, ← hread] at hmakes
  unfold Document.IsSaid render Json.pretty Json.render
  rwa [String.toList_append, String.toList_ofList]

end Manifest

/-- A manifest that is read and printed again says the same document, up to its numbers. The values
    are all the same exactly if every number is kept, and a whole number of up to 64 bits always
    is. -/
theorem respelled_of_parse {document : Document Literal} {text : String} {path : Path}
    {m : Manifest} (hsaid : document.IsSaid text) (hdistinct : document.Distinct)
    (hparse : Manifest.parse text path = .ok m) :
    (document.map Literal.respelling).IsSaid m.render ∧
      ((document.map Literal.respelling).map Literal.value = document.map Literal.value ↔
        ∀ l ∈ document.numbers, l.IsKept) ∧
      ∀ l ∈ document.numbers, l.IsWord → l.IsKept := by
  refine ⟨Manifest.isSaid_render hsaid hdistinct hparse, ?_, fun l _ => Literal.isKept_of_isWord⟩
  rw [Document.map_map]
  exact Document.map_eq_map_iff document

/-- A document with a string, a negative number and a list. -/
def sampleDocument : Document JsonNumber :=
  .object [("name", .string "a"), ("build", .number (.integer (-7))),
    ("tags", .array [.string "x", .null])]

/-- All values of the sample are the same after it has been read and printed again. -/
theorem respelled_of_sampleDocument :
    sampleDocument.spelled.IsSaid
        "\x7b\"name\":\"a\",\"build\":-7,\"tags\":[\"x\",null]\x7d" ∧
      sampleDocument.spelled.Distinct ∧
      ∃ m, Manifest.parse "\x7b\"name\":\"a\",\"build\":-7,\"tags\":[\"x\",null]\x7d"
          manifestName = .ok m ∧
        (sampleDocument.spelled.map Literal.respelling).IsSaid m.render ∧
        (sampleDocument.spelled.map Literal.respelling).map Literal.value =
          sampleDocument.spelled.map Literal.value := by
  have hsaid : sampleDocument.spelled.IsSaid
      "\x7b\"name\":\"a\",\"build\":-7,\"tags\":[\"x\",null]\x7d" := by
    have hmakes := Document.makes_renderAt .compact sampleDocument 0 (.done (List.forall_mem_nil _))
    have htext : Json.renderAt .compact 0 sampleDocument.toJson ++ [] =
        "\x7b\"name\":\"a\",\"build\":-7,\"tags\":[\"x\",null]\x7d".toList := by
      decide +kernel
    rwa [htext, List.append_nil] at hmakes
  have hdistinct : sampleDocument.spelled.Distinct := by
    refine .object (by decide +kernel) ?_
    rintro field (_ | ⟨_, _ | ⟨_, _ | ⟨_, ⟨⟩⟩⟩⟩)
    · exact .string _
    · exact .number _
    · refine .array ?_
      rintro item (_ | ⟨_, _ | ⟨_, ⟨⟩⟩⟩)
      · exact .string _
      · exact .null
  have hparse : Manifest.parse "\x7b\"name\":\"a\",\"build\":-7,\"tags\":[\"x\",null]\x7d"
      manifestName = .ok ⟨[("name", .string "a"), ("build", .number (.integer (-7))),
        ("tags", .array [.string "x", .null])]⟩ := by
    decide +kernel
  have hword : (JsonNumber.integer (-7)).spelling.IsWord := by
    have hvalue := JsonNumber.value_spelling_integer (-7)
    exact ⟨rfl, rfl, by rw [hvalue]; norm_num, by rw [hvalue]; norm_num⟩
  obtain ⟨hprinted, hvalues, hkept⟩ := respelled_of_parse hsaid hdistinct hparse
  refine ⟨hsaid, hdistinct, _, hparse, hprinted, hvalues.mpr fun l hl => hkept l hl ?_⟩
  obtain rfl := List.mem_singleton.mp hl
  exact hword

/-- A number of twenty-three digits. -/
def JsonNumber.Literal.long : Literal := ⟨false, "12345678901234567890123".toList, none, none⟩

/-- A number of more than 64 bits is printed with other digits. -/
theorem respelled_long : ∃ m,
    Manifest.parse "\x7b\"x\":12345678901234567890123\x7d" manifestName = .ok m ∧
      (Document.object [("x", .number Literal.long)]).IsSaid
        "\x7b\"x\":12345678901234567890123\x7d" ∧
      (Document.object [("x", .number Literal.long)]).Distinct ∧
      ((Document.object [("x", .number Literal.long)]).map Literal.respelling).IsSaid m.render ∧
      m.render = "\x7b\n  \"x\": 1.2345678901234568e+22\n\x7d\n" ∧
      ((Document.object [("x", .number Literal.long)]).map Literal.respelling).map Literal.value ≠
        (Document.object [("x", .number Literal.long)]).map Literal.value := by
  have hparse : Manifest.parse "\x7b\"x\":12345678901234567890123\x7d" manifestName =
      .ok ⟨[("x", .number Literal.long.number)]⟩ := by
    decide +kernel
  have hdistinct : (Document.object [("x", .number Literal.long)]).Distinct :=
    .object (List.pairwise_singleton _ _) (List.forall_mem_singleton.mpr (.number _))
  have hsaid : (Document.object [("x", .number Literal.long)]).IsSaid
      "\x7b\"x\":12345678901234567890123\x7d" := by
    have hdigits : Literal.IsDigits Literal.long.whole :=
      ⟨by decide +kernel, List.all_eq_true.mp (by decide +kernel)⟩
    have hnumber : Literal.long.IsWritten Literal.long.whole :=
      ⟨hdigits, fun h => absurd h (by decide +kernel), [], [], .absent, .absent, by simp; rfl⟩
    have hmakes := Lexeme.Makes.sign .objectOpen (.cons (isWritten_renderText "x") (.sign .colon
      (.cons (.number hnumber) (.sign .objectClose (.done (List.forall_mem_nil _))))))
    have htext : '\x7b' :: (Json.renderText "x".toList ++ ':' :: (Literal.long.whole ++ ['\x7d'])) =
        "\x7b\"x\":12345678901234567890123\x7d".toList := by
      decide +kernel
    rw [htext] at hmakes
    exact hmakes
  have hrespelling : Literal.long.respelling = ⟨false, ['1'], some "2345678901234568".toList,
      some (false, ['2', '2'])⟩ := by
    decide +kernel
  refine ⟨_, hparse, hsaid, hdistinct, Manifest.isSaid_render hsaid hdistinct hparse,
    by decide +kernel, fun h => ?_⟩
  rw [Document.map_map] at h
  have hvalue := (Document.map_eq_map_iff _).mp h Literal.long List.mem_cons_self
  rw [Function.comp_apply, hrespelling] at hvalue
  have hbefore : Literal.long.value = 12345678901234567890123 := by
    rw [Literal.long, Literal.value_eq, show Text.digitsValue "12345678901234567890123".toList =
      12345678901234567890123 by decide +kernel]
    norm_num
  have hafter : Literal.value ⟨false, ['1'], some "2345678901234568".toList,
      some (false, ['2', '2'])⟩ = 12345678901234568 * 10 ^ 6 := by
    unfold Literal.value
    rw [show Text.digitsValue (Literal.digits ⟨false, ['1'], some "2345678901234568".toList,
      some (false, ['2', '2'])⟩) = 12345678901234568 by decide +kernel,
      show JsonNumber.exponentValue (some (false, ['2', '2'])) -
        ((some "2345678901234568".toList).getD []).length = 6 by decide +kernel]
    norm_num
  rw [hafter, hbefore] at hvalue
  norm_num at hvalue

end PackageRelease
