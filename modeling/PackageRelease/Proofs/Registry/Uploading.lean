import PackageRelease.Proofs.Registry.Sending
import PackageRelease.Proofs.Registry.Verdict
import PackageRelease.Proofs.Release.PlainFailure

/-! # What an upload comes to

  Publishing ends with the class of the answer to its one request. So a failure that may pass comes
  from a request that was sent, but for one gap: a request that cannot be sent at all, because of
  its token or its address, fails in the same way as one that meets with no answer.
-/

namespace PackageRelease.Registry

/-- A body that was lost reads as an empty one. -/
theorem text_of_lost {answer : Answer} (h : answer.body? = none) : answer.text = "" := by
  unfold Answer.text
  rw [h]
  rfl

/-- Publishing ends with the class of the answer to its upload, whatever the answer; an answer whose
    body was lost counts as one with an empty body. -/
theorem verdict_of_publish (target : Target) (token : Token) (world : World) :
    (∀ (status : Status) (body name version : String),
      Verdict.Sorted status body name version (Verdict.ofAnswer status body name version)) ∧
    ∃ sent, ((publish target token).perform world).2.attempts = world.attempts ++ sent ∧
      sent.length ≤ 1 ∧ ∀ attempt ∈ sent, attempt.request.method = .put ∧
        ∀ answer, attempt.answer? = some answer →
          (answer.body? = none → answer.text = "") ∧
          ∃ parcel, prepare world.files target = .ok parcel ∧
            ((publish target token).perform world).1 =
              (Verdict.ofAnswer answer.status answer.text parcel.name parcel.version).map fun _ =>
                receipt target parcel false := by
  refine ⟨Verdict.sorted_ofAnswer, ?_⟩
  obtain ⟨sent, hattempts, hresult⟩ := publishResult target token world
  generalize ((publish target token).perform world).1 = outcome at hresult
  refine ⟨sent, hattempts, ?_⟩
  cases hresult with
  | unready _ => exact ⟨Nat.zero_le 1, List.forall_mem_nil _⟩
  | unaddressed _ _ => exact ⟨Nat.zero_le 1, List.forall_mem_nil _⟩
  | unsendable _ _ => exact ⟨Nat.zero_le 1, List.forall_mem_nil _⟩
  | lost hrequest _ =>
    refine ⟨Nat.le_refl 1, List.forall_mem_singleton.mpr ⟨hrequest.method_eq, ?_⟩⟩
    rintro _ ⟨⟩
  | @answered parcel url request answer hrequest _ =>
    refine ⟨Nat.le_refl 1, List.forall_mem_singleton.mpr ⟨hrequest.method_eq, ?_⟩⟩
    rintro _ ⟨⟩
    exact ⟨text_of_lost, parcel, hrequest.1, rfl⟩

/-- A registry under a plain name, and a directory for it. -/
def sampleTarget : Target where
  registry := ⟨.http, "", none, .domain "r", none, "/", none, none⟩
  artifactDirectory := ⟨"p"⟩
  manifestPath := ⟨"p/package.json"⟩
  access := .everyone
  distTag := "latest"

/-- The directory with a package that is ready, and what the next uploads will meet with. -/
def sampleWorld (answers : List (Option Answer)) : World :=
  World.start
    { entries := [(["p"], .directory), (["p", "package.json"],
        .file (Text.encode "\x7b\"name\":\"a\",\"version\":\"1.0.0\",\"files\":[]\x7d"))]
      workingDirectory := [] }
    [] answers

/-- A refusal that mentions, in capitals, the version that is there. -/
def sampleRefusal : Answer := ⟨⟨403⟩, some "CANNOT PUBLISH OVER 1.0.0"⟩

theorem verdict_of_sampleRefusal :
    ((publish sampleTarget ⟨"t"⟩).perform (sampleWorld [some sampleRefusal])).1 =
      .error (.publish (.conflict "a" "1.0.0")) := by
  obtain ⟨hsorted, sent, hattempts, -, hsent⟩ := verdict_of_publish sampleTarget ⟨"t"⟩
    (sampleWorld [some sampleRefusal])
  have hanswers : ((publish sampleTarget ⟨"t"⟩).perform
      (sampleWorld [some sampleRefusal])).2.attempts.map (·.answer?) = [some sampleRefusal] := by
    decide +kernel
  rw [hattempts] at hanswers
  obtain ⟨attempt, rfl, hanswer⟩ := List.map_eq_singleton_iff.mp hanswers
  obtain ⟨-, hdecides⟩ := hsent attempt (List.mem_singleton.mpr rfl)
  obtain ⟨-, parcel, hparcel, houtcome⟩ := hdecides sampleRefusal hanswer
  have hready : (prepare (sampleWorld [some sampleRefusal]).files sampleTarget).map
      (fun parcel => (parcel.name, parcel.version)) = .ok ("a", "1.0.0") := by
    decide +kernel
  rw [hparcel] at hready
  obtain ⟨hname, hversion⟩ := Prod.mk.inj (Except.ok.inj hready)
  have hconflict : Verdict.Conflicts sampleRefusal.status sampleRefusal.text :=
    .inr ⟨rfl, (Verdict.statesConflict_iff _).mp (by decide +kernel)⟩
  rw [houtcome, (hsorted _ _ _ _).conflict_iff.mpr hconflict, hname, hversion]
  rfl

/-! ### What is tried again -/

/-- An address that cannot be read fails like a missing answer. -/
theorem isRetryable_of_addressOf {peer address : String} {failure : Failure}
    (h : addressOf peer address = .error failure) : failure.isRetryable = true := by
  unfold addressOf at h
  split at h
  · cases h
  · cases h
    rfl

/-- A ready package that is not sent has an illegal token or a registry that cannot be reached. -/
theorem not_legal_or_not_reachable {target : Target} {token : Token} {parcel : Parcel} {url : Url}
    {request : Request} {fs : FileSystem} (hrequest : Uploads fs target token parcel url request)
    {fault : String} (hfault : unsendable? request = some fault) :
    ¬ token.IsLegal ∨ ¬ target.Reachable := by
  by_contra hboth
  obtain ⟨hlegal, hreach⟩ := not_or.mp hboth
  obtain ⟨other, haddress, hhost⟩ := addressOf_of_reachable (not_not.mp hreach)
    target.registryBase parcel.name
  obtain ⟨-, hurl, rfl⟩ := hrequest
  cases hurl.symm.trans haddress
  rw [unsendable?_uploadRequest hhost (not_not.mp hlegal)] at hfault
  cases hfault

end PackageRelease.Registry
