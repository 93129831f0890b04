import PackageRelease.Proofs.Encoding.Base64
import PackageRelease.Proofs.Registry.Client
import PackageRelease.Proofs.Url.Extension

/-! # What can be sent

  An upload of a package that is ready is sent, if the registry can be reached at all and the token
  may stand in a header. The key idea: the address of a package goes on behind the address of the
  registry, so it leads to the same host, and everything else in the headers is of the program's own
  making.
-/

namespace PackageRelease

/-! ### Headers -/

theorem Base64.isHeaderChar_of_mem_encodeChars (octets : Bytes) :
    ∀ c ∈ encodeChars octets, Registry.isHeaderChar c = true := by
  have hall : ∀ n : Fin 64, Registry.isHeaderChar (digit n) = true := by decide +kernel
  have hpadding : Registry.isHeaderChar '=' = true := by decide
  have hlength : alphabet.length = 64 := by decide +kernel
  have hdigit : ∀ n, Registry.isHeaderChar (digit n) = true := by
    intro n
    by_cases hn : n < 64
    · exact hall ⟨n, hn⟩
    · unfold digit
      rw [List.getD_eq_getElem?_getD, List.getElem?_eq_none (by omega)]
      exact hpadding
  -- the induction takes three octets at a time
  induction octets using encodeChars.induct with
  | case1 => simp [encodeChars]
  | case2 a => simp [encodeChars, hdigit, hpadding]
  | case3 a b => simp [encodeChars, hdigit, hpadding]
  | case4 a b c rest ih => simpa [encodeChars, hdigit] using ih

namespace Target

/-- Whether requests to the registry of a target can be sent: its address leads to a host whose name
    may stand in a request. -/
def Reachable (target : Target) : Prop :=
  ∃ url, Url.parse (target.registryBase ++ "/") = .ok url ∧
    url.host.render.toList.all Registry.isHostChar = true

end Target

/-- Whether a token may stand in a header. -/
def Token.IsLegal (token : Token) : Prop := token.secret.toList.all Registry.isHeaderChar = true

namespace Registry

/-- The address of a package at a registry that can be reached. -/
theorem addressOf_of_reachable {target : Target} (h : target.Reachable) (peer name : String) :
    ∃ url, addressOf peer (packageAddress target name) = .ok url ∧
      url.host.render.toList.all isHostChar = true := by
  obtain ⟨url, hparse, hhost⟩ := h
  obtain ⟨longer, hlonger, hsame⟩ := Url.parse_append hparse (escapeName name)
  refine ⟨longer, ?_, hsame ▸ hhost⟩
  unfold addressOf packageAddress
  rw [hlonger]

/-- The header for the user of an address, if it names one. -/
def userHeaders (url : Url) : List (String × String) :=
  (basicHeader? url).toList.map fun basic => ("authorization", basic)

theorem headers_request (method : Method) (url : Url) (headers : List (String × String))
    (body? : Option Json) : (request method url headers body?).headers =
      userHeaders url ++ headers ++ [("user-agent", userAgent)] := by
  unfold request userHeaders
  dsimp only
  cases basicHeader? url <;> rfl

/-- The user of an address is named by a word in base 64. -/
theorem basicHeader?_eq_some {url : Url} {basic : String} (h : basicHeader? url = some basic) :
    ∃ octets, basic = "Basic " ++ Base64.encode octets := by
  obtain ⟨user, -, h⟩ := Option.bind_eq_some_iff.mp h
  obtain ⟨⟨⟩, -, h⟩ := Option.bind_eq_some_iff.mp h
  cases h
  exact ⟨_, rfl⟩

theorem all_userHeaders (url : Url) :
    ((userHeaders url).all fun (_, value) => value.toList.all isHeaderChar) = true := by
  rw [List.all_eq_true]
  intro header hmem
  obtain ⟨basic, hbasic, rfl⟩ := List.mem_map.mp hmem
  obtain ⟨octets, rfl⟩ := basicHeader?_eq_some (Option.mem_toList.mp hbasic)
  have hword : "Basic ".toList.all isHeaderChar = true := by decide
  dsimp only
  unfold Base64.encode
  rw [String.toList_append, List.all_append, hword, String.toList_ofList, Bool.true_and,
    List.all_eq_true]
  exact Base64.isHeaderChar_of_mem_encodeChars octets

/-- Only the token decides whether the headers of an upload may be sent. -/
theorem all_headers_uploadRequest (url : Url) (token : Token) (document : Json) :
    ((uploadRequest url token document).headers.all fun (_, value) =>
      value.toList.all isHeaderChar) = token.secret.toList.all isHeaderChar := by
  have hown : ["publish", "application/json", "*/*", userAgent].all
      (fun value => value.toList.all isHeaderChar) = true := by
    decide +kernel
  have hbearer : token.header.toList.all isHeaderChar = token.secret.toList.all isHeaderChar := by
    have hword : "Bearer ".toList.all isHeaderChar = true := by decide
    unfold Token.header
    rw [String.toList_append, List.all_append, hword, Bool.true_and]
  unfold uploadRequest
  rw [headers_request, List.all_append, List.all_append, all_userHeaders]
  simp only [List.all_cons, List.all_nil, Bool.and_true, Bool.true_and, Bool.and_eq_true]
    at hown ⊢
  obtain ⟨hcommand, htype, haccept, hagent⟩ := hown
  rw [hbearer, hcommand, htype, haccept, hagent, Bool.and_true, Bool.and_true, Bool.and_true,
    Bool.and_true]

theorem host_uploadRequest (url : Url) (token : Token) (document : Json) :
    (uploadRequest url token document).url.host = url.host := by
  unfold uploadRequest request
  dsimp only
  split <;> rfl

/-- An upload with a legal token can be sent to such an address. -/
theorem unsendable?_uploadRequest {url : Url} (hhost : url.host.render.toList.all isHostChar = true)
    {token : Token} (htoken : token.IsLegal) (document : Json) :
    unsendable? (uploadRequest url token document) = none := by
  unfold unsendable?
  rw [all_headers_uploadRequest, htoken, host_uploadRequest, hhost]
  rfl

/-- A question can be sent to such an address. -/
theorem unsendable?_lookupRequest {url : Url}
    (hhost : url.host.render.toList.all isHostChar = true) :
    unsendable? (lookupRequest url) = none := by
  have hown : ["application/json", userAgent].all
      (fun value => value.toList.all isHeaderChar) = true := by
    decide +kernel
  have hheaders : ((lookupRequest url).headers.all fun (_, value) =>
      value.toList.all isHeaderChar) = true := by
    unfold lookupRequest
    rw [headers_request, List.all_append, List.all_append, all_userHeaders]
    simpa using hown
  have hsame : (lookupRequest url).url.host = url.host := by
    unfold lookupRequest request
    dsimp only
    split <;> rfl
  unfold unsendable?
  rw [hheaders, hsame, hhost]
  rfl

/-- A package that is ready is sent with one request. -/
theorem attempt_of_publish {target : Target} (hreach : target.Reachable) {token : Token}
    (htoken : token.IsLegal) {world : World} {parcel : Parcel}
    (hparcel : prepare world.files target = .ok parcel) :
    ∃ attempt : Attempt, ((publish target token).perform world).2.attempts =
      world.attempts ++ [attempt] := by
  obtain ⟨url, hurl, hhost⟩ := addressOf_of_reachable hreach target.registryBase parcel.name
  obtain ⟨sent, hattempts, hresult⟩ := publishResult target token world
  generalize ((publish target token).perform world).1 = outcome at hresult
  cases hresult with
  | unready hfailure =>
    rw [hparcel] at hfailure
    cases hfailure
  | unaddressed hother haddress =>
    cases hparcel.symm.trans hother
    rw [hurl] at haddress
    cases haddress
  | unsendable hrequest hfault =>
    obtain ⟨hother, haddress, rfl⟩ := hrequest
    cases hparcel.symm.trans hother
    cases hurl.symm.trans haddress
    rw [unsendable?_uploadRequest hhost htoken] at hfault
    cases hfault
  | lost _ _ => exact ⟨_, hattempts⟩
  | answered _ _ => exact ⟨_, hattempts⟩

end Registry

end PackageRelease
