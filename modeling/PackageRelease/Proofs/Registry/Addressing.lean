import Mathlib.Data.List.TakeWhile
import PackageRelease.Proofs.Path.Extending
import PackageRelease.Proofs.Registry.Uploading
import PackageRelease.Proofs.Url.Extended

/-! # The address of a package

  A request addresses a package by one segment behind the path of the registry. Only the slash of a
  name is written as a code; the rest of the name is put into the address as it stands and read
  again with it. So the segment stands for the name exactly if nothing in the name has a meaning
  there: no sign that ends or divides a path, no code, no character that is dropped, and no name
  made of dots.
-/

namespace PackageRelease

theorem Target.parse_of_ofRegistry {registry : String} {directory : Path} {made : Target}
    (h : Target.ofRegistry registry directory = .ok made) :
    Url.parse registry = .ok made.registry := by
  unfold Target.ofRegistry at h
  split at h
  · cases h
  · next hfound =>
    cases h
    exact hfound

namespace Registry

/-! ### Names that stand for themselves -/

/-- A name that means nothing in an address but itself. -/
structure IsPlain (name : String) : Prop where
  /-- No character ends the path, divides it, or is dropped. -/
  unmarked : ∀ c ∈ name.toList, c ∉ ['?', '#', '\\', '\t', '\n', '\r']
  /-- The last character is no blank and no control character. -/
  ends : ∀ c ∈ name.toList.getLast?, 0x20 < c.toNat
  /-- There is no percent sign with two hexadecimal digits. -/
  uncoded : ¬ Percent.HoldsCode name.toList
  /-- It does not mean a directory. -/
  undotted : name ≠ "." ∧ name ≠ ".."

/-- What is written for a character of a name. -/
def writeChar (c : Char) : List Char := if c == '/' then ['%', '2', 'f'] else [c]

theorem toList_escapeName (name : String) :
    (escapeName name).toList = name.toList.flatMap writeChar := String.toList_ofList

theorem isCoding_writeChar : Percent.IsCoding writeChar := by
  intro c
  unfold writeChar
  split
  · next h =>
    rw [eq_of_beq h]
    refine .inr ⟨by decide, rfl, _, rfl, fun rest => ?_⟩
    exact Percent.decode_code (m := 2) (n := 15) rfl rfl rest
  · exact .inl rfl

/-- What is dropped everywhere is dropped from a name before or after its slashes are written. -/
theorem filter_flatMap (cs : List Char) :
    (cs.flatMap writeChar).filter (fun c => !Url.isIgnored c) =
      (cs.filter fun c => !Url.isIgnored c).flatMap writeChar := by
  induction cs with
  | nil => rfl
  | cons c cs ih =>
    have hwrite : (writeChar c).filter (fun c => !Url.isIgnored c) =
        if (!Url.isIgnored c) = true then writeChar c else [] := by
      unfold writeChar
      split
      · next h =>
        rw [eq_of_beq h]
        rfl
      · exact List.filter_cons
    rw [List.flatMap_cons, List.filter_append, ih, hwrite, List.filter_cons]
    split <;> rfl

/-- What counts of a written name is what is written for what counts of the name. -/
theorem counted_flatMap (cs : List Char) :
    Url.counted (cs.flatMap writeChar) = (Url.counted cs).flatMap writeChar := by
  induction cs using List.reverseRecOn with
  | nil => rfl
  | append_singleton cs c ih =>
    rw [List.flatMap_append, List.flatMap_singleton]
    cases hc : Url.isPadding c with
    | true =>
      have hwrite : writeChar c = [c] := by
        refine if_neg fun h => ?_
        rw [eq_of_beq h] at hc
        cases hc
      rw [hwrite, Url.counted_concat_of_pos hc, Url.counted_concat_of_pos hc, ih]
    | false =>
      obtain ⟨front, d, hwrite, hd⟩ : ∃ front d, writeChar c = front ++ [d] ∧
          Url.isPadding d = false := by
        unfold writeChar
        split
        · exact ⟨['%', '2'], 'f', rfl, rfl⟩
        · exact ⟨[], c, rfl, hc⟩
      rw [Url.counted_concat_of_neg hc, ← filter_flatMap, List.flatMap_append,
        List.flatMap_singleton, hwrite, ← List.append_assoc, Url.counted_concat_of_neg hd]

/-- A written name is divided at the backslashes of the name. -/
theorem splitWhere_flatMap (cs : List Char) :
    Text.splitWhere Url.isDivider (cs.flatMap writeChar) =
      (Text.splitWhere (· == '\\') cs).map (·.flatMap writeChar) := by
  induction cs with
  | nil => rfl
  | cons c cs ih =>
    rw [List.flatMap_cons]
    cases hc : c == '\\' with
    | true =>
      rw [@Text.splitWhere_cons_of_pos (· == '\\') c hc, List.map_cons, ← ih, eq_of_beq hc]
      exact Text.splitWhere_cons_of_pos rfl _
    | false =>
      obtain ⟨first, rest, hcs, hcons⟩ := @Text.splitWhere_cons_of_neg (· == '\\') c hc cs
      have hwrite : ∀ d ∈ writeChar c, Url.isDivider d = false := by
        unfold writeChar
        split
        · rintro d (_ | ⟨_, _ | ⟨_, _ | ⟨_, ⟨⟩⟩⟩⟩) <;> rfl
        · next h =>
          refine List.forall_mem_singleton.mpr ?_
          unfold Url.isDivider
          simp_all
      rw [hcs, List.map_cons] at ih
      rw [hcons, List.map_cons, Text.splitWhere_append_of_forall hwrite ih]
      rfl

/-! ### The segment of a package -/

/-- Whether an address stands for a package of a registry: its path is that of the registry without
    slashes at the end, and one segment that decodes to the name, and nothing follows it. -/
structure Addresses (registry : Url) (name : String) (url : Url) : Prop where
  path_eq : ∃ segment : String, url.path = Text.trimEnd '/' registry.path ++ "/" ++ segment ∧
    '/' ∉ segment.toList ∧ Percent.decode segment.toList = Text.encode name
  query_eq : url.query? = none
  fragment_eq : url.fragment? = none

/-- A request about a package, sent by a question for a version or by an upload. -/
inductive Sends (target : Target) (name : String) (request : Request) : Prop where
  /-- A question for a version of the package. -/
  | lookup {version : String} {world : World} {sent : List Attempt} {attempt : Attempt}
      (hsent : ((versionExists target name version).perform world).2.attempts =
        world.attempts ++ sent) (hattempt : attempt ∈ sent) (hrequest : attempt.request = request)
  /-- An upload of a package whose manifest has the name. -/
  | upload {token : Token} {world : World} {parcel : Parcel} {sent : List Attempt} {attempt : Attempt}
      (hparcel : prepare world.files target = .ok parcel) (hname : parcel.name = name)
      (hsent : ((publish target token).perform world).2.attempts = world.attempts ++ sent)
      (hattempt : attempt ∈ sent) (hrequest : attempt.request = request)

theorem Sends.exists_url {target : Target} {name : String} {request : Request}
    (h : Sends target name request) : ∃ url, Url.parse (packageAddress target name) = .ok url ∧
      request.url.path = url.path ∧ request.url.query? = url.query? ∧
        request.url.fragment? = url.fragment? := by
  -- a request leaves out the user of an address and nothing behind the host
  have hsame : ∀ (method : Method) (url : Url) (headers : List (String × String))
      (body? : Option Json), (Registry.request method url headers body?).url.path = url.path ∧
        (Registry.request method url headers body?).url.query? = url.query? ∧
        (Registry.request method url headers body?).url.fragment? = url.fragment? := by
    intro method url headers body?
    unfold Registry.request
    dsimp only
    split <;> exact ⟨rfl, rfl, rfl⟩
  cases h with
  | @lookup version world sent attempt hsent hattempt hrequest =>
    have hlookup := lookupResult target name version world
    generalize ((versionExists target name version).perform world).1 = outcome at hlookup
    generalize ((versionExists target name version).perform world).2 = after at hlookup hsent
    have hasks : ∃ url, Asks target name url request := by
      cases hlookup with
      | unsent hattempts =>
        rw [hattempts, List.self_eq_append_right] at hsent
        subst hsent
        cases hattempt
      | failed hattempts hasks _ | taken hattempts hasks _ | free hattempts hasks _ =>
        rw [hattempts, List.append_cancel_left_eq] at hsent
        subst hsent
        obtain rfl := List.mem_singleton.mp hattempt
        exact ⟨_, hrequest ▸ hasks⟩
    obtain ⟨url, hurl, rfl⟩ := hasks
    exact ⟨url, parse_of_addressOf hurl, hsame .get url _ none⟩
  | @upload token world parcel sent attempt hparcel hname hsent hattempt hrequest =>
    obtain ⟨other, hother, hresult⟩ := publishResult target token world
    obtain rfl : other = sent := List.append_cancel_left (hother.symm.trans hsent)
    generalize ((publish target token).perform world).1 = outcome at hresult
    have huploads : ∃ parcel url, Uploads world.files target token parcel url request := by
      cases hresult with
      | unready _ => cases hattempt
      | unaddressed _ _ => cases hattempt
      | unsendable _ _ => cases hattempt
      | lost huploads _ =>
        obtain rfl := List.mem_singleton.mp hattempt
        cases hrequest
        exact ⟨_, _, huploads⟩
      | answered huploads _ =>
        obtain rfl := List.mem_singleton.mp hattempt
        cases hrequest
        exact ⟨_, _, huploads⟩
    obtain ⟨found, url, hfound, hurl, rfl⟩ := huploads
    obtain rfl : found = parcel := Except.ok.inj (hfound.symm.trans hparcel)
    rw [hname] at hurl
    exact ⟨url, parse_of_addressOf hurl, hsame .put url _ _⟩

/-! ### Which packages are addressed -/

section segment
variable {name : String}

/-- The text of a name in a path. -/
def segmentOf (name : String) : List Char :=
  Percent.encode Percent.inPath (name.toList.flatMap writeChar)

theorem decode_written (cs : List Char) :
    Percent.decode (Percent.encode Percent.inPath (cs.flatMap writeChar)) = Percent.decode cs := by
  rw [Percent.decode_encode Percent.reservable_inPath, isCoding_writeChar.decode_flatMap]

/-- All of a plain name counts. -/
theorem IsPlain.counted_eq (h : IsPlain name) : Url.counted name.toList = name.toList := by
  refine (Url.counted_eq_self_iff _).mpr ⟨fun c hc => ?_, fun c hc => ?_⟩
  · have hmarks := h.unmarked c hc
    unfold Url.isIgnored
    simp only [List.mem_cons, List.not_mem_nil, or_false, not_or] at hmarks
    simp [hmarks]
  · have hlarge := h.ends c hc
    unfold Url.isPadding
    simpa using hlarge

theorem IsPlain.isPathChar (h : IsPlain name) : ∀ c ∈ name.toList, Url.isPathChar c = true := by
  intro c hc
  have hmarks := h.unmarked c hc
  simp only [List.mem_cons, List.not_mem_nil, or_false, not_or] at hmarks
  unfold Url.isPathChar
  simp [hmarks]

theorem IsPlain.decode_segmentOf (h : IsPlain name) :
    Percent.decode (segmentOf name) = Text.encode name := by
  unfold segmentOf
  rw [decode_written, Percent.decode_of_not_holdsCode h.uncoded, Text.encode_eq]

/-- A plain name becomes one segment behind those in front of it. -/
theorem IsPlain.resolve_eq (h : IsPlain name) (front : List (List Char)) :
    Url.resolve front ((Text.splitWhere Url.isDivider (name.toList.flatMap writeChar)).map
      (Percent.encode Percent.inPath)) = front ++ [segmentOf name] := by
  have hsplit : Text.splitWhere (· == '\\') name.toList = [name.toList] := by
    refine Text.splitWhere_of_forall fun c hc => ?_
    have hmarks := h.unmarked c hc
    simp only [List.mem_cons, List.not_mem_nil, or_false, not_or] at hmarks
    simp [hmarks]
  have hdots : ¬ Url.IsDots (segmentOf name) := by
    intro hdots
    rcases Url.decode_of_isDots hdots with hdot | hdot
    · exact h.undotted.1 (Text.encode_injective (h.decode_segmentOf.symm.trans hdot))
    · exact h.undotted.2 (Text.encode_injective (h.decode_segmentOf.symm.trans hdot))
  obtain ⟨hparent, hcurrent⟩ := not_or.mp hdots
  rw [splitWhere_flatMap, hsplit]
  show Url.resolve front [segmentOf name] = _
  rw [Url.resolve, if_neg hparent, if_neg hcurrent]

/-- A name whose last part is read as a segment for the whole name is plain. -/
theorem isPlain_of_resolve {front : List (List Char)} {segment : List Char}
    (hopen : ∀ c ∈ Url.counted name.toList, Url.isPathChar c = true)
    (hresolve : Url.resolve front ((Text.splitWhere Url.isDivider
      ((Url.counted name.toList).flatMap writeChar)).map (Percent.encode Percent.inPath)) =
        front ++ [segment]) (hdecode : Percent.decode segment = Text.encode name) :
    IsPlain name := by
  obtain ⟨other, h | ⟨last, hlast, hdots, h⟩⟩ := Url.resolve_eq front ((Text.splitWhere
    Url.isDivider ((Url.counted name.toList).flatMap writeChar)).map (Percent.encode Percent.inPath))
  · -- nothing is left of the name, so there was nothing
    obtain rfl : segment = [] := (List.cons.inj (List.append_inj' (hresolve.symm.trans h) rfl).2).1
    rw [Percent.decode] at hdecode
    obtain rfl : name = "" := Text.encode_injective hdecode.symm
    have hends : ∀ c ∈ ([] : List Char).getLast?, 0x20 < c.toNat := by
      intro c hc
      cases hc
    exact ⟨List.forall_mem_nil _, hends, Percent.not_holdsCode_of_notMem List.not_mem_nil, by decide⟩
  · obtain rfl : segment = last := (List.cons.inj (List.append_inj' (hresolve.symm.trans h) rfl).2).1
    rw [splitWhere_flatMap, List.getLast?_map, List.getLast?_map, Option.map_map] at hlast
    obtain ⟨part, hpart, rfl⟩ := Option.map_eq_some_iff.mp hlast
    have hmem := List.mem_of_getLast? hpart
    have hsublist := Text.sublist_of_mem_splitWhere hmem
    have hcounted := Url.counted_sublist name.toList
    rw [Function.comp_apply, decode_written, Text.encode_eq] at hdecode
    -- decoding makes a text no longer, so nothing of the name was left out
    obtain ⟨rfl, huncoded⟩ := Percent.eq_of_decode (hsublist.trans hcounted) hdecode
    have hwhole : Url.counted name.toList = name.toList := hcounted.antisymm hsublist
    obtain ⟨hkept, hends⟩ := (Url.counted_eq_self_iff _).mp hwhole
    rw [hwhole] at hopen
    refine ⟨fun c hc => ?_, fun c hc => ?_, huncoded, ?_, ?_⟩
    · have hback := Text.eq_false_of_mem_splitWhere hmem c hc
      have hpath := hopen c hc
      have hkept := hkept c hc
      unfold Url.isPathChar at hpath
      unfold Url.isIgnored at hkept
      simp_all
    · have hpadding := hends c hc
      unfold Url.isPadding at hpadding
      simpa using hpadding
    · rintro rfl
      exact hdots (by decide)
    · rintro rfl
      exact hdots (by decide)

end segment

/-- The name that the segment of a package stands for. -/
theorem Addresses.name_eq {registry url : Url} {name other : String}
    (h : Addresses registry name url) (hother : Addresses registry other url) : other = name := by
  obtain ⟨segment, hpath, -, hname⟩ := h.path_eq
  obtain ⟨found, hfound, -, hother⟩ := hother.path_eq
  have hsegment : found = segment := by
    rw [hpath] at hfound
    exact (String.append_right_inj _).mp hfound.symm
  subst hsegment
  exact Text.encode_injective (hother.symm.trans hname)

/-- What the address of a request has to be like, in characters. -/
theorem addresses_iff_of_path {registry url sent : Url} {name : String}
    (hpath : sent.path = url.path) (hquery : sent.query? = url.query?)
    (hfragment : sent.fragment? = url.fragment?) :
    Addresses registry name sent ↔ url.EndsInPath ∧ ∃ segment : List Char,
      url.path.toList = Url.trimSlashes registry.path.toList ++ '/' :: segment ∧
        '/' ∉ segment ∧ Percent.decode segment = Text.encode name := by
  have hbase : (Text.trimEnd '/' registry.path).toList = Url.trimSlashes registry.path.toList :=
    String.toList_ofList
  constructor
  · rintro ⟨⟨segment, hsegment, hslash, hdecode⟩, hnoQuery, hnoFragment⟩
    refine ⟨⟨hquery ▸ hnoQuery, hfragment ▸ hnoFragment⟩, segment.toList, ?_, hslash, hdecode⟩
    rw [← hpath, hsegment, String.toList_append, String.toList_append, hbase, List.append_assoc]
    rfl
  · rintro ⟨⟨hnoQuery, hnoFragment⟩, segment, hsegment, hslash, hdecode⟩
    refine ⟨⟨String.ofList segment, ?_, ?_, ?_⟩, hquery.trans hnoQuery, hfragment.trans hnoFragment⟩
    · refine String.toList_inj.mp ?_
      rw [hpath, hsegment, String.toList_append, String.toList_append, hbase, List.append_assoc]
      exact congrArg (fun cs => Url.trimSlashes registry.path.toList ++ '/' :: cs)
        String.toList_ofList.symm
    · rwa [String.toList_ofList]
    · rwa [String.toList_ofList]

/-- Nothing of a name ends the path exactly if nothing of what is written for it does. -/
theorem forall_flatMap_iff (cs : List Char) :
    (∀ c ∈ cs.flatMap writeChar, Url.isPathChar c = true) ↔ ∀ c ∈ cs, Url.isPathChar c = true := by
  rw [List.forall_mem_flatMap]
  refine forall₂_congr fun c _ => ?_
  unfold writeChar
  split
  · next h =>
    rw [eq_of_beq h]
    exact iff_of_true (List.all_eq_true.mp rfl) rfl
  · exact List.forall_mem_singleton

/-- An address stands for a package exactly if the address of its registry ends with its path and
    the name of the package is plain. -/
theorem addresses_iff {registry : String} {target : Target}
    (hregistry : Url.parse registry = .ok target.registry) {name : String} {url sent : Url}
    (hurl : Url.parse (packageAddress target name) = .ok url) (hpath : sent.path = url.path)
    (hquery : sent.query? = url.query?) (hfragment : sent.fragment? = url.fragment?) :
    Addresses target.registry name sent ↔ target.registry.EndsInPath ∧ IsPlain name := by
  rw [addresses_iff_of_path hpath hquery hfragment]
  rcases (Url.parse_extended hregistry hurl).2 with
    ⟨hends, front, hnormal, htrim, hresolved, hopen⟩ | ⟨hends, hopen⟩
  · rw [toList_escapeName, counted_flatMap] at hresolved hopen
    rw [List.dropWhile_eq_nil_iff] at hopen
    have hnoSlash : ∀ {s : List Char}, Url.IsNormal s → '/' ∉ s := fun hs hslash =>
      (hs.undivided '/' hslash).1 rfl
    rw [and_iff_right hends]
    constructor
    · rintro ⟨hurlEnds, segment, hsegment, hslash, hdecode⟩
      have hwhole := hopen.mp hurlEnds
      rw [List.takeWhile_eq_self_iff.mpr hwhole] at hresolved
      refine @isPlain_of_resolve name front segment ((forall_flatMap_iff _).mp hwhole)
        (Url.pathOf_injective (fun s hs => ?_) (fun s hs => ?_) ?_) hdecode
      · exact hnoSlash (Url.isNormal_of_mem_resolve hnormal hs)
      · rcases List.mem_append.mp hs with hs | hs
        · exact hnoSlash (hnormal s hs)
        · rwa [List.mem_singleton.mp hs]
      · rw [← hresolved, hsegment, htrim, Url.pathOf_concat]
    · intro hplain
      have hwhole := (forall_flatMap_iff _).mpr hplain.isPathChar
      rw [hplain.counted_eq] at hresolved hopen
      rw [List.takeWhile_eq_self_iff.mpr hwhole, hplain.resolve_eq, Url.pathOf_concat] at hresolved
      refine ⟨hopen.mpr hwhole, segmentOf name, htrim ▸ hresolved, ?_, hplain.decode_segmentOf⟩
      refine hnoSlash (@Url.isNormal_of_mem_resolve _ hnormal (name.toList.flatMap writeChar) _ ?_)
      rw [hplain.resolve_eq]
      exact List.mem_append_right _ List.mem_cons_self
  · exact iff_of_false (fun h => hopen h.1) (fun h => hends h.1)

/-- The address of a request about a package stands for that package exactly if the address of the
    registry ends with its path and the name is plain. So requests about different packages with
    plain names never go to the same address of one registry. -/
theorem addresses_of_sends {registry : String} {directory : Path} {made target : Target}
    (hmade : Target.ofRegistry registry directory = .ok made)
    (hregistry : target.registry = made.registry) {name : String} {request : Request}
    (hsends : Sends target name request) :
    (Addresses target.registry name request.url ↔ target.registry.EndsInPath ∧ IsPlain name) ∧
      (target.registry.EndsInPath → IsPlain name →
        ∀ (rival : Target) (other : String) (next : Request), rival.registry = target.registry →
          Sends rival other next → IsPlain other → next.url = request.url → other = name) := by
  have hparse := Target.parse_of_ofRegistry hmade
  have hall : ∀ {target : Target} {name : String} {request : Request},
      target.registry = made.registry → Sends target name request →
        (Addresses target.registry name request.url ↔
          target.registry.EndsInPath ∧ IsPlain name) := by
    intro target name request hregistry hsends
    obtain ⟨url, hurl, hpath, hquery, hfragment⟩ := hsends.exists_url
    exact addresses_iff (hregistry ▸ hparse) hurl hpath hquery hfragment
  refine ⟨hall hregistry hsends, fun hends hplain rival other next hrival hnext hother hsame => ?_⟩
  have haddresses := (hall (hrival.trans hregistry) hnext).mpr ⟨hrival ▸ hends, hother⟩
  rw [hrival, hsame] at haddresses
  exact ((hall hregistry hsends).mpr ⟨hends, hplain⟩).name_eq haddresses

/-- The address of a package with a scope at a plain registry. -/
def scopedAddress : Url := ⟨.http, "", none, .domain "r", none, "/a%2fb", none, none⟩

/-- A question about a package in a scope. -/
theorem addresses_of_scopedName :
    Addresses sampleTarget.registry "a/b" (lookupRequest scopedAddress).url := by
  have hmade : Target.ofRegistry "http://r" ⟨"p"⟩ = .ok sampleTarget := by decide +kernel
  have hsends : Sends sampleTarget "a/b" (lookupRequest scopedAddress) :=
    @Sends.lookup _ _ _ "1.0.0" (sampleWorld []) [⟨lookupRequest scopedAddress, none⟩] _
      (by decide +kernel) List.mem_cons_self rfl
  have hplain : IsPlain "a/b" := by
    refine ⟨?_, ?_, Percent.not_holdsCode_of_notMem (by decide), by decide⟩
    · exact List.forall_mem_cons.mpr ⟨by decide, List.forall_mem_cons.mpr ⟨by decide,
        List.forall_mem_singleton.mpr (by decide)⟩⟩
    · rintro _ ⟨⟩
      decide
  exact (addresses_of_sends hmade rfl hsends).1.mpr ⟨⟨rfl, rfl⟩, hplain⟩

/-- A name with a code is looked up under the address of another package. -/
theorem shared_address :
    Target.ofRegistry "http://r" ⟨"p"⟩ = .ok sampleTarget ∧
      ∃ request next, Sends sampleTarget "a/b" request ∧ Sends sampleTarget "a%2fb" next ∧
        next.url = request.url ∧ ¬ Addresses sampleTarget.registry "a%2fb" next.url := by
  refine ⟨by decide +kernel, lookupRequest scopedAddress, lookupRequest scopedAddress, ?_, ?_, rfl, ?_⟩
  · exact @Sends.lookup _ _ _ "1.0.0" (sampleWorld []) [⟨lookupRequest scopedAddress, none⟩] _
      (by decide +kernel) List.mem_cons_self rfl
  · exact @Sends.lookup _ _ _ "1.0.0" (sampleWorld []) [⟨lookupRequest scopedAddress, none⟩] _
      (by decide +kernel) List.mem_cons_self rfl
  · rintro ⟨⟨segment, hpath, -, hdecode⟩, -, -⟩
    have hwritten : (lookupRequest scopedAddress).url.path =
        Text.trimEnd '/' sampleTarget.registry.path ++ "/" ++ "a%2fb" := by
      decide +kernel
    obtain rfl : "a%2fb" = segment := (String.append_right_inj _).mp (hwritten.symm.trans hpath)
    revert hdecode
    decide +kernel

end Registry

end PackageRelease
