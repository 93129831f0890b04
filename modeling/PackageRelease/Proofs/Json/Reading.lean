import PackageRelease.Proofs.Json.Value
import PackageRelease.Proofs.Outcome

/-! # What is read from a text

  A value is read one token at a time, from literals and from containers that grow by one part after
  the other. So a property of values that each of these steps keeps holds of whatever is read. The
  invariant is on the open containers: what has been read of each of them has the property at the
  level where the container stands. One token keeps this, whether it opens a container, adds to one
  or closes it. The first such property is to fit at a level.
-/

namespace PackageRelease

/-! ### Numbers in range -/

namespace JsonNumber

/-- Taking digits never leaves the range of the significand. -/
theorem takeDigits_le (cs : List Char) {n : Nat} (h : n ≤ significandLimit) :
    (takeDigits cs n).1 ≤ significandLimit := by
  induction cs generalizing n with
  | nil => exact h
  | cons c cs ih =>
    unfold takeDigits
    dsimp only
    split
    · exact h
    · next hnext => exact ih (Nat.not_lt.mp hnext)

theorem inRange_of_le {n : Nat} (h : n ≤ significandLimit) : InRange (.integer n) := by
  rw [significandLimit_eq] at h
  rw [inRange_integer_iff]
  omega

theorem inRange_of_holdsSigned {i : Int} (h : Word.holdsSigned 64 i = true) :
    InRange (.integer i) := by
  rw [Word.holdsSigned_iff] at h
  rw [inRange_integer_iff]
  omega

/-- A literal that denotes a number denotes one in range. -/
theorem inRange_of_ofLiteral? {l : Literal} {n : JsonNumber} (h : ofLiteral? l = some n) :
    n.InRange := by
  unfold ofLiteral? at h
  have htaken := takeDigits_le l.whole (Nat.zero_le significandLimit)
  generalize takeDigits l.whole 0 = whole at h htaken
  obtain ⟨value, taken⟩ := whole
  dsimp only at h htaken
  -- a literal that is no whole number in range becomes a double
  split at h
  · split at h
    · split at h
      · cases h
        exact inRange_of_le htaken
      · split at h
        · next hsigned =>
          cases h
          exact inRange_of_holdsSigned hsigned.2
        · obtain ⟨x, -, h⟩ := Option.bind_eq_some_iff.mp h
          cases h
          trivial
    · obtain ⟨x, -, h⟩ := Option.bind_eq_some_iff.mp h
      cases h
      trivial
  · obtain ⟨x, -, h⟩ := Option.bind_eq_some_iff.mp h
    cases h
    trivial

end JsonNumber

/-! ### Properties that reading keeps -/

/-- A property of values, which may depend on the level where the value stands, holds of everything
    that the reader puts together, if it holds of the parts. -/
structure Json.KeptByReading (P : Nat → Json → Prop) : Prop where
  /-- A literal can stand everywhere. -/
  null : ∀ level, P level .null
  /-- A literal can stand everywhere. -/
  bool : ∀ level value, P level (.bool value)
  /-- A string can stand everywhere. -/
  string : ∀ level s, P level (.string s)
  /-- A number can stand everywhere, and is always that of a literal. -/
  number : ∀ level l n, JsonNumber.ofLiteral? l = some n → P level (.number n)
  /-- An array is opened only where there is room. -/
  array_nil : ∀ level < maxDepth, P level (.array [])
  /-- An item goes in front, because the reader keeps items in reverse. -/
  array_cons : ∀ level items value, P level (.array items) → P (level + 1) value →
    P level (.array (value :: items))
  /-- At the end of an array its items are put in order. -/
  array_reverse : ∀ level items, P level (.array items) → P level (.array items.reverse)
  /-- An object is opened only where there is room. -/
  object_nil : ∀ level < maxDepth, P level (.object [])
  /-- A key that comes again replaces its value. -/
  object_set : ∀ level (fields : Fields Json) key value, P level (.object fields) →
    P (level + 1) value → P level (.object (fields.set key value))
  /-- What can stand further in can stand at the outermost level. -/
  outermost : ∀ level value, P level value → P 0 value

section kept
variable {P : Nat → Json → Prop} (hkept : Json.KeptByReading P)

/-! ### Tokens -/

namespace JsonToken

/-- Whether the value of a token, if it has one, has a property at every level. -/
def Has (P : Nat → Json → Prop) : JsonToken → Prop
  | .scalar value => ∀ level, P level value
  | _ => True

theorem has_scanLiteral {rest : List Char} {value : Json} (h : ∀ level, P level value)
    (cs : List Char) : (scanLiteral rest value cs).1.Has P := by
  unfold scanLiteral
  split
  · exact h
  · trivial

include hkept

theorem has_scanNumber (c : Char) (cs : List Char) : (scanNumber c cs).1.Has P := by
  unfold scanNumber
  dsimp only
  generalize (if c = '-' then scanUnsigned true cs else scanUnsigned false (c :: cs)) = scanned
  cases scanned with
  | error fault => trivial
  | ok scanned =>
    obtain ⟨literal, rest⟩ := scanned
    dsimp only
    split
    · next n hn => exact fun level => hkept.number level literal n hn
    · trivial

theorem has_scan (c : Char) (cs : List Char) : (scan c cs).1.Has P := by
  unfold scan
  split
  iterate 6 trivial
  · exact has_scanLiteral hkept.null cs
  · exact has_scanLiteral (hkept.bool · true) cs
  · exact has_scanLiteral (hkept.bool · false) cs
  · split <;> trivial
  · split
    · exact has_scanNumber hkept _ cs
    · trivial

theorem has_of_mem_tokensFrom {skip : Nat} {cs : List Char} {token : JsonToken}
    (h : token ∈ tokensFrom skip cs) : token.Has P := by
  induction cs generalizing skip with
  | nil => cases skip <;> cases h
  | cons c cs ih =>
    cases skip with
    | succ skip => exact ih h
    | zero =>
      unfold tokensFrom at h
      split at h
      · exact ih h
      · rcases List.mem_cons.mp h with rfl | hrest
        · exact has_scan hkept c cs
        · exact ih hrest

end JsonToken

/-! ### The reader -/

namespace Json

/-- What has been read of an open container. -/
def Frame.content : Frame → Json
  | .items done => .array done
  | .member done _ => .object done

/-- What has been read of the value that the reader is in, if anything. -/
def Expect.content? : Expect → Option Json
  | .value => none
  | .firstItem => some (.array [])
  | .item done | .itemEnd done => some (.array done)
  | .firstKey => some (.object [])
  | .key done | .colon done _ | .fieldEnd done => some (.object done)
  | .nothing result => some result

namespace Reader

/-- What has been read of each open container has a property where the container stands. -/
def FramesHave (P : Nat → Json → Prop) : List Frame → Prop
  | [] => True
  | frame :: rest => P rest.length frame.content ∧ FramesHave P rest

/-- What has been read has a property so far. -/
structure Has (P : Nat → Json → Prop) (reader : Reader) : Prop where
  /-- The open containers have it. -/
  frames : FramesHave P reader.frames
  /-- The value that the reader is in has it. -/
  content : ∀ content ∈ reader.expect.content?, P reader.frames.length content

/-- A reader in a value that has the property. -/
theorem has_of_content {frames : List Frame} {expect : Expect} {content : Json}
    (hframes : FramesHave P frames) (hcontent : expect.content? = some content)
    (h : P frames.length content) : Has P ⟨frames, expect⟩ where
  frames := hframes
  content other hother := by
    rw [hcontent] at hother
    cases hother
    exact h

include hkept

/-- Handing over a value that has the property makes the container around it larger by one. -/
theorem has_deliver {frames : List Frame} {value : Json} (hframes : FramesHave P frames)
    (hvalue : P frames.length value) : (deliver frames value).Has P := by
  cases frames with
  | nil => exact has_of_content hframes rfl hvalue
  | cons frame rest =>
    obtain ⟨hframe, hrest⟩ := hframes
    cases frame with
    | items done => exact has_of_content hrest rfl (hkept.array_cons _ _ _ hframe hvalue)
    | member done key => exact has_of_content hrest rfl (hkept.object_set _ _ key _ hframe hvalue)

theorem has_begin {frames : List Frame} {token : JsonToken} {next : Reader}
    (hframes : FramesHave P frames) (htoken : token.Has P) (h : begin frames token = .ok next) :
    next.Has P := by
  cases token with
  | scalar value =>
    cases h
    exact has_deliver hkept hframes (htoken _)
  | text s =>
    cases h
    exact has_deliver hkept hframes (hkept.string _ s)
  | arrayOpen =>
    rw [begin] at h
    split at h
    · next hlevel =>
      cases h
      exact has_of_content hframes rfl (hkept.array_nil _ hlevel)
    · cases h
  | objectOpen =>
    rw [begin] at h
    split at h
    · next hlevel =>
      cases h
      exact has_of_content hframes rfl (hkept.object_nil _ hlevel)
    · cases h
  | _ => cases h

/-- One token keeps the property of what has been read. -/
theorem has_step {reader next : Reader} {token : JsonToken} (hreader : reader.Has P)
    (htoken : token.Has P) (h : reader.step token = .ok next) : next.Has P := by
  obtain ⟨frames, expect⟩ := reader
  have hframes : FramesHave P frames := hreader.frames
  have hcontent : ∀ content ∈ expect.content?, P frames.length content := hreader.content
  -- what the reader expects decides which container a token adds to
  cases expect with
  | value => exact has_begin hkept hframes htoken h
  | firstItem =>
    have hopened : FramesHave P (.items [] :: frames) := ⟨hcontent _ rfl, hframes⟩
    cases token with
    | arrayClose =>
      cases h
      exact has_deliver hkept hframes (hcontent _ rfl)
    | _ => exact has_begin hkept hopened htoken h
  | item done =>
    have hopened : FramesHave P (.items done :: frames) := ⟨hcontent _ rfl, hframes⟩
    cases token with
    | arrayClose => cases h
    | _ => exact has_begin hkept hopened htoken h
  | itemEnd done =>
    cases token with
    | comma =>
      cases h
      exact has_of_content hframes rfl (hcontent _ rfl)
    | arrayClose =>
      cases h
      exact has_deliver hkept hframes (hkept.array_reverse _ done (hcontent _ rfl))
    | _ => cases h
  | firstKey =>
    cases token with
    | text key =>
      cases h
      exact has_of_content hframes rfl (hcontent _ rfl)
    | objectClose =>
      cases h
      exact has_deliver hkept hframes (hcontent _ rfl)
    | _ => cases h
  | key done =>
    cases token with
    | text key =>
      cases h
      exact has_of_content hframes rfl (hcontent _ rfl)
    | _ => cases h
  | colon done key =>
    have hopened : FramesHave P (.member done key :: frames) := ⟨hcontent _ rfl, hframes⟩
    cases token with
    | colon =>
      cases h
      exact ⟨hopened, fun content hmem => by cases hmem⟩
    | _ => cases h
  | fieldEnd done =>
    cases token with
    | comma =>
      cases h
      exact has_of_content hframes rfl (hcontent _ rfl)
    | objectClose =>
      cases h
      exact has_deliver hkept hframes (hcontent _ rfl)
    | _ => cases h
  | nothing result => cases h

omit hkept in
theorem run_cons (reader : Reader) (token : JsonToken) (tokens : List JsonToken) :
    reader.run (token :: tokens) = reader.step token >>= fun next => next.run tokens := rfl

/-- Any number of tokens keep the property of what has been read. -/
theorem has_run {reader last : Reader} {tokens : List JsonToken} (hreader : reader.Has P)
    (htokens : ∀ token ∈ tokens, token.Has P) (h : reader.run tokens = .ok last) : last.Has P := by
  induction tokens generalizing reader with
  | nil =>
    cases h
    exact hreader
  | cons token tokens ih =>
    rw [run_cons] at h
    obtain ⟨next, hstep, hrest⟩ := bind_eq_ok.mp h
    exact ih (has_step hkept hreader (htokens token List.mem_cons_self) hstep)
      (fun other hother => htokens other (List.mem_cons_of_mem _ hother)) hrest

end Reader

include hkept in
/-- Every value that is read has each property that reading keeps. -/
theorem KeptByReading.of_parse {text : String} {value : Json} (h : parse text = .ok value) :
    P 0 value := by
  obtain ⟨last, hrun, hfinish⟩ := bind_eq_ok.mp h
  have hstart : Reader.start.Has P := ⟨trivial, fun content hmem => by cases hmem⟩
  have hlast := Reader.has_run hkept hstart
    (fun _ => JsonToken.has_of_mem_tokensFrom hkept) hrun
  obtain ⟨frames, expect⟩ := last
  cases expect with
  | nothing result =>
    cases hfinish
    exact hkept.outermost _ _ (hlast.content _ rfl)
  | _ => cases hfinish

end Json

end kept

namespace Json

/-- Nothing may follow a complete value. -/
theorem Reader.eq_nil_of_run_nothing {frames : List Frame} {result : Json}
    {tokens : List JsonToken} {last : Reader} (h : run ⟨frames, .nothing result⟩ tokens = .ok last) :
    tokens = [] ∧ last = ⟨frames, .nothing result⟩ := by
  cases tokens with
  | nil =>
    cases h
    exact ⟨rfl, rfl⟩
  | cons token tokens => cases h

/-! ### Values that fit -/

/-- Every value that is read fits at the level it is read at. -/
theorem keptByReading_fits : KeptByReading Fits where
  null _ := .null
  bool _ value := .bool value
  string _ s := .string s
  number _ _ _ h := .number (JsonNumber.inRange_of_ofLiteral? h)
  array_nil _ hlevel := .array hlevel (List.forall_mem_nil _)
  array_cons _ _ _ harray hvalue := by
    cases harray with
    | array hlevel hitems => exact .array hlevel (List.forall_mem_cons.mpr ⟨hvalue, hitems⟩)
  array_reverse _ _ harray := by
    cases harray with
    | array hlevel hitems =>
      exact .array hlevel fun item hmem => hitems item (List.mem_reverse.mp hmem)
  object_nil _ hlevel := .object hlevel List.nodup_nil (List.forall_mem_nil _)
  object_set _ _ key _ hobject hvalue := hobject.object_set key hvalue
  outermost level _ h := h.mono (Nat.zero_le level)

end Json

end PackageRelease
