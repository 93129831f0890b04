import PackageRelease.Proofs.Json.Lexing

/-! # A text is read as what it says

  If a text is accepted, the value that is read is the document that the text says, with the number
  that each literal becomes in its place. So every field, every string and the order of the keys are
  read as they stand, and all that can be lost is in the numbers.
-/

namespace PackageRelease

/-- The number that a literal becomes. -/
def JsonNumber.Literal.number (l : JsonNumber.Literal) : JsonNumber :=
  (JsonNumber.ofLiteral? l).getD (.integer 0)

namespace Document

open Lexeme (StandsBefore)

variable {document : Document JsonNumber.Literal}

/-! ### The lexemes of a document -/

theorem isChain_cons {lexeme : Lexeme} {rest : List Lexeme} (h : ∀ l, lexeme ≠ .number l)
    (hrest : rest.IsChain StandsBefore) : (lexeme :: rest).IsChain StandsBefore :=
  List.isChain_cons.mpr ⟨fun _ _ l hl => absurd hl (h l), hrest⟩

theorem isSign_head_lexemesOfItems (items : List (Document JsonNumber.Literal))
    (rest : List Lexeme) : ∀ next ∈ (lexemesOfItems items ++ rest).head?, next.isSign = true := by
  cases items <;> rintro _ ⟨⟩ <;> rfl

theorem isSign_head_lexemesOfFields (fields : List (String × Document JsonNumber.Literal))
    (rest : List Lexeme) : ∀ next ∈ (lexemesOfFields fields ++ rest).head?, next.isSign = true := by
  cases fields <;> rintro _ ⟨⟩ <;> rfl

mutual

/-- In a document a number ends in front of a sign. -/
theorem isChain_lexemes (document : Document JsonNumber.Literal) {rest : List Lexeme}
    (hrest : rest.IsChain StandsBefore) (hsign : ∀ next ∈ rest.head?, next.isSign = true) :
    (document.lexemes ++ rest).IsChain StandsBefore := by
  match document with
  | .null | .bool _ | .string _ => exact isChain_cons (by simp) hrest
  | .number l => exact List.isChain_cons.mpr ⟨fun _ h _ _ => hsign _ h, hrest⟩
  | .array [] | .object [] => exact isChain_cons (by simp) (isChain_cons (by simp) hrest)
  | .array (item :: items) =>
    rw [lexemes, List.cons_append, List.append_assoc]
    refine isChain_cons (by simp) ?_
    exact isChain_lexemes item (isChain_lexemesOfItems items hrest)
      (isSign_head_lexemesOfItems items rest)
  | .object ((key, value) :: fields) =>
    simp only [lexemes, List.cons_append, List.append_assoc]
    refine isChain_cons (by simp) (isChain_cons (by simp) (isChain_cons (by simp) ?_))
    exact isChain_lexemes value (isChain_lexemesOfFields fields hrest)
      (isSign_head_lexemesOfFields fields rest)

theorem isChain_lexemesOfItems (items : List (Document JsonNumber.Literal)) {rest : List Lexeme}
    (hrest : rest.IsChain StandsBefore) : (lexemesOfItems items ++ rest).IsChain StandsBefore := by
  match items with
  | [] => exact isChain_cons (by simp) hrest
  | item :: items =>
    rw [lexemesOfItems, List.cons_append, List.append_assoc]
    refine isChain_cons (by simp) ?_
    exact isChain_lexemes item (isChain_lexemesOfItems items hrest)
      (isSign_head_lexemesOfItems items rest)

theorem isChain_lexemesOfFields (fields : List (String × Document JsonNumber.Literal))
    {rest : List Lexeme} (hrest : rest.IsChain StandsBefore) :
    (lexemesOfFields fields ++ rest).IsChain StandsBefore := by
  match fields with
  | [] => exact isChain_cons (by simp) hrest
  | (key, value) :: fields =>
    simp only [lexemesOfFields, List.cons_append, List.append_assoc]
    refine isChain_cons (by simp) (isChain_cons (by simp) (isChain_cons (by simp) ?_))
    exact isChain_lexemes value (isChain_lexemesOfFields fields hrest)
      (isSign_head_lexemesOfFields fields rest)

end

/-- The value that a document becomes. -/
def read (document : Document JsonNumber.Literal) : Json := (document.map (·.number)).toJson

/-- The values that items become. -/
def readItems (items : List (Document JsonNumber.Literal)) : List Json :=
  toJsonItems (mapItems (·.number) items)

/-- The values that fields become. -/
def readFields (fields : List (String × Document JsonNumber.Literal)) : Fields Json :=
  toJsonFields (mapFields (·.number) fields)

theorem read_array_cons (item : Document JsonNumber.Literal)
    (items : List (Document JsonNumber.Literal)) :
    (array (item :: items)).read = .array (item.read :: readItems items) := rfl

theorem read_object_cons (key : String) (value : Document JsonNumber.Literal)
    (fields : List (String × Document JsonNumber.Literal)) :
    (object ((key, value) :: fields)).read = .object ((key, value.read) :: readFields fields) := rfl

theorem readItems_cons (item : Document JsonNumber.Literal)
    (items : List (Document JsonNumber.Literal)) :
    readItems (item :: items) = item.read :: readItems items := rfl

theorem readFields_cons (key : String) (value : Document JsonNumber.Literal)
    (fields : List (String × Document JsonNumber.Literal)) :
    readFields ((key, value) :: fields) = (key, value.read) :: readFields fields := rfl

mutual

/-- The lexemes of a document become the tokens of its value. -/
theorem map_token_lexemes (document : Document JsonNumber.Literal)
    (h : ∀ l ∈ document.numbers, JsonNumber.ofLiteral? l = some l.number) :
    document.lexemes.map Lexeme.token = Json.tokenList document.read := by
  match document with
  | .null | .bool _ | .string _ | .array [] | .object [] => rfl
  | .number l =>
    have hl := h l List.mem_cons_self
    show [Lexeme.token (.number l)] = [.scalar (.number l.number)]
    rw [Lexeme.token, hl]
  | .array (item :: items) =>
    obtain ⟨hitem, hitems⟩ := List.forall_mem_append.mp h
    rw [lexemes, List.map_cons, List.map_append, map_token_lexemes item hitem,
      map_token_lexemesOfItems items hitems]
    rfl
  | .object ((key, value) :: fields) =>
    obtain ⟨hvalue, hfields⟩ := List.forall_mem_append.mp h
    rw [lexemes, List.map_cons, List.map_cons, List.map_cons, List.map_append,
      map_token_lexemes value hvalue, map_token_lexemesOfFields fields hfields]
    rfl

theorem map_token_lexemesOfItems (items : List (Document JsonNumber.Literal))
    (h : ∀ l ∈ numbersOfItems items, JsonNumber.ofLiteral? l = some l.number) :
    (lexemesOfItems items).map Lexeme.token = Json.itemTokens (readItems items) := by
  match items with
  | [] => rfl
  | item :: items =>
    obtain ⟨hitem, hitems⟩ := List.forall_mem_append.mp h
    rw [lexemesOfItems, List.map_cons, List.map_append, map_token_lexemes item hitem,
      map_token_lexemesOfItems items hitems]
    rfl

theorem map_token_lexemesOfFields (fields : List (String × Document JsonNumber.Literal))
    (h : ∀ l ∈ numbersOfFields fields, JsonNumber.ofLiteral? l = some l.number) :
    (lexemesOfFields fields).map Lexeme.token = Json.fieldTokens (readFields fields) := by
  match fields with
  | [] => rfl
  | (key, value) :: fields =>
    obtain ⟨hvalue, hfields⟩ := List.forall_mem_append.mp h
    rw [lexemesOfFields, List.map_cons, List.map_cons, List.map_cons, List.map_append,
      map_token_lexemes value hvalue, map_token_lexemesOfFields fields hfields]
    rfl

end

mutual

/-- Every number of a document is one of its lexemes. -/
theorem number_mem_lexemes (document : Document JsonNumber.Literal) {l : JsonNumber.Literal}
    (h : l ∈ document.numbers) : .number l ∈ document.lexemes := by
  match document with
  | .null | .bool _ | .string _ | .array [] | .object [] => cases h
  | .number _ =>
    obtain rfl := List.mem_singleton.mp h
    exact List.mem_cons_self
  | .array (item :: items) =>
    refine List.mem_cons_of_mem _ (List.mem_append.mpr ?_)
    exact (List.mem_append.mp h).imp (number_mem_lexemes item) (number_mem_lexemesOfItems items)
  | .object ((key, value) :: fields) =>
    refine List.mem_cons_of_mem _ (List.mem_cons_of_mem _ (List.mem_cons_of_mem _ ?_))
    exact List.mem_append.mpr ((List.mem_append.mp h).imp (number_mem_lexemes value)
      (number_mem_lexemesOfFields fields))

theorem number_mem_lexemesOfItems (items : List (Document JsonNumber.Literal))
    {l : JsonNumber.Literal} (h : l ∈ numbersOfItems items) : .number l ∈ lexemesOfItems items := by
  match items with
  | [] => cases h
  | item :: items =>
    refine List.mem_cons_of_mem _ (List.mem_append.mpr ?_)
    exact (List.mem_append.mp h).imp (number_mem_lexemes item) (number_mem_lexemesOfItems items)

theorem number_mem_lexemesOfFields (fields : List (String × Document JsonNumber.Literal))
    {l : JsonNumber.Literal} (h : l ∈ numbersOfFields fields) :
    .number l ∈ lexemesOfFields fields := by
  match fields with
  | [] => cases h
  | (key, value) :: fields =>
    refine List.mem_cons_of_mem _ (List.mem_cons_of_mem _ (List.mem_cons_of_mem _ ?_))
    exact List.mem_append.mpr ((List.mem_append.mp h).imp (number_mem_lexemes value)
      (number_mem_lexemesOfFields fields))

end

theorem keys_readFields (fields : List (String × Document JsonNumber.Literal)) :
    (readFields fields).keys = fields.map Prod.fst := by
  unfold readFields Fields.keys
  rw [toJsonFields_eq, mapFields_eq, List.map_map, List.map_map]
  rfl

end Document

/-! ### What the reader makes of it -/

namespace Json.Reader

/-- A token that is no token is always refused. -/
theorem exists_step_bad (reader : Reader) (fault : JsonError) :
    ∃ refusal, reader.step (.bad fault) = .error refusal := by
  obtain ⟨frames, expect⟩ := reader
  cases expect <;> exact ⟨_, rfl⟩

theorem bad_notMem_of_run {reader last : Reader} {tokens : List JsonToken}
    (h : reader.run tokens = .ok last) (fault : JsonError) : .bad fault ∉ tokens := by
  induction tokens generalizing reader with
  | nil => exact List.not_mem_nil
  | cons token tokens ih =>
    rw [run_cons] at h
    obtain ⟨next, hstep, hrest⟩ := bind_eq_ok.mp h
    intro hmem
    rcases List.mem_cons.mp hmem with rfl | hmem
    · obtain ⟨refusal, hrefused⟩ := reader.exists_step_bad fault
      cases hstep.symm.trans hrefused
    · exact ih hrest hmem

variable {frames : List Frame} {reader next last : Reader} {tokens : List JsonToken}

theorem begin_arrayOpen_eq_ok : begin frames .arrayOpen = .ok next ↔
    frames.length < maxDepth ∧ next = ⟨frames, .firstItem⟩ := by
  rw [begin]
  split
  · next hlevel => exact ⟨fun h => ⟨hlevel, (Except.ok.inj h).symm⟩, fun h => h.2 ▸ rfl⟩
  · next hlevel => exact iff_of_false (fun h => by cases h) fun h => hlevel h.1

theorem begin_objectOpen_eq_ok : begin frames .objectOpen = .ok next ↔
    frames.length < maxDepth ∧ next = ⟨frames, .firstKey⟩ := by
  rw [begin]
  split
  · next hlevel => exact ⟨fun h => ⟨hlevel, (Except.ok.inj h).symm⟩, fun h => h.2 ▸ rfl⟩
  · next hlevel => exact iff_of_false (fun h => by cases h) fun h => hlevel h.1

/-- An array that was opened had room. -/
theorem opened_array_of_run (hreader : ExpectsValue reader frames)
    (h : reader.run (.arrayOpen :: tokens) = .ok last) :
    frames.length < maxDepth ∧ run ⟨frames, .firstItem⟩ tokens = .ok last := by
  rw [run_cons, hreader .arrayOpen (by simp)] at h
  obtain ⟨next, hbegin, hrest⟩ := bind_eq_ok.mp h
  obtain ⟨hlevel, rfl⟩ := begin_arrayOpen_eq_ok.mp hbegin
  exact ⟨hlevel, hrest⟩

/-- An object that was opened had room. -/
theorem opened_object_of_run (hreader : ExpectsValue reader frames)
    (h : reader.run (.objectOpen :: tokens) = .ok last) :
    frames.length < maxDepth ∧ run ⟨frames, .firstKey⟩ tokens = .ok last := by
  rw [run_cons, hreader .objectOpen (by simp)] at h
  obtain ⟨next, hbegin, hrest⟩ := bind_eq_ok.mp h
  obtain ⟨hlevel, rfl⟩ := begin_objectOpen_eq_ok.mp hbegin
  exact ⟨hlevel, hrest⟩

end Json.Reader

namespace Document

open Json (tokenList itemTokens fieldTokens)
open Json.Reader

variable {last : Json.Reader}

mutual

/-- A value whose tokens were taken has room where it stands. -/
theorem fits_of_run (document : Document JsonNumber.Literal) (hdistinct : document.Distinct)
    (hread : ∀ l ∈ document.numbers, JsonNumber.ofLiteral? l = some l.number)
    {reader : Json.Reader} {frames : List Json.Frame} {tokens : List JsonToken}
    (hreader : ExpectsValue reader frames)
    (hrun : reader.run (tokenList document.read ++ tokens) = .ok last) :
    document.read.Fits frames.length := by
  match document, hdistinct with
  | .null, _ => exact .null
  | .bool value, _ => exact .bool value
  | .string s, _ => exact .string s
  | .number l, _ => exact .number (JsonNumber.inRange_of_ofLiteral? (hread l List.mem_cons_self))
  | .array [], _ => exact .array (opened_array_of_run hreader hrun).1 (List.forall_mem_nil _)
  | .object [], _ =>
    exact .object (opened_object_of_run hreader hrun).1 List.nodup_nil (List.forall_mem_nil _)
  | .array (item :: items), .array hdistinct =>
    obtain ⟨hitem, hitems⟩ := List.forall_mem_cons.mp hdistinct
    obtain ⟨hreadItem, hreadItems⟩ := List.forall_mem_append.mp hread
    have hexpects := expectsValue_firstItem frames
    rw [read_array_cons, tokenList, List.cons_append, List.append_assoc] at hrun
    obtain ⟨hlevel, hrun⟩ := opened_array_of_run hreader hrun
    have hfits := fits_of_run item hitem hreadItem hexpects hrun
    rw [makes_of_fits hfits _ _ _ hexpects rfl] at hrun
    have hfitsItems := fits_of_run_items items hitems hreadItems hrun
    exact .array hlevel (List.forall_mem_cons.mpr ⟨hfits, hfitsItems⟩)
  | .object ((key, value) :: fields), .object hkeys hdistinct =>
    obtain ⟨hvalue, hfields⟩ := List.forall_mem_cons.mp hdistinct
    obtain ⟨hreadValue, hreadFields⟩ := List.forall_mem_append.mp hread
    have hexpects := expectsValue_value (.member [] key :: frames)
    rw [read_object_cons, tokenList, List.cons_append, List.cons_append, List.cons_append,
      List.append_assoc] at hrun
    obtain ⟨hlevel, hrun⟩ := opened_object_of_run hreader hrun
    rw [run_cons_of_step rfl, run_cons_of_step rfl] at hrun
    have hfits := fits_of_run value hvalue hreadValue hexpects hrun
    rw [makes_of_fits hfits _ _ _ hexpects rfl] at hrun
    have hfitsFields := fits_of_run_fields fields hfields hreadFields hrun
    refine .object hlevel ?_ (List.forall_mem_cons.mpr ⟨hfits, hfitsFields⟩)
    rwa [← keys_readFields] at hkeys

theorem fits_of_run_items (items : List (Document JsonNumber.Literal))
    (hdistinct : ∀ item ∈ items, item.Distinct)
    (hread : ∀ l ∈ numbersOfItems items, JsonNumber.ofLiteral? l = some l.number)
    {frames : List Json.Frame} {tokens : List JsonToken} {done : List Json}
    (hrun : run ⟨frames, .itemEnd done⟩ (itemTokens (readItems items) ++ tokens) = .ok last) :
    ∀ value ∈ readItems items, value.Fits (frames.length + 1) := by
  match items with
  | [] => exact List.forall_mem_nil _
  | item :: items =>
    obtain ⟨hitem, hitems⟩ := List.forall_mem_cons.mp hdistinct
    obtain ⟨hreadItem, hreadItems⟩ := List.forall_mem_append.mp hread
    have hexpects := expectsValue_item frames done
    rw [readItems_cons, itemTokens, List.cons_append, List.append_assoc,
      run_cons_of_step rfl] at hrun
    have hfits := fits_of_run item hitem hreadItem hexpects hrun
    rw [makes_of_fits hfits _ _ _ hexpects rfl] at hrun
    have hfitsItems := fits_of_run_items items hitems hreadItems hrun
    exact List.forall_mem_cons.mpr ⟨hfits, hfitsItems⟩

theorem fits_of_run_fields (fields : List (String × Document JsonNumber.Literal))
    (hdistinct : ∀ field ∈ fields, field.2.Distinct)
    (hread : ∀ l ∈ numbersOfFields fields, JsonNumber.ofLiteral? l = some l.number)
    {frames : List Json.Frame} {tokens : List JsonToken} {done : Fields Json}
    (hrun : run ⟨frames, .fieldEnd done⟩ (fieldTokens (readFields fields) ++ tokens) = .ok last) :
    ∀ field ∈ readFields fields, field.2.Fits (frames.length + 1) := by
  match fields with
  | [] => exact List.forall_mem_nil _
  | (key, value) :: fields =>
    obtain ⟨hvalue, hfields⟩ := List.forall_mem_cons.mp hdistinct
    obtain ⟨hreadValue, hreadFields⟩ := List.forall_mem_append.mp hread
    have hexpects := expectsValue_value (.member done key :: frames)
    rw [readFields_cons, fieldTokens, List.cons_append, List.cons_append, List.cons_append,
      List.append_assoc, run_cons_of_step rfl, run_cons_of_step rfl, run_cons_of_step rfl] at hrun
    have hfits := fits_of_run value hvalue hreadValue hexpects hrun
    rw [makes_of_fits hfits _ _ _ hexpects rfl] at hrun
    have hfitsFields := fits_of_run_fields fields hfields hreadFields hrun
    exact List.forall_mem_cons.mpr ⟨hfits, hfitsFields⟩

end

/-- An accepted text is read as the document that it says. -/
theorem read_of_parse {document : Document JsonNumber.Literal} {text : String} {value : Json}
    (hsaid : document.IsSaid text) (hdistinct : document.Distinct)
    (hparse : Json.parse text = .ok value) : value = document.read ∧
      ∀ l ∈ document.numbers, JsonNumber.ofLiteral? l = some l.number := by
  have hparsed := hparse
  obtain ⟨last, hrun, hfinish⟩ := bind_eq_ok.mp hparse
  have hbad := bad_notMem_of_run hrun
  have hchain := isChain_lexemes document .nil (by rintro _ ⟨⟩)
  rw [List.append_nil] at hchain
  have htokens := (hsaid.tokens_eq hchain).resolve_right fun h => hbad _ h.2
  have hread : ∀ l ∈ document.numbers, JsonNumber.ofLiteral? l = some l.number := by
    intro l hl
    have hmem := List.mem_map_of_mem (f := Lexeme.token) (number_mem_lexemes document hl)
    rw [← htokens, Lexeme.token] at hmem
    cases hliteral : JsonNumber.ofLiteral? l with
    | none =>
      rw [hliteral] at hmem
      exact absurd hmem (hbad _)
    | some n =>
      rw [JsonNumber.Literal.number, hliteral]
      rfl
  refine ⟨?_, hread⟩
  rw [map_token_lexemes document hread, ← List.append_nil (tokenList _)] at htokens
  rw [htokens] at hrun
  have hexpects := expectsValue_value []
  have hfits := fits_of_run document hdistinct hread hexpects hrun
  rw [show Json.Reader.start = ⟨[], .value⟩ from rfl, makes_of_fits hfits _ _ _ hexpects rfl] at hrun
  cases hrun
  cases hfinish
  rfl

end Document

end PackageRelease
