import PackageRelease.Proofs.Json.Numeral

/-! # What is printed is read again

  A value that fits is read from its own text. The proof goes over its tokens: a printed text is cut
  into the tokens of its value, whatever the layout, and the reader makes the value from them again.
  Only of doubles it has to be known that their digits read back.
-/

namespace PackageRelease

open Text (isDigit)

/-! ### Strings -/

namespace JsonToken

variable {rest : List Char}

/-- Every control character has an escape with four hexadecimal digits. -/
theorem hexUnit?_hexDigit : ∀ n < 32,
    hexUnit? '0' '0' (Text.hexDigit (n / 16)) (Text.hexDigit (n % 16)) = some n := by
  decide

theorem scanText_control {c : Char} (h : c.toNat < 0x20) (rest : List Char) :
    scanText ('\\' :: 'u' :: '0' :: '0' :: Text.hexDigit (c.toNat / 16) ::
      Text.hexDigit (c.toNat % 16) :: rest) = pushChar c 6 (scanText rest) := by
  rw [scanText, hexUnit?_hexDigit c.toNat h]
  dsimp only
  rw [if_neg (by omega), if_neg (by omega), Char.ofNat_toNat]

theorem scanText_plain {c : Char} (hquote : c ≠ '"') (hbackslash : c ≠ '\\')
    (h : ¬ c.toNat < 0x20) (rest : List Char) :
    scanText (c :: rest) = pushChar c 1 (scanText rest) := by
  rw [scanText.eq_def]
  split
  · next heq => cases heq
  · next heq => exact absurd (List.cons.inj heq).1 hquote
  · next heq => exact absurd (List.cons.inj heq).1 hbackslash
  · next heq => exact absurd (List.cons.inj heq).1 hbackslash
  · next heq => exact absurd (List.cons.inj heq).1 hbackslash
  · next heq => exact absurd (List.cons.inj heq).1 hbackslash
  · next heq =>
    obtain ⟨rfl, rfl⟩ := List.cons.inj heq
    rw [if_neg h]

/-- An escaped character is read as itself. -/
theorem scanText_escapeChar (c : Char) (rest : List Char) :
    scanText (Json.escapeChar c ++ rest) =
      pushChar c (Json.escapeChar c).length (scanText rest) := by
  unfold Json.escapeChar
  split
  iterate 7 rfl
  · next hquote hbackslash _ _ _ _ _ =>
    -- of the other characters only control characters are written as numbers
    split
    · next h => exact scanText_control h rest
    · next h => exact scanText_plain hquote hbackslash h rest

theorem scanText_flatMap (cs : List Char) (rest : List Char) :
    scanText (cs.flatMap Json.escapeChar ++ '"' :: rest) =
      .ok (cs, (cs.flatMap Json.escapeChar).length + 1) := by
  induction cs with
  | nil => rfl
  | cons c cs ih =>
    rw [List.flatMap_cons, List.append_assoc, scanText_escapeChar, ih, List.length_append,
      Nat.add_assoc]
    rfl

/-- A printed string is one token. -/
theorem tokens_renderText (cs : List Char) (rest : List Char) :
    tokens (Json.renderText cs ++ rest) = .text (String.ofList cs) :: tokens rest := by
  unfold Json.renderText
  rw [List.cons_append]
  refine tokens_cons rfl ?_
  unfold scan
  rw [List.append_assoc, List.singleton_append, scanText_flatMap, List.length_append]
  rfl

/-! ### The tokens of a value -/

theorem tokens_replicate (n : Nat) (rest : List Char) :
    tokens (List.replicate n ' ' ++ rest) = tokens rest := by
  induction n with
  | zero => rfl
  | succ n ih => exact ih

theorem tokens_lineBreak (layout : Json.Layout) (level : Nat) (rest : List Char) :
    tokens (layout.lineBreak level ++ rest) = tokens rest := by
  cases layout with
  | compact => rfl
  | pretty => exact tokens_replicate (2 * level) rest

theorem tokens_colon (layout : Json.Layout) (rest : List Char) :
    tokens (layout.colon ++ rest) = .colon :: tokens rest := by
  cases layout <;> rfl

theorem endsNumber_of_head? {c : Char} (h : rest.head? = some c)
    (hc : isDigit c = false ∧ c ≠ '.' ∧ c ≠ 'e' ∧ c ≠ 'E') : EndsNumber rest := by
  intro d hd
  rw [h] at hd
  cases hd
  exact hc

end JsonToken

namespace Json

open JsonToken

mutual

/-- The tokens of a value. -/
def tokenList : Json → List JsonToken
  | .array [] => [.arrayOpen, .arrayClose]
  | .array (item :: items) => .arrayOpen :: (tokenList item ++ itemTokens items)
  | .object [] => [.objectOpen, .objectClose]
  | .object ((key, value) :: fields) =>
    .objectOpen :: .text key :: .colon :: (tokenList value ++ fieldTokens fields)
  | .string s => [.text s]
  | value => [.scalar value]

/-- The tokens of the further items of an array. -/
def itemTokens : List Json → List JsonToken
  | [] => [.arrayClose]
  | item :: items => .comma :: (tokenList item ++ itemTokens items)

/-- The tokens of the further fields of an object. -/
def fieldTokens : List (String × Json) → List JsonToken
  | [] => [.objectClose]
  | (key, value) :: fields =>
    .comma :: .text key :: .colon :: (tokenList value ++ fieldTokens fields)

end

/-! ### From a value to tokens -/

/-- Whether every double in a value reads back from its own text. -/
def DoublesReadBack (value : Json) : Prop :=
  ∀ x, Contains x value → parse (compact (.number (.double x))) = .ok (.number (.double x))

theorem endsNumber_renderItems (layout : Layout) (level : Nat) (items : List Json)
    (rest : List Char) : EndsNumber (renderItems layout level items ++ rest) := by
  cases items with
  | nil => cases layout <;> exact endsNumber_of_head? rfl (by decide)
  | cons item items => exact endsNumber_of_head? rfl (by decide)

theorem endsNumber_renderFields (layout : Layout) (level : Nat) (fields : Fields Json)
    (rest : List Char) : EndsNumber (renderFields layout level fields ++ rest) := by
  cases fields with
  | nil => cases layout <;> exact endsNumber_of_head? rfl (by decide)
  | cons field fields => exact endsNumber_of_head? rfl (by decide)

/-- Whether a value is cut into its tokens, wherever it is printed. -/
def PrintsTokens (layout : Layout) (value : Json) : Prop :=
  ∀ level rest, EndsNumber rest →
    tokens (renderAt layout level value ++ rest) = tokenList value ++ tokens rest

theorem tokens_comma (rest : List Char) : tokens (',' :: rest) = .comma :: tokens rest := rfl

theorem tokens_item {layout : Layout} {item : Json} (h : PrintsTokens layout item) (level : Nat)
    {rest : List Char} (hrest : EndsNumber rest) :
    tokens (layout.lineBreak level ++ renderAt layout level item ++ rest) =
      tokenList item ++ tokens rest := by
  rw [List.append_assoc, tokens_lineBreak, h level rest hrest]

theorem tokens_renderItems {layout : Layout} {items : List Json}
    (h : ∀ item ∈ items, PrintsTokens layout item) (level : Nat) (rest : List Char) :
    tokens (renderItems layout level items ++ rest) = itemTokens items ++ tokens rest := by
  induction items with
  | nil =>
    rw [renderItems, List.append_assoc, tokens_lineBreak]
    rfl
  | cons item items ih =>
    have hitem := tokens_item (h item List.mem_cons_self) (level + 1)
      (endsNumber_renderItems layout level items rest)
    have hitems := ih fun other hother => h other (List.mem_cons_of_mem _ hother)
    rw [renderItems, itemTokens]
    simp only [List.cons_append, tokens_comma, List.append_assoc] at hitem ⊢
    rw [hitem, hitems]

theorem tokens_field {layout : Layout} {value : Json} (h : PrintsTokens layout value)
    (level : Nat) (key : String) {rest : List Char} (hrest : EndsNumber rest) :
    tokens (layout.lineBreak level ++ renderText key.toList ++ layout.colon ++
      renderAt layout level value ++ rest) =
        .text key :: .colon :: (tokenList value ++ tokens rest) := by
  rw [List.append_assoc, List.append_assoc, List.append_assoc, tokens_lineBreak, tokens_renderText,
    tokens_colon, h level rest hrest, String.ofList_toList]

theorem tokens_renderFields {layout : Layout} {fields : Fields Json}
    (h : ∀ field ∈ fields, PrintsTokens layout field.2) (level : Nat) (rest : List Char) :
    tokens (renderFields layout level fields ++ rest) = fieldTokens fields ++ tokens rest := by
  induction fields with
  | nil =>
    rw [renderFields, List.append_assoc, tokens_lineBreak]
    rfl
  | cons field fields ih =>
    obtain ⟨key, value⟩ := field
    have hfield := tokens_field (h (key, value) List.mem_cons_self) (level + 1) key
      (endsNumber_renderFields layout level fields rest)
    have hfields := ih fun other hother => h other (List.mem_cons_of_mem _ hother)
    rw [renderFields, fieldTokens]
    simp only [List.cons_append, tokens_comma, List.append_assoc] at hfield ⊢
    rw [hfield, hfields]

/-- A value that fits is cut into its tokens. The induction is on how the value fits, so that items
    and fields are met with the same statement. -/
theorem printsTokens_of_fits (layout : Layout) {depth : Nat} {value : Json} (h : Fits depth value)
    (hdoubles : DoublesReadBack value) : PrintsTokens layout value := by
  induction h with
  | null => exact fun level rest _ => rfl
  | bool value =>
    intro level rest _
    cases value <;> rfl
  | @number _ n hrange =>
    intro level rest hrest
    cases n with
    | integer i => exact tokens_of_isNumeral (isNumeral_integer hrange) hrest
    | double x => exact tokens_of_isNumeral (isNumeral_double (hdoubles x .here)) hrest
  | string s =>
    intro level rest _
    rw [renderAt, tokens_renderText, String.ofList_toList]
    rfl
  | @array _ items _ _ ih =>
    -- a double in an item stands in the array too
    have hprints : ∀ item ∈ items, PrintsTokens layout item := fun item hmem =>
      ih item hmem fun x hx => hdoubles x (.item hmem hx)
    intro level rest _
    cases items with
    | nil => rfl
    | cons item items =>
      have hitem := tokens_item (hprints item List.mem_cons_self) (level + 1)
        (endsNumber_renderItems layout level items rest)
      have hitems := tokens_renderItems
        (fun other hother => hprints other (List.mem_cons_of_mem _ hother)) level rest
      have hopen : ∀ cs, tokens ('[' :: cs) = .arrayOpen :: tokens cs := fun cs => rfl
      rw [renderAt, tokenList]
      simp only [List.cons_append, hopen, List.append_assoc] at hitem ⊢
      rw [hitem, hitems]
  | @object _ fields _ _ _ ih =>
    have hprints : ∀ field ∈ fields, PrintsTokens layout field.2 := fun field hmem =>
      ih field hmem fun x hx => hdoubles x (.field hmem hx)
    intro level rest _
    cases fields with
    | nil => rfl
    | cons field fields =>
      obtain ⟨key, value⟩ := field
      have hfield := tokens_field (hprints (key, value) List.mem_cons_self) (level + 1) key
        (endsNumber_renderFields layout level fields rest)
      have hfields := tokens_renderFields
        (fun other hother => hprints other (List.mem_cons_of_mem _ hother)) level rest
      have hopen : ∀ cs, tokens ('\x7b' :: cs) = .objectOpen :: tokens cs := fun cs => rfl
      rw [renderAt, tokenList]
      simp only [List.cons_append, hopen, List.append_assoc] at hfield ⊢
      rw [hfield, hfields]

/-! ### From tokens to a value -/

namespace Reader

/-- Whether the reader takes the beginning of a value into the given containers. -/
def ExpectsValue (reader : Reader) (frames : List Frame) : Prop :=
  ∀ token, token ≠ .arrayClose → reader.step token = begin frames token

theorem expectsValue_value (frames : List Frame) : ExpectsValue ⟨frames, .value⟩ frames :=
  fun _ _ => rfl

theorem expectsValue_firstItem (frames : List Frame) :
    ExpectsValue ⟨frames, .firstItem⟩ (.items [] :: frames) := by
  intro token h
  cases token with
  | arrayClose => exact absurd rfl h
  | _ => rfl

theorem expectsValue_item (frames : List Frame) (done : List Json) :
    ExpectsValue ⟨frames, .item done⟩ (.items done :: frames) := by
  intro token h
  cases token with
  | arrayClose => exact absurd rfl h
  | _ => rfl

theorem run_cons_of_step {reader next : Reader} {token : JsonToken}
    (h : reader.step token = .ok next) (tokens : List JsonToken) :
    reader.run (token :: tokens) = next.run tokens := by
  rw [run_cons, h]
  rfl

/-- Whether the tokens of a value make it, wherever it may stand at a level. -/
def Makes (level : Nat) (value : Json) : Prop :=
  ∀ reader frames tokens, ExpectsValue reader frames → frames.length = level →
    reader.run (tokenList value ++ tokens) = (deliver frames value).run tokens

/-- The further items are added to those before. -/
theorem run_itemTokens {frames : List Frame} {items : List Json}
    (h : ∀ item ∈ items, Makes (frames.length + 1) item) (done : List Json)
    (tokens : List JsonToken) :
    run ⟨frames, .itemEnd done⟩ (itemTokens items ++ tokens) =
      run (deliver frames (.array (done.reverse ++ items))) tokens := by
  induction items generalizing done with
  | nil =>
    rw [List.append_nil]
    rfl
  | cons item items ih =>
    have hitem := h item List.mem_cons_self ⟨frames, .item done⟩ (.items done :: frames)
      (itemTokens items ++ tokens) (expectsValue_item frames done) rfl
    have hitems := ih (fun other hother => h other (List.mem_cons_of_mem _ hother)) (item :: done)
    rw [List.reverse_cons, List.append_assoc, List.singleton_append] at hitems
    rw [itemTokens, List.cons_append, List.append_assoc]
    exact (run_cons_of_step rfl _).trans (hitem.trans hitems)

/-- The further fields are added to those before, if their keys are new. -/
theorem run_fieldTokens {frames : List Frame} {fields : Fields Json}
    (h : ∀ field ∈ fields, Makes (frames.length + 1) field.2) (done : Fields Json)
    (hkeys : (Fields.keys (done ++ fields)).Nodup) (tokens : List JsonToken) :
    run ⟨frames, .fieldEnd done⟩ (fieldTokens fields ++ tokens) =
      run (deliver frames (.object (done ++ fields))) tokens := by
  induction fields generalizing done with
  | nil =>
    rw [List.append_nil]
    rfl
  | cons field fields ih =>
    obtain ⟨key, value⟩ := field
    -- a key that is new goes to the end, so the fields keep their order
    have hnew : key ∉ Fields.keys done := by
      intro hmem
      unfold Fields.keys at hkeys hmem
      rw [List.map_append, List.map_cons] at hkeys
      exact (List.nodup_append.mp hkeys).2.2 key hmem key List.mem_cons_self rfl
    have hfield := h (key, value) List.mem_cons_self ⟨.member done key :: frames, .value⟩
      (.member done key :: frames) (fieldTokens fields ++ tokens) (expectsValue_value _) rfl
    have hfields := ih (fun other hother => h other (List.mem_cons_of_mem _ hother))
      (done ++ [(key, value)]) (by rwa [List.append_assoc])
    rw [List.append_assoc, List.singleton_append] at hfields
    rw [deliver, Fields.set_of_notMem hnew] at hfield
    rw [fieldTokens, List.cons_append, List.cons_append, List.cons_append, List.append_assoc]
    rw [run_cons_of_step rfl, run_cons_of_step rfl, run_cons_of_step rfl]
    exact hfield.trans hfields

/-- A value of one token. -/
theorem makes_of_token {level : Nat} {value : Json} {token : JsonToken}
    (htokens : tokenList value = [token]) (hne : token ≠ .arrayClose)
    (h : ∀ frames, begin frames token = .ok (deliver frames value)) : Makes level value := by
  intro reader frames tokens hreader _
  rw [htokens, List.singleton_append]
  exact run_cons_of_step ((hreader token hne).trans (h frames)) tokens

/-- The tokens of a value that fits make it again. -/
theorem makes_of_fits {level : Nat} {value : Json} (h : Fits level value) : Makes level value := by
  induction h with
  | null => exact makes_of_token rfl (by simp) fun _ => rfl
  | bool value => exact makes_of_token rfl (by simp) fun _ => rfl
  | number _ => exact makes_of_token rfl (by simp) fun _ => rfl
  | string s => exact makes_of_token rfl (by simp) fun _ => rfl
  | @array level items hlevel _ ih =>
    intro reader frames tokens hreader hlength
    subst hlength
    -- the array may be opened here, because the level of a value is the number of open containers
    have hopen : reader.step .arrayOpen = .ok ⟨frames, .firstItem⟩ := by
      rw [hreader .arrayOpen (by simp), begin, if_pos hlevel]
    cases items with
    | nil =>
      rw [tokenList, List.cons_append, run_cons_of_step hopen]
      rfl
    | cons item items =>
      have hitem := ih item List.mem_cons_self ⟨frames, .firstItem⟩ (.items [] :: frames)
        (itemTokens items ++ tokens) (expectsValue_firstItem frames) rfl
      have hitems := run_itemTokens (fun other hother => ih other (List.mem_cons_of_mem _ hother))
        [item] tokens
      rw [tokenList, List.cons_append, run_cons_of_step hopen, List.append_assoc]
      exact hitem.trans hitems
  | @object level fields hlevel hkeys _ ih =>
    intro reader frames tokens hreader hlength
    subst hlength
    have hopen : reader.step .objectOpen = .ok ⟨frames, .firstKey⟩ := by
      rw [hreader .objectOpen (by simp), begin, if_pos hlevel]
    cases fields with
    | nil =>
      rw [tokenList, List.cons_append, run_cons_of_step hopen]
      rfl
    | cons field fields =>
      obtain ⟨key, value⟩ := field
      have hfield := ih (key, value) List.mem_cons_self ⟨.member [] key :: frames, .value⟩
        (.member [] key :: frames) (fieldTokens fields ++ tokens) (expectsValue_value _) rfl
      have hfields := run_fieldTokens (fun other hother => ih other (List.mem_cons_of_mem _ hother))
        [(key, value)] hkeys tokens
      rw [tokenList, List.cons_append, List.cons_append, List.cons_append, run_cons_of_step hopen,
        run_cons_of_step rfl, run_cons_of_step rfl, List.append_assoc]
      exact hfield.trans hfields

end Reader

/-- A value that fits at the outermost level is read from its text, in every layout and with
    anything behind it that holds no token. -/
theorem parseChars_renderAt {value : Json} (h : Fits 0 value) (hdoubles : DoublesReadBack value)
    (layout : Layout) {rest : List Char} (hrest : EndsNumber rest) (hnone : tokens rest = []) :
    parseChars (renderAt layout 0 value ++ rest) = .ok value := by
  have htokens := printsTokens_of_fits layout h hdoubles 0 rest hrest
  have hrun := Reader.makes_of_fits h Reader.start [] [] (Reader.expectsValue_value []) rfl
  rw [hnone] at htokens
  unfold parseChars
  rw [htokens, hrun]
  rfl

end Json

end PackageRelease
