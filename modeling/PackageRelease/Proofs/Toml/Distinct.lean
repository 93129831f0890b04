import Mathlib.Data.Option.Basic
import PackageRelease.Proofs.Json.Value
import PackageRelease.Proofs.Outcome
import PackageRelease.Settings.File

/-! # Keys of a settings file

  No table of a TOML document has a key twice, wherever it stands. Two invariants carry this. A
  change of a table that keeps it distinct can be made at the end of any path, so the statements of
  a document lead from the empty table to a distinct one. And the values in the statements are
  distinct themselves, because the reader adds to an inline table in the same way.
-/

namespace PackageRelease

/-- A value under a key is one of the values. -/
theorem Fields.mem_of_get? {α : Type} {fields : Fields α} {key : String} {value : α}
    (h : fields.get? key = some value) : (key, value) ∈ fields := by
  obtain ⟨front, back, rfl, -⟩ := List.lookup_eq_some_iff.mp h
  exact List.mem_append_right front List.mem_cons_self

namespace Toml

/-- No table in a value has a key twice. -/
inductive Distinct : Toml → Prop where
  /-- There is no table in a string. -/
  | string (value : String) : Distinct (.string value)
  /-- There is no table in a number. -/
  | integer (value : Int) : Distinct (.integer value)
  /-- There is no table in a number. -/
  | float (value : TomlFloat) : Distinct (.float value)
  /-- There is no table in a truth value. -/
  | bool (value : Bool) : Distinct (.bool value)
  /-- There is no table in a date. -/
  | moment (text : String) : Distinct (.moment text)
  /-- An array has tables in its items only. -/
  | array {items : List Toml} {ofTables : Bool} (hitems : ∀ item ∈ items, Distinct item) :
      Distinct (.array items ofTables)
  /-- A table is one, and its values may hold further ones. -/
  | table {fields : Fields Toml} {kind : TableKind} (hkeys : fields.keys.Nodup)
      (hfields : ∀ field ∈ fields, Distinct field.2) : Distinct (.table fields kind)

variable {fields : Fields Toml} {kind : TableKind} {key : String} {value : Toml}

namespace Distinct

theorem keys_nodup (h : Distinct (.table fields kind)) : fields.keys.Nodup := by
  cases h with
  | table hkeys _ => exact hkeys

theorem of_get? (h : Distinct (.table fields kind)) (hget : fields.get? key = some value) :
    Distinct value := by
  cases h with
  | table _ hfields => exact hfields _ (Fields.mem_of_get? hget)

theorem of_mem_items {items : List Toml} {ofTables : Bool} {item : Toml}
    (h : Distinct (.array items ofTables)) (hmem : item ∈ items) : Distinct item := by
  cases h with
  | array hitems => exact hitems item hmem

theorem empty (kind : TableKind) : Distinct (.table [] kind) := .table List.nodup_nil nofun

/-- How a table came about does not matter. -/
theorem withKind (h : Distinct (.table fields kind)) (other : TableKind) :
    Distinct (.table fields other) := by
  cases h with
  | table hkeys hfields => exact .table hkeys hfields

theorem set (h : Distinct (.table fields kind)) (key : String) (hvalue : Distinct value) :
    Distinct (.table (fields.set key value) kind) := by
  cases h with
  | table hkeys hfields =>
    refine .table (Fields.nodup_keys_set hkeys) fun field hmem => ?_
    rcases Fields.mem_of_mem_set hmem with rfl | hbefore
    · exact hvalue
    · exact hfields field hbefore

/-- A key that is put last has no other place. -/
theorem putLast (h : Distinct (.table fields kind)) (key : String) (hvalue : Distinct value) :
    Distinct (.table (fields.filter (fun field => field.1 ≠ key) ++ [(key, value)]) kind) := by
  cases h with
  | table hkeys hfields =>
    refine .table ?_ fun field hmem => ?_
    · unfold Fields.keys
      rw [List.map_append, List.map_singleton]
      refine List.nodup_append.mpr ⟨hkeys.sublist (List.filter_sublist.map _),
        List.pairwise_singleton _ key, fun other hother last hlast => ?_⟩
      obtain ⟨field, hfield, rfl⟩ := List.mem_map.mp hother
      rw [List.mem_singleton.mp hlast]
      exact of_decide_eq_true (List.mem_filter.mp hfield).2
    · rcases List.mem_append.mp hmem with hbefore | hlast
      · exact hfields field (List.mem_filter.mp hbefore).1
      · rw [List.mem_singleton.mp hlast]
        exact hvalue

end Distinct

/-- What there is, if anything, is distinct. -/
def DistinctIn (content? : Option Toml) : Prop := ∀ content ∈ content?, Distinct content

theorem distinctIn_some (h : Distinct value) : DistinctIn (some value) := by
  intro content hcontent
  cases hcontent
  exact h

theorem distinctIn_none : DistinctIn none := nofun

/-! ### Building tables -/

/-- A change leads from a distinct table to a distinct one. -/
def Keeps (change : Place → Option Place) : Prop :=
  ∀ place next, Distinct (.table place.1 place.2) → change place = some next →
    Distinct (.table next.1 next.2)

section building
variable {change fill : Place → Option Place}

/-- A change keeps tables distinct also at the end of a path. -/
theorem keeps_modifyAt (h : Keeps change) (byDottedKey : Bool) (path : List String) :
    Keeps (modifyAt byDottedKey change path) := by
  induction path with
  | nil => exact h
  | cons key path ih =>
    rintro ⟨fields, kind⟩ next hplace hnext
    unfold modifyAt at hnext
    -- the way goes through a table that is made, through one that is there, or through an array
    split at hnext
    · obtain ⟨⟨inner, made⟩, hinner, hnext⟩ := Option.bind_eq_some_iff.mp hnext
      cases hnext
      exact hplace.set key (ih _ _ (.empty _) hinner)
    · next inner innerKind hget =>
      obtain ⟨-, -, hnext⟩ := Option.bind_eq_some_iff.mp hnext
      obtain ⟨⟨inner, innerKind⟩, hinner, hnext⟩ := Option.bind_eq_some_iff.mp hnext
      cases hnext
      exact hplace.set key (ih _ _ (hplace.of_get? hget) hinner)
    · next items hget =>
      split at hnext
      · next inner innerKind hlast =>
        obtain ⟨⟨inner, innerKind⟩, hinner, hnext⟩ := Option.bind_eq_some_iff.mp hnext
        cases hnext
        have hitems := hplace.of_get? hget
        refine hplace.set key (.array fun item hmem => ?_)
        rcases List.mem_append.mp hmem with hbefore | hitem
        · exact hitems.of_mem_items (List.dropLast_subset _ hbefore)
        · rw [List.mem_singleton.mp hitem]
          exact ih _ _ (hitems.of_mem_items (List.mem_of_getLast? hlast)) hinner
      · cases hnext
    · cases hnext

theorem keeps_addField (key : String) (hvalue : Distinct value) : Keeps (addField key value) := by
  rintro ⟨fields, kind⟩ next hplace hnext
  obtain ⟨-, -, hnext⟩ := Option.bind_eq_some_iff.mp hnext
  cases hnext
  exact hplace.set key hvalue

theorem keeps_assign (path : List String) (key : String) (hvalue : Distinct value) :
    Keeps (assign path key value) := by
  refine keeps_modifyAt (fun place next hplace hnext => ?_) true path
  obtain ⟨-, -, hnext⟩ := Option.bind_eq_some_iff.mp hnext
  exact keeps_addField key hvalue place next hplace hnext

theorem keeps_fillTable (h : Keeps fill) (key : String) : Keeps (fillTable key fill) := by
  rintro ⟨fields, kind⟩ next hplace hnext
  obtain ⟨inner, hopened, hnext⟩ := Option.bind_eq_some_iff.mp hnext
  obtain ⟨⟨filled, innerKind⟩, hinner, hnext⟩ := Option.bind_eq_some_iff.mp hnext
  cases hnext
  refine hplace.putLast key (h _ _ ?_ hinner)
  -- what is opened is new or was a step on the way
  unfold opened? at hopened
  split at hopened
  · cases hopened
    exact .empty _
  · next hget =>
    cases hopened
    exact (hplace.of_get? hget).withKind _
  · cases hopened

theorem keeps_fillItem (h : Keeps fill) (key : String) : Keeps (fillItem key fill) := by
  rintro ⟨fields, kind⟩ next hplace hnext
  have hlonger {items : List Toml} (hitems : ∀ item ∈ items, Distinct item)
      (hnext : (fill ([], .headed) >>= fun filled =>
        some (fields.set key (.array (items ++ [.table filled.1 filled.2]) true), kind)) =
          some next) :
      Distinct (.table next.1 next.2) := by
    obtain ⟨⟨inner, innerKind⟩, hinner, hnext⟩ := Option.bind_eq_some_iff.mp hnext
    cases hnext
    refine hplace.set key (.array fun item hmem => ?_)
    rcases List.mem_append.mp hmem with hbefore | hitem
    · exact hitems item hbefore
    · rw [List.mem_singleton.mp hitem]
      exact h _ _ (.empty _) hinner
  unfold fillItem at hnext
  dsimp only at hnext
  split at hnext
  · exact @hlonger [] nofun hnext
  · next hget => exact hlonger (fun item => (hplace.of_get? hget).of_mem_items) hnext
  · cases hnext

end building

/-- If a statement is an assignment, its value is distinct. -/
def Statement.Distinct : Statement → Prop
  | .assignment _ value => value.Distinct
  | _ => True

section statements
variable {statements : List Statement}

theorem keeps_fill (h : ∀ statement ∈ statements, statement.Distinct) :
    Keeps (fill statements) := by
  induction statements with
  | nil =>
    intro place next hplace hnext
    cases hnext
    exact hplace
  | cons statement rest ih =>
    intro place next hplace hnext
    obtain ⟨hfirst, hrest⟩ := List.forall_mem_cons.mp h
    cases statement with
    | assignment key value =>
      obtain ⟨assigned, hassigned, hnext⟩ := Option.bind_eq_some_iff.mp hnext
      exact ih hrest _ _ (keeps_assign _ _ hfirst _ _ hplace hassigned) hnext
    | header key | itemHeader key =>
      cases hnext
      exact hplace

theorem keeps_build (h : ∀ statement ∈ statements, statement.Distinct) :
    Keeps (build statements) := by
  induction statements with
  | nil =>
    intro place next hplace hnext
    cases hnext
    exact hplace
  | cons statement rest ih =>
    intro place next hplace hnext
    obtain ⟨-, hrest⟩ := List.forall_mem_cons.mp h
    have hfill := keeps_fill hrest
    cases statement with
    | header key =>
      obtain ⟨opened, hopened, hnext⟩ := Option.bind_eq_some_iff.mp hnext
      exact ih hrest _ _
        (keeps_modifyAt (keeps_fillTable hfill _) _ _ _ _ hplace hopened) hnext
    | itemHeader key =>
      obtain ⟨opened, hopened, hnext⟩ := Option.bind_eq_some_iff.mp hnext
      exact ih hrest _ _
        (keeps_modifyAt (keeps_fillItem hfill _) _ _ _ _ hplace hopened) hnext
    | assignment key value => exact ih hrest _ _ hplace hnext

end statements

/-! ### The reader -/

/-- The inline table that a key is for, if it is for one. -/
def KeyUse.content? : KeyUse → Option Toml
  | .member done => some (.table done .braced)
  | _ => none

/-- What has been read of something that waits for a value. -/
def Frame.content? : Frame → Option Toml
  | .line _ => none
  | .items done => some (.array done false)
  | .member done _ => some (.table done .braced)

/-- What has been read of the array or the inline table that the reader is in. -/
def Expect.content? : Expect → Option Toml
  | .keyPart use _ | .keyEnd use _ _ => use.content?
  | .item done | .itemEnd done => some (.array done false)
  | .member done | .memberEnd done => some (.table done .braced)
  | _ => none

namespace Reader

variable {reader next : Reader} {token : TomlToken}

/-- What has been read is distinct so far. -/
structure Sound (reader : Reader) : Prop where
  /-- What waits for a value is. -/
  frames_distinct : ∀ frame ∈ reader.frames, DistinctIn frame.content?
  /-- What the reader is in is. -/
  content_distinct : DistinctIn reader.expect.content?
  /-- The statements are. -/
  statements_distinct : ∀ statement ∈ reader.statements, statement.Distinct

theorem sound_await (h : reader.Sound) {expect : Expect}
    (hnext : reader.await expect = some next) (hcontent : DistinctIn expect.content?) :
    next.Sound := by
  cases hnext
  exact ⟨h.frames_distinct, hcontent, h.statements_distinct⟩

theorem sound_state (h : reader.Sound) {statement : Statement}
    (hnext : reader.state statement = some next) (hstatement : statement.Distinct) :
    next.Sound := by
  cases hnext
  exact ⟨nofun, distinctIn_none, List.forall_mem_cons.mpr ⟨hstatement, h.statements_distinct⟩⟩

/-- A value that is handed over makes what waits for it larger by one. -/
theorem sound_deliver (h : reader.Sound) (hvalue : Distinct value)
    (hnext : reader.deliver value = some next) : next.Sound := by
  obtain ⟨frames, expect, statements⟩ := reader
  cases frames with
  | nil => cases hnext
  | cons frame rest =>
    obtain ⟨hframe, hrest⟩ := List.forall_mem_cons.mp h.frames_distinct
    cases frame with
    | line key => exact sound_state h hnext hvalue
    | items done =>
      cases hnext
      refine ⟨hrest, distinctIn_some (.array (List.forall_mem_cons.mpr ⟨hvalue, ?_⟩)),
        h.statements_distinct⟩
      exact fun item hmem => (hframe _ rfl).of_mem_items hmem
    | member done key =>
      obtain ⟨⟨done, doneKind⟩, hassign, hnext⟩ := Option.bind_eq_some_iff.mp hnext
      cases hnext
      have hdone := keeps_assign _ _ hvalue _ _ (hframe _ rfl) hassign
      exact ⟨hrest, distinctIn_some (hdone.withKind _), h.statements_distinct⟩

theorem sound_takeKeyPart (h : reader.Sound) {use : KeyUse} {parts : List String}
    (hnext : reader.takeKeyPart use parts token = some next) (huse : DistinctIn use.content?) :
    next.Sound := by
  obtain ⟨part, -, hnext⟩ := Option.bind_eq_some_iff.mp hnext
  exact sound_await h hnext huse

theorem sound_endKey (h : reader.Sound) {use : KeyUse} {key : Key}
    (hnext : reader.endKey use key token = some next) (huse : DistinctIn use.content?) :
    next.Sound := by
  unfold endKey at hnext
  split at hnext
  · exact sound_state h hnext trivial
  · exact sound_await h hnext distinctIn_none
  · cases hnext
    exact ⟨List.forall_mem_singleton.mpr distinctIn_none, distinctIn_none, h.statements_distinct⟩
  · cases hnext
    exact ⟨List.forall_mem_cons.mpr ⟨huse, h.frames_distinct⟩, distinctIn_none,
      h.statements_distinct⟩
  · cases hnext

theorem sound_begin (h : reader.Sound) (hnext : reader.begin token = some next) : next.Sound := by
  unfold begin at hnext
  split at hnext
  · exact sound_deliver h (.string _) hnext
  · exact sound_deliver h (.string _) hnext
  · exact sound_await h hnext distinctIn_none
  · split at hnext
    · exact sound_await h hnext (distinctIn_some (.array nofun))
    · cases hnext
  · split at hnext
    · exact sound_await h hnext (distinctIn_some (.empty _))
    · cases hnext
  · cases hnext

/-- An array is closed with its items in order. -/
theorem sound_closeArray (h : reader.Sound) {done : List Toml}
    (hdone : Distinct (.array done false))
    (hnext : reader.deliver (.array done.reverse false) = some next) : next.Sound :=
  sound_deliver h (.array fun _ hmem => hdone.of_mem_items (List.mem_reverse.mp hmem)) hnext

theorem sound_stepOutside (h : reader.Sound) (hnext : reader.stepOutside token = some next) :
    next.Sound := by
  obtain ⟨frames, expect, statements⟩ := reader
  have hcontent := h.content_distinct
  -- what the reader expects decides what a token adds to
  cases expect with
  | statement =>
    cases token with
    | lineEnd | space | blank =>
      cases hnext
      exact h
    | bracketOpen => exact sound_await h hnext distinctIn_none
    | _ => exact sound_takeKeyPart h hnext distinctIn_none
  | header =>
    cases token with
    | bracketOpen | space | blank => exact sound_await h hnext distinctIn_none
    | _ => exact sound_takeKeyPart h hnext distinctIn_none
  | keyPart use parts =>
    unfold stepOutside at hnext
    dsimp only at hnext
    split at hnext
    · cases hnext
      exact h
    · exact sound_takeKeyPart h hnext hcontent
  | keyEnd use path last =>
    cases token with
    | space | blank =>
      cases hnext
      exact h
    | dot => exact sound_await h hnext hcontent
    | _ => exact sound_endKey h hnext hcontent
  | headerClose key =>
    cases token with
    | bracketClose => exact sound_state h hnext trivial
    | _ => cases hnext
  | lineEnd =>
    cases token with
    | space | blank =>
      cases hnext
      exact h
    | lineEnd => exact sound_await h hnext distinctIn_none
    | _ => cases hnext
  | value =>
    unfold stepOutside at hnext
    dsimp only at hnext
    split at hnext
    · cases hnext
      exact h
    · exact sound_begin h hnext
  | item done =>
    have hopened : Sound ⟨.items done :: frames, .item done, statements⟩ :=
      ⟨List.forall_mem_cons.mpr ⟨hcontent, h.frames_distinct⟩, hcontent, h.statements_distinct⟩
    unfold stepOutside at hnext
    dsimp only at hnext
    split at hnext
    iterate 3
      cases hnext
      exact h
    · exact sound_closeArray h (hcontent _ rfl) hnext
    · exact sound_begin hopened hnext
  | itemEnd done =>
    cases token with
    | space | blank | lineEnd =>
      cases hnext
      exact h
    | comma => exact sound_await h hnext hcontent
    | bracketClose => exact sound_closeArray h (hcontent _ rfl) hnext
    | _ => cases hnext
  | member done =>
    cases token with
    | space | blank | lineEnd =>
      cases hnext
      exact h
    | braceClose => exact sound_deliver h (hcontent _ rfl) hnext
    | _ => exact sound_takeKeyPart h hnext hcontent
  | memberEnd done =>
    cases token with
    | space | blank | lineEnd =>
      cases hnext
      exact h
    | comma => exact sound_await h hnext hcontent
    | braceClose => exact sound_deliver h (hcontent _ rfl) hnext
    | _ => cases hnext
  | word letters | gap letters => cases hnext

/-- A word without quotes is no table and no array. -/
theorem distinct_of_ofWord? {letters : List Char}
    (h : ofWord? letters = some value) : Distinct value := by
  unfold ofWord? at h
  split at h
  · cases h
    exact .bool true
  · split at h
    · cases h
      exact .bool false
    · split at h
      · cases h
        exact .integer _
      · cases h
        exact .float _
      · cases h
        exact .moment _
      · cases h

theorem sound_endWord (h : reader.Sound) {letters : List Char}
    (hnext : reader.endWord letters = some next) : next.Sound := by
  obtain ⟨value, hvalue, hnext⟩ := Option.bind_eq_some_iff.mp hnext
  exact sound_deliver h (distinct_of_ofWord? hvalue) hnext

/-- One token keeps what has been read distinct. -/
theorem sound_step (h : reader.Sound) (hnext : reader.step token = some next) : next.Sound := by
  unfold step at hnext
  split at hnext
  · exact sound_await h hnext distinctIn_none
  · exact sound_await h hnext distinctIn_none
  · split at hnext
    · exact sound_await h hnext distinctIn_none
    · exact sound_endWord h hnext
  · split at hnext
    · exact sound_await h hnext distinctIn_none
    · cases hnext
  · obtain ⟨ended, hended, hnext⟩ := Option.bind_eq_some_iff.mp hnext
    exact sound_stepOutside (sound_endWord h hended) hnext
  · obtain ⟨ended, hended, hnext⟩ := Option.bind_eq_some_iff.mp hnext
    exact sound_stepOutside (sound_endWord h hended) hnext
  · exact sound_stepOutside h hnext

/-- Any number of tokens do. -/
theorem sound_run {tokens : List TomlToken} (h : reader.Sound)
    (hnext : reader.run tokens = some next) : next.Sound := by
  induction tokens generalizing reader with
  | nil =>
    cases hnext
    exact h
  | cons token tokens ih =>
    unfold run at hnext ih
    rw [List.foldlM_cons] at hnext
    obtain ⟨middle, hstep, hrest⟩ := Option.bind_eq_some_iff.mp hnext
    exact ih (sound_step h hstep) hrest

end Reader

/-- No table of a document has a key twice. -/
theorem distinct_of_parse? {text : String} (h : parse? text = some fields) :
    Distinct (.table fields .headed) := by
  obtain ⟨reader, hrun, h⟩ := Option.bind_eq_some_iff.mp h
  obtain ⟨statements, hfinish, h⟩ := Option.bind_eq_some_iff.mp h
  obtain ⟨filled, hfilled, h⟩ := Option.bind_eq_some_iff.mp h
  obtain ⟨⟨built, kind⟩, hbuilt, h⟩ := Option.bind_eq_some_iff.mp h
  cases h
  have hstart : Reader.start.Sound := ⟨nofun, distinctIn_none, nofun⟩
  have hstatements : ∀ statement ∈ statements, statement.Distinct := by
    obtain ⟨last, hstep, hfinish⟩ := Option.bind_eq_some_iff.mp hfinish
    have hlast := Reader.sound_step (Reader.sound_run hstart hrun) hstep
    split at hfinish
    · cases hfinish
      exact fun statement hmem => hlast.statements_distinct statement (List.mem_reverse.mp hmem)
    · cases hfinish
  have hplace := keeps_fill hstatements _ _ (.empty _) hfilled
  exact (keeps_build hstatements _ _ hplace hbuilt).withKind _

/-- If each field keeps its key, the fields together keep their keys. -/
theorem keys_of_mapM {read : String × Toml → Except TomlFault (String × String)}
    (hread : ∀ field text, read field = .ok text → text.1 = field.1)
    {texts : List (String × String)} (h : fields.mapM read = .ok texts) :
    texts.map Prod.fst = fields.keys := by
  induction fields generalizing texts with
  | nil =>
    cases h
    rfl
  | cons field fields ih =>
    rw [List.mapM_cons] at h
    obtain ⟨text, htext, h⟩ := bind_eq_ok.mp h
    obtain ⟨rest, hrest, h⟩ := bind_eq_ok.mp h
    cases h
    rw [List.map_cons, hread field text htext, ih hrest]
    rfl

/-- Named strings have the keys of the table that they are taken from. -/
theorem nodup_of_namedTexts {texts : List (String × String)} (hvalue : value.Distinct)
    (h : value.namedTexts = .ok texts) : (texts.map Prod.fst).Nodup := by
  unfold namedTexts at h
  split at h
  · obtain ⟨description, -, h⟩ := bind_eq_ok.mp (show (describe _ >>= _) = _ from h)
    cases h
  · next fields hfields =>
    obtain ⟨-, -, h⟩ := bind_eq_ok.mp h
    rw [keys_of_mapM (fun field text htext => ?_) h]
    · unfold fields? at hfields
      split at hfields
      · cases hfields
        exact hvalue.keys_nodup
      · cases hfields
        exact List.pairwise_singleton _ _
      · cases hfields
    · dsimp only at htext
      split at htext
      · cases htext
        rfl
      · cases htext

end Toml

/-! ### Fields that a settings file sets -/

namespace FileSettings

variable {s read : FileSettings} {value : Toml}

/-- Only the table of fields to set decides about them. -/
theorem setFields?_of_read {field : Field} (hfield : field ∈ fields)
    (h : field.read s value = .ok read) : read.setFields? = s.setFields? ∨
      ∃ texts, value.namedTexts = .ok texts ∧ read.setFields? = some texts := by
  simp only [fields, List.mem_cons, List.not_mem_nil, or_false] at hfield
  rcases hfield with rfl | rfl | rfl | rfl | rfl | rfl | rfl | rfl | rfl | rfl | rfl
  all_goals
    obtain ⟨content, hcontent, h⟩ := bind_eq_ok.mp h
    cases h
  iterate 6 exact .inl rfl
  · exact .inr ⟨content, hcontent, rfl⟩
  iterate 4 exact .inl rfl

/-- The fields that a settings file sets have different keys. -/
def SetsApart (s : FileSettings) : Prop :=
  ∀ fields, s.setFields? = some fields → (fields.map Prod.fst).Nodup

theorem setsApart_of_take {key : String} (hs : s.SetsApart) (hvalue : value.Distinct)
    (h : s.take key value = .ok read) : read.SetsApart := by
  unfold take at h
  split at h
  · cases h
  · next field hfield =>
    split at h
    · cases h
    · intro texts htexts
      rcases setFields?_of_read (List.mem_of_find?_eq_some hfield) h with hsame | ⟨own, hown, hread⟩
      · exact hs texts (hsame.symm.trans htexts)
      · cases hread.symm.trans htexts
        exact Toml.nodup_of_namedTexts hvalue hown

theorem setsApart_of_ofFields {document : Fields Toml}
    (hdocument : ∀ field ∈ document, field.2.Distinct) (h : ofFields document = .ok read) :
    read.SetsApart := by
  unfold ofFields at h
  have hstart : SetsApart {} := nofun
  generalize ({} : FileSettings) = s at h hstart
  induction document generalizing s with
  | nil =>
    cases h
    exact hstart
  | cons field document ih =>
    obtain ⟨hfield, hrest⟩ := List.forall_mem_cons.mp hdocument
    rw [List.foldlM_cons] at h
    obtain ⟨next, htake, h⟩ := bind_eq_ok.mp h
    exact ih hrest next h (setsApart_of_take hstart hfield htake)

/-- Whatever stands in a settings file, the fields that it sets have different keys. -/
theorem setsApart_of_load {files : FileSystem} {path : Path} (h : load files path = .ok read) :
    read.SetsApart := by
  unfold load at h
  split at h
  · cases h
  · split at h
    · cases h
    · next text _ _ hparse =>
      cases h
      unfold parse at hparse
      split at hparse
      · cases hparse
      · next document hdocument =>
        refine setsApart_of_ofFields ?_ hparse
        cases Toml.distinct_of_parse? hdocument with
        | table _ hfields => exact hfields

end FileSettings

end PackageRelease
