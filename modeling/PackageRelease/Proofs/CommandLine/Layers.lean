import PackageRelease.Proofs.CommandLine.Parsing
import PackageRelease.Proofs.Json.Numeral
import PackageRelease.Proofs.Manifest.Editing
import PackageRelease.Proofs.Release.Published

/-! # Layers of settings

  The settings of a command come from the words of the command line, from variables, from the
  settings file and from the built-in ones. The key idea: each setting has its own rule for which
  layer wins, so the rules are listed once, and they hold for every command because a command
  without an option leaves the layers below as they are.
-/

namespace PackageRelease

/-! ### Whole numbers in a variable -/

namespace Text

/-- A text for a whole number: digits, and perhaps a plus sign in front. -/
def Denotes (text : String) (n : Nat) : Prop :=
  ∃ digits, digits ≠ [] ∧ (∀ c ∈ digits, isDigit c = true) ∧ digitsValue digits = n ∧
    (text.toList = digits ∨ text.toList = '+' :: digits)

/-- Digits are read exactly if the number that they denote behind another one is in range. -/
theorem readInteger_go_eq_ok {greatest : Nat} {m : Int} (cs : List Char) (n : Nat)
    (hn : n ≤ greatest) : readInteger.go 0 greatest cs 1 n = .ok m ↔
      (∀ c ∈ cs, isDigit c = true) ∧
        cs.foldl (fun n c => 10 * n + digitValue c) n ≤ greatest ∧
        m = cs.foldl (fun n c => 10 * n + digitValue c) n := by
  induction cs generalizing n with
  | nil =>
    constructor
    · intro h
      exact ⟨fun _ hc => (nomatch hc), hn, (Except.ok.inj h).symm⟩
    · rintro ⟨-, -, rfl⟩
      rfl
  | cons c cs ih =>
    have hnext : 10 * (n : Int) + 1 * digitValue c = ((10 * n + digitValue c : Nat) : Int) := by
      omega
    unfold readInteger.go
    rw [hnext, List.foldl_cons, List.forall_mem_cons]
    by_cases hdigit : isDigit c = true
    · rw [if_pos hdigit, and_iff_right hdigit]
      dsimp only
      by_cases hrange : 10 * n + digitValue c ≤ greatest
      · rw [if_neg (by omega), if_neg (by omega)]
        exact ih _ hrange
      · have hlarge := JsonNumber.le_foldl_digits cs (10 * n + digitValue c)
        rw [if_pos (by omega)]
        refine iff_of_false nofun ?_
        rintro ⟨-, h, -⟩
        omega
    · rw [if_neg hdigit]
      exact iff_of_false nofun fun h => hdigit h.1.1

/-- Without negative numbers a text is read exactly if it denotes a number in range. -/
theorem readInteger_eq_ok (greatest : Nat) {text : String} {m : Int} :
    readInteger 0 greatest text = .ok m ↔ ∃ n : Nat, Denotes text n ∧ n ≤ greatest ∧ m = n := by
  have hread (digits : List Char) (hne : digits ≠ [])
      (hsign : text.toList = digits ∨ text.toList = '+' :: digits) :
      readInteger.go 0 greatest digits 1 0 = .ok m →
        ∃ n : Nat, Denotes text n ∧ n ≤ greatest ∧ m = n := by
    intro h
    obtain ⟨hdigits, hrange, hm⟩ := (readInteger_go_eq_ok digits 0 (Nat.zero_le _)).mp h
    exact ⟨_, ⟨digits, hne, hdigits, rfl, hsign⟩, hrange, hm⟩
  have hdenoted {digits : List Char} (hne : digits ≠ [])
      (hdigits : ∀ c ∈ digits, isDigit c = true) (hrange : digitsValue digits ≤ greatest) :
      readInteger.go 0 greatest digits 1 0 = .ok (digitsValue digits : Int) :=
    (readInteger_go_eq_ok digits 0 (Nat.zero_le _)).mpr ⟨hdigits, hrange, rfl⟩
  constructor
  · intro h
    unfold readInteger at h
    split at h
    · cases h
    · cases h
    · cases h
    · rename_i digits hne htext
      exact hread digits hne (.inr htext) h
    · cases h
    · rename_i hne _ _ _ _
      exact hread _ hne (.inl rfl) h
  · rintro ⟨n, ⟨digits, hne, hdigits, rfl, htext | htext⟩, hrange, rfl⟩
    · rw [← hdenoted hne hdigits hrange, ← htext]
      rw [← htext] at hne hdigits
      -- there is no sign in front
      have hsign {sign : Char} (h : isDigit sign = false) {cs : List Char} :
          text.toList ≠ sign :: cs := by
        intro hcs
        rw [hdigits sign (hcs ▸ List.mem_cons_self)] at h
        cases h
      unfold readInteger
      split
      · rename_i h
        exact absurd h hne
      · rename_i h
        exact absurd h (hsign rfl)
      · rename_i h
        exact absurd h (hsign rfl)
      · rename_i h
        exact absurd h (hsign rfl)
      · rename_i h
        exact absurd h (hsign rfl)
      · rfl
    · rw [← hdenoted hne hdigits hrange]
      obtain ⟨c, cs, rfl⟩ := List.exists_cons_of_ne_nil hne
      unfold readInteger
      rw [htext]
      rfl

end Text

/-- A variable asks for a number of further attempts that a word of 32 bits holds. -/
def Environment.AsksForRetries (environment : Environment) (n : Nat) : Prop :=
  ∃ text, environment.value? retriesVariable = some text ∧ Text.Denotes (Text.trim text) n ∧
    n < Word.count 32

/-- The variable is kept to the greatest number of further attempts. -/
theorem Environment.networkRetries_of_asks {environment : Environment} {n : Nat}
    (h : environment.AsksForRetries n) :
    environment.networkRetries.toNat = min n Settings.maxNetworkRetries.toNat := by
  obtain ⟨text, hvalue, hdenotes, hrange⟩ := h
  have hread : Text.readInteger 0 (Word.greatest 32) (Text.trim text) = .ok (n : Int) :=
    (Text.readInteger_eq_ok (Word.count 32 - 1)).mpr
      ⟨n, hdenotes, Nat.le_sub_one_of_lt hrange, rfl⟩
  unfold networkRetries
  rw [hvalue, Option.map_some, hread]
  dsimp only
  have hn : (UInt32.ofNat n).toNat = n := UInt32.toNat_ofNat_of_lt' hrange
  rw [Int.toNat_natCast]
  -- the minimum of words is the minimum of their numbers
  by_cases hle : UInt32.ofNat n ≤ Settings.maxNetworkRetries
  · have hmin : min (UInt32.ofNat n) Settings.maxNetworkRetries = UInt32.ofNat n := if_pos hle
    have hle := UInt32.le_iff_toNat_le.mp hle
    rw [hmin]
    omega
  · have hmin : min (UInt32.ofNat n) Settings.maxNetworkRetries = Settings.maxNetworkRetries :=
      if_neg hle
    have hle := mt UInt32.le_iff_toNat_le.mpr hle
    rw [hmin]
    omega

/-- A variable that asks for no such number allows no further attempt. -/
theorem Environment.networkRetries_of_not_asks {environment : Environment}
    (h : ∀ n, ¬ environment.AsksForRetries n) : environment.networkRetries = 0 := by
  unfold networkRetries
  split
  · rename_i m hm
    obtain ⟨text, hvalue, hread⟩ := Option.map_eq_some_iff.mp hm
    obtain ⟨n, hdenotes, hrange, -⟩ :=
      (Text.readInteger_eq_ok (Word.count 32 - 1)).mp hread
    exact absurd ⟨text, hvalue, hdenotes, Nat.lt_of_le_sub_one (by decide) hrange⟩ (h n)
  · rfl

/-! ### The rules -/

/-- The change of name that both names together ask for. -/
def EditOptions.rename? (edits : EditOptions) : Option RenameRule :=
  edits.renameFrom?.bind fun source => edits.renameTo?.map fun target => ⟨source, target⟩

/-- Which layer each setting comes from: the words of the command line as far as the command has the
    option, the variables, the settings file, and the built-in settings. -/
def Arguments.layers (flags : Arguments) (environment : Environment) (file : FileSettings) :
    Settings where
  -- every command has the options for the directory, the manifest and the registry
  artifactDirectory :=
    (flags.artifactDirectory?.or file.artifactDirectory?).getD Settings.builtIn.artifactDirectory
  manifestPath? := (flags.manifestPath?.or file.manifestPath?).or Settings.builtIn.manifestPath?
  registry := (flags.registryAddress?.or file.registryAddress?).getD Settings.builtIn.registry
  -- only an upload has the options for the token, the access level and the tag on the registry
  tokenVariable := ((flags.upload?.bind (·.tokenVariable?)).or file.tokenVariable?).getD
    Settings.builtIn.tokenVariable
  access := ((flags.upload?.bind (·.access?)).or file.access?).getD Settings.builtIn.access
  distTag := ((flags.upload?.bind (·.distTag?)).or file.distTag?).getD Settings.builtIn.distTag
  -- variables are the last resort for further attempts, and the only other source of a tag
  networkRetries := ((flags.upload?.bind (·.networkRetries?)).or file.networkRetries?).getD
    environment.networkRetries
  tag? := flags.upload?.bind fun upload => upload.tag?.or (environment.standIn? .tag)
  dryRun := flags.upload?.any (·.dryRun)
  checkExisting := file.checkExisting?.getD false || flags.upload?.any (·.checkExisting)
  -- uploads and changes of the manifest share their options for the latter
  rename? := (flags.edits?.bind (·.rename?)).or file.rename?
  addFiles := file.addFiles?.getD [] ++
    ((flags.edits?.elim [] (·.addFiles)).filter (· ∉ file.addFiles?.getD [])).eraseDups
  setFields := (flags.edits?.elim [] (·.setFields)).foldl setLast (file.setFields?.getD [])

namespace Arguments

variable {flags : Arguments}

theorem edits?_withVariables (flags : Arguments) (environment : Environment) :
    (flags.withVariables environment).edits? = flags.edits? := by
  unfold edits? withVariables
  cases flags.command <;> rfl

theorem upload?_withVariables (flags : Arguments) (environment : Environment) :
    (flags.withVariables environment).upload? = flags.upload?.map fun upload =>
      { upload with tag? := upload.tag?.or (environment.standIn? .tag) } := by
  unfold upload? withVariables
  cases flags.command <;> rfl

/-- Both names of a change of name, or none of them, are laid over settings without a failure. -/
theorem withEdits_eq {edits : EditOptions}
    (hpair : edits.renameFrom? = none ↔ edits.renameTo? = none) (s : Settings) :
    s.withEdits edits = .ok { s with
      rename? := edits.rename?.or s.rename?
      addFiles := s.addFiles ++ (edits.addFiles.filter (· ∉ s.addFiles)).eraseDups
      setFields := edits.setFields.foldl setLast s.setFields } := by
  unfold Settings.withEdits EditOptions.rename?
  rw [Edit.foldl_addOnce]
  cases hsource : edits.renameFrom? with
  | none =>
    rw [hpair.mp hsource]
    rfl
  | some source =>
    cases htarget : edits.renameTo? with
    | none =>
      rw [hpair.mpr htarget] at hsource
      cases hsource
    | some target => rfl

/-- Words that name both sides of a change of name or none always lead to settings. -/
theorem layer_withVariables (hpairs : flags.RenamesInPairs) (environment : Environment)
    (file : FileSettings) : (flags.withVariables environment).layer environment file =
      .ok (flags.layers environment file) := by
  unfold layer layers
  rw [edits?_withVariables, upload?_withVariables]
  -- commands differ in whether they change the manifest and whether they upload
  cases hedits : flags.edits? with
  | none =>
    refine congrArg Except.ok ?_
    cases hupload : flags.upload? with
    | none => simp [below, Settings.overlay, withVariables, Option.getD_or, Settings.builtIn]
    | some upload =>
      simp [below, Settings.overlay, Settings.withUpload, withVariables, Option.getD_or,
        Settings.builtIn]
  | some edits =>
    dsimp only
    rw [withEdits_eq (hpairs edits hedits)]
    refine congrArg Except.ok ?_
    cases hupload : flags.upload? with
    | none => simp [below, Settings.overlay, withVariables, Option.getD_or, Settings.builtIn]
    | some upload =>
      simp [below, Settings.overlay, Settings.withUpload, withVariables, Option.getD_or,
        Settings.builtIn]

/-- Only a settings file that cannot be used stands in the way. -/
theorem unusable_of_readFile {arguments : Arguments} {files : FileSystem} {failure : Failure}
    (h : arguments.readFile files = .error failure) : ∃ path reason,
      arguments.configFile? = some path ∧ failure = .usage (.unusableFile path reason) := by
  unfold readFile at h
  cases hpath : arguments.configFile? with
  | none =>
    rw [hpath] at h
    cases h
  | some path =>
    rw [hpath] at h
    dsimp only at h
    unfold FileSettings.load at h
    split at h
    · cases h
      exact ⟨path, _, rfl, rfl⟩
    · split at h
      · cases h
        exact ⟨path, _, rfl, rfl⟩
      · cases h

/-- The settings of a command line are those of its layers. -/
theorem settings_eq_map {arguments : Arguments} (hpairs : flags.RenamesInPairs)
    {environment : Environment} (harguments : arguments = flags.withVariables environment)
    (files : FileSystem) : arguments.settings files environment =
      (arguments.readFile files).map (flags.layers environment) := by
  subst harguments
  unfold settings
  cases (flags.withVariables environment).readFile files with
  | error failure => rfl
  | ok file => exact layer_withVariables hpairs environment file

/-- Variables for everything that variables can give. -/
def layeredEnvironment : Environment :=
  [("KODEGEN_WASM_PUBLISH_CONFIG", "c.toml"), ("KODEGEN_WASM_PUBLISH_TAG", "v2.0.0"),
    ("KODEGEN_WASM_PUBLISH_RETRY_NETWORK", "99")]

/-- A settings file that gives a directory and files. -/
def layeredFiles : FileSystem where
  entries := [(["c.toml"], .file (Text.encode
    "artifact-dir = \"p\"\nmanifest = \"m.json\"\nfiles = [\"a\", \"c\"]\n"))]
  workingDirectory := []

/-- Words for another directory, and for files of which some are given already. -/
def layeredWords : List String :=
  ["publish", "--artifact-dir", "d", "--add-file", "b", "--add-file", "c", "--add-file", "b"]

/-- What the words and the variables ask for. -/
def layeredArguments : Arguments where
  configFile? := some ⟨"c.toml"⟩
  artifactDirectory? := some ⟨"d"⟩
  manifestPath? := none
  registryAddress? := none
  verbosity := ⟨false, false⟩
  command := .publish ⟨none, none, ["b", "c", "b"], []⟩
    ⟨none, none, none, some "v2.0.0", false, false, false, none⟩

example : (layeredArguments.settings layeredFiles layeredEnvironment).map (fun s =>
    (s.artifactDirectory.text, s.manifestPath.text, s.addFiles, s.tag?, s.networkRetries)) =
      .ok ("d", "m.json", ["a", "c", "b"], some "v2.0.0", 10) := by
  decide +kernel

end Arguments

end PackageRelease
