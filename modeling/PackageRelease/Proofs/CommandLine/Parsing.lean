import PackageRelease.CommandLine.Parser
import PackageRelease.Proofs.Outcome

/-! # What the words say, and what the variables add

  Variables stand in for missing options. The key idea: the words are read without looking at the
  variables at all, so arguments are those of the words alone with a few gaps filled; which gaps,
  and with what, is settled once for the two levels of the command line.
-/

namespace PackageRelease

/-- The value of the variable that stands in for an option. -/
def Environment.standIn? (environment : Environment) (option : ValueOption) : Option String :=
  option.substitute?.bind environment.value?

theorem Environment.standIn?_of_substitute {environment : Environment} {option : ValueOption}
    (h : option.substitute? = none) : environment.standIn? option = none := by
  unfold standIn?
  rw [h]
  rfl

/-- No variable stands in for an option when there are none. -/
theorem Environment.standIn?_nil (option : ValueOption) :
    Environment.standIn? [] option = none := by
  unfold standIn? value?
  cases option.substitute? with
  | none => rfl
  | some name =>
    dsimp only [Option.bind_some]
    split <;> rfl

/-! ### Filling gaps -/

namespace LevelContent

variable {environment : Environment} {options : List ValueOption}
  {content filled added : LevelContent} {option : ValueOption}

theorem eq_of_addValue {origin : Origin} {value : String}
    (h : content.addValue origin option value = .ok added) :
    added = { content with values := content.values ++ [⟨option, origin, value⟩] } := by
  unfold addValue at h
  split at h
  · cases h
  · obtain ⟨_, -, h⟩ := bind_eq_ok.mp h
    exact (Except.ok.inj h).symm

theorem eq_of_addSwitch {switch : Switch} (h : content.addSwitch switch = .ok added) :
    added = { content with switches := content.switches ++ [switch] } := by
  unfold addSwitch at h
  split at h
  · cases h
  · cases h
  · split at h
    · cases h
    · exact (Except.ok.inj h).symm

/-- A level with the gaps filled that variables can fill. -/
structure Filled (environment : Environment) (options : List ValueOption)
    (content filled : LevelContent) : Prop where
  /-- The options without a value stay as they are. -/
  switches_eq : filled.switches = content.switches
  /-- What was given for an option stays; otherwise the variable stands in for it, if the option has
      its place on the level. -/
  find?_eq : ∀ option, filled.find? option = (content.find? option).or
    (if option ∈ options then (environment.standIn? option).map (⟨option, .environment, ·⟩)
      else none)
  /-- Options for which no variable can stand in stay as they are. -/
  allValues_eq : ∀ option, option.substitute? = none →
    filled.allValues option = content.allValues option

theorem filled_refl (content : LevelContent) : Filled environment [] content content where
  switches_eq := rfl
  find?_eq option := by simp
  allValues_eq _ _ := rfl

/-- An option that was given has no gap, and neither has one without a variable. -/
theorem Filled.skip (h : Filled environment options content filled)
    (hkept : ∀ value, environment.standIn? option = some value → content.find? option ≠ none) :
    Filled environment (option :: options) content filled where
  switches_eq := h.switches_eq
  find?_eq other := by
    rw [h.find?_eq other]
    by_cases hother : other = option
    · subst hother
      cases hvalue : environment.standIn? other with
      | none => simp
      | some value =>
        obtain ⟨given, hgiven⟩ := Option.ne_none_iff_exists'.mp (hkept value hvalue)
        simp [hgiven]
    · simp [hother]
  allValues_eq := h.allValues_eq

/-- A variable fills the gap of an option that was not given. -/
theorem Filled.fill {value : String} (hvalue : environment.standIn? option = some value)
    (hgap : content.find? option = none)
    (h : Filled environment options
      { content with values := content.values ++ [⟨option, .environment, value⟩] } filled) :
    Filled environment (option :: options) content filled where
  switches_eq := h.switches_eq
  find?_eq other := by
    have hfound : LevelContent.find?
        { content with values := content.values ++ [⟨option, .environment, value⟩] } other =
          (content.find? other).or
            (if option = other then some ⟨option, .environment, value⟩ else none) := by
      unfold LevelContent.find?
      rw [List.find?_append]
      by_cases hother : option = other <;> simp [hother]
    rw [h.find?_eq other, hfound]
    by_cases hother : option = other
    · subst hother
      simp [hgap, hvalue]
    · simp [hother, Ne.symm hother]
  allValues_eq other hother := by
    -- the option has a variable, so it is another one
    have hne : option ≠ other := by
      rintro rfl
      rw [Environment.standIn?_of_substitute hother] at hvalue
      cases hvalue
    rw [h.allValues_eq other hother]
    unfold allValues
    simp [hne]

/-- The induction is on the options; each of them is either filled in or skipped. -/
theorem filled_of_addVariables
    (h : LevelReader.addVariables environment options content = .ok filled) :
    Filled environment options content filled := by
  induction options generalizing content with
  | nil =>
    cases h
    exact filled_refl _
  | cons option rest ih =>
    unfold LevelReader.addVariables at h
    split at h
    · rename_i value hvalue hgap
      obtain ⟨added, hadded, h⟩ := bind_eq_ok.mp h
      obtain rfl := eq_of_addValue hadded
      exact (ih h).fill hvalue hgap
    · rename_i hkept
      exact (ih h).skip fun value hvalue hgap => hkept value hvalue hgap

/-- Without variables everything stays as it is. -/
theorem addVariables_nil (options : List ValueOption) (content : LevelContent) :
    LevelReader.addVariables [] options content = .ok content := by
  induction options with
  | nil => rfl
  | cons option rest ih =>
    have hnone : option.substitute?.bind (Environment.value? []) = none :=
      Environment.standIn?_nil option
    unfold LevelReader.addVariables
    rw [hnone]
    exact ih

theorem Filled.has_eq (h : Filled environment options content filled) (switch : Switch) :
    filled.has switch = content.has switch := by
  unfold has
  rw [h.switches_eq]

theorem Filled.value?_eq (h : Filled environment options content filled) (option : ValueOption) :
    filled.value? option = (content.value? option).or
      (if option ∈ options then environment.standIn? option else none) := by
  unfold value?
  rw [h.find?_eq]
  cases content.find? option with
  | some given => rfl
  | none =>
    by_cases hoption : option ∈ options
    · cases environment.standIn? option <;> simp [hoption]
    · simp [hoption]

theorem Filled.find?_of_substitute (h : Filled environment options content filled)
    (hoption : option.substitute? = none) : filled.find? option = content.find? option := by
  rw [h.find?_eq, Environment.standIn?_of_substitute hoption]
  simp

theorem Filled.value?_of_substitute (h : Filled environment options content filled)
    (hoption : option.substitute? = none) : filled.value? option = content.value? option := by
  unfold value?
  rw [h.find?_of_substitute hoption]

end LevelContent

/-! ### The words -/

namespace LevelReader

variable {level : ArgumentLevel} {reader next : LevelReader}

/-- Everything so far was given on the command line, on one level. -/
structure Plain (level : ArgumentLevel) (reader : LevelReader) : Prop where
  /-- The level stays the same. -/
  level_eq : reader.level = level
  /-- No value comes from a variable. -/
  origin_eq : ∀ given ∈ reader.content.values, given.origin = .commandLine

theorem plain_start (level : ArgumentLevel) : Plain level (start level) where
  level_eq := rfl
  origin_eq _ h := nomatch h

theorem Plain.addValue {option : ValueOption} {value : String} {added : LevelContent}
    (h : Plain level reader)
    (hadded : reader.content.addValue .commandLine option value = .ok added) :
    Plain level { reader with content := added } where
  level_eq := h.level_eq
  origin_eq := by
    obtain rfl := LevelContent.eq_of_addValue hadded
    simpa [or_imp, forall_and] using h.origin_eq

theorem Plain.addSwitch {switch : Switch} {added : LevelContent} (h : Plain level reader)
    (hadded : reader.content.addSwitch switch = .ok added) :
    Plain level { reader with content := added } where
  level_eq := h.level_eq
  origin_eq := by
    obtain rfl := LevelContent.eq_of_addSwitch hadded
    exact h.origin_eq

theorem Plain.close (h : Plain level reader) (hclosed : reader.close = .ok next) :
    Plain level next := by
  unfold LevelReader.close at hclosed
  split at hclosed
  · cases hclosed
    exact h
  · cases hclosed
  · obtain ⟨added, hadded, hclosed⟩ := bind_eq_ok.mp hclosed
    cases hclosed
    exact ⟨h.level_eq, (h.addValue hadded).origin_eq⟩

theorem Plain.takeLong {name : String} {value? : Option String} (h : Plain level reader)
    (htaken : reader.takeLong name value? = .ok next) : Plain level next := by
  unfold LevelReader.takeLong at htaken
  split at htaken
  · obtain ⟨closed, hclosed, htaken⟩ := bind_eq_ok.mp htaken
    obtain ⟨added, hadded, htaken⟩ := bind_eq_ok.mp htaken
    cases htaken
    exact (h.close hclosed).addValue hadded
  · obtain ⟨closed, hclosed, htaken⟩ := bind_eq_ok.mp htaken
    cases htaken
    have hplain := h.close hclosed
    exact ⟨hplain.level_eq, hplain.origin_eq⟩
  · cases htaken
  · obtain ⟨closed, hclosed, htaken⟩ := bind_eq_ok.mp htaken
    obtain ⟨added, hadded, htaken⟩ := bind_eq_ok.mp htaken
    cases htaken
    exact (h.close hclosed).addSwitch hadded
  · cases htaken

theorem Plain.takeLetters {cs : List Char} (h : Plain level reader)
    (htaken : reader.takeLetters cs = .ok next) : Plain level next := by
  induction cs generalizing reader with
  | nil =>
    cases htaken
    exact h
  | cons c cs ih =>
    unfold LevelReader.takeLetters at htaken
    split at htaken
    · cases htaken
    · obtain ⟨closed, hclosed, htaken⟩ := bind_eq_ok.mp htaken
      obtain ⟨added, hadded, htaken⟩ := bind_eq_ok.mp htaken
      exact ih ((h.close hclosed).addSwitch hadded) htaken

/-- One word keeps everything plain. -/
theorem Plain.take {word : String} (h : Plain level reader) (htaken : reader.take word = .ok next) :
    Plain level next := by
  unfold LevelReader.take at htaken
  split at htaken
  · cases htaken
  · split at htaken
    · cases htaken
      exact ⟨h.level_eq, h.origin_eq⟩
    · exact h.takeLong htaken
    · exact h.takeLetters htaken
    · split at htaken
      · cases htaken
        exact ⟨h.level_eq, h.origin_eq⟩
      · cases htaken

theorem Plain.foldlM {words : List String} (h : Plain level reader)
    (htaken : words.foldlM LevelReader.take reader = .ok next) : Plain level next := by
  induction words generalizing reader with
  | nil =>
    cases htaken
    exact h
  | cons word words ih =>
    rw [List.foldlM_cons] at htaken
    obtain ⟨taken, hword, htaken⟩ := bind_eq_ok.mp htaken
    exact ih (h.take hword) htaken

theorem Plain.readProgramWords {words : List String}
    {command? : Option (CommandName × List String)} (h : Plain level reader)
    (hread : readProgramWords words reader = .ok (next, command?)) : Plain level next := by
  induction words generalizing reader with
  | nil =>
    cases hread
    exact h
  | cons word rest ih =>
    unfold PackageRelease.readProgramWords at hread
    split at hread
    · obtain ⟨taken, hword, hread⟩ := bind_eq_ok.mp hread
      exact ih (h.take hword) hread
    · split at hread
      · cases hread
      · split at hread
        · cases hread
          exact h
        · obtain ⟨taken, hword, hread⟩ := bind_eq_ok.mp hread
          exact ih (h.take hword) hread

/-- What was given on a level is what the words alone say, with the gaps filled. -/
theorem Plain.finish {environment : Environment} {filled : LevelContent} (h : Plain level reader)
    (hfinish : reader.finish environment = .ok filled) :
    ∃ content, reader.finish [] = .ok content ∧
      (∀ given ∈ content.values, given.origin = .commandLine) ∧
      content.Filled environment level.valueOptions filled := by
  obtain ⟨closed, hclosed, hfilled⟩ := bind_eq_ok.mp hfinish
  have hplain := h.close hclosed
  have hfilled := LevelContent.filled_of_addVariables hfilled
  rw [hplain.level_eq] at hfilled
  exact ⟨closed.content, bind_eq_ok.mpr ⟨closed, hclosed, LevelContent.addVariables_nil _ _⟩,
    hplain.origin_eq, hfilled⟩

end LevelReader

/-! ### What has to fit together -/

namespace LevelContent

variable {environment : Environment} {options : List ValueOption} {content filled : LevelContent}

/-- What was given on a level fits together. -/
structure Consistent (content : LevelContent) : Prop where
  /-- More and less output are not wanted at once. -/
  verbosity : ¬ (content.has .verbose = true ∧ content.has .quiet = true)
  /-- No option lacks the one that it needs. -/
  partner : ∀ given ∈ content.values, ∀ partner, given.option.partner? = some partner →
    content.find? partner ≠ none

/-- The check of one option: it needs another one that was given too, or none. -/
def checkPartner (content : LevelContent) (given : Given) (_ : PUnit) :
    Except ArgumentFault (ForInStep PUnit) :=
  match given.option.partner? with
  | some partner =>
    if (content.find? partner).isNone = true then do
      throw (ArgumentFault.partnerMissing partner.name)
      pure (ForInStep.yield PUnit.unit)
    else pure (ForInStep.yield PUnit.unit)
  | none => pure (ForInStep.yield PUnit.unit)

theorem checkPartner_cases (content : LevelContent) (given : Given) :
    content.checkPartner given ⟨⟩ = .ok (.yield ⟨⟩) ∧
        (∀ partner, given.option.partner? = some partner → content.find? partner ≠ none) ∨
      (∃ fault, content.checkPartner given ⟨⟩ = .error fault) ∧
        ¬ ∀ partner, given.option.partner? = some partner → content.find? partner ≠ none := by
  unfold checkPartner
  cases given.option.partner? with
  | none => exact .inl ⟨rfl, nofun⟩
  | some partner =>
    dsimp only
    by_cases hmissing : (content.find? partner).isNone = true
    · simp only [if_pos hmissing]
      exact .inr ⟨⟨.partnerMissing partner.name, rfl⟩,
        fun h => h partner rfl (Option.isNone_iff_eq_none.mp hmissing)⟩
    · simp only [if_neg hmissing]
      refine .inl ⟨rfl, fun other hother => ?_⟩
      cases hother
      exact fun hnone => hmissing (Option.isNone_iff_eq_none.mpr hnone)

theorem checkTogether_eq_ok : LevelReader.checkTogether content = .ok () ↔ content.Consistent := by
  have hpartners := forIn_eq_ok content.checkPartner content.checkPartner_cases content.values
  unfold LevelReader.checkTogether
  by_cases hverbosity : content.has .verbose = true ∧ content.has .quiet = true
  · refine iff_of_false ?_ fun h => h.verbosity hverbosity
    simp only [hverbosity.1, hverbosity.2]
    exact nofun
  · have hfalse : (content.has .verbose && content.has .quiet) = false := by
      simpa using hverbosity
    simp only [hfalse]
    constructor
    · intro h
      obtain ⟨_, h, -⟩ := bind_eq_ok.mp h
      exact ⟨hverbosity, hpartners.mp h⟩
    · intro h
      exact bind_eq_ok.mpr ⟨⟨⟩, hpartners.mpr h.partner, rfl⟩

theorem find?_ne_none_iff {option : ValueOption} :
    content.find? option ≠ none ↔ ∃ given ∈ content.values, given.option = option := by
  unfold LevelContent.find?
  simp

/-- An option that was given comes with the one that it needs. -/
theorem Consistent.find?_partner (h : content.Consistent) {option partner : ValueOption}
    (hpartner : option.partner? = some partner) (hfound : content.find? option ≠ none) :
    content.find? partner ≠ none := by
  obtain ⟨given, hmem, rfl⟩ := find?_ne_none_iff.mp hfound
  exact h.partner given hmem partner hpartner

/-- No variable stands in for an option that another one needs. -/
theorem substitute?_of_partner {option partner : ValueOption}
    (h : option.partner? = some partner) : partner.substitute? = none := by
  cases option <;> cases h <;> rfl

/-- Gaps in what fits together do no harm. -/
theorem Filled.consistent (hfilled : Filled environment options content filled)
    (h : filled.Consistent) : content.Consistent where
  verbosity := by
    rw [← hfilled.has_eq, ← hfilled.has_eq]
    exact h.verbosity
  partner given hmem partner hpartner := by
    have hfound : filled.find? given.option ≠ none := by
      have hgiven := find?_ne_none_iff.mpr ⟨given, hmem, rfl⟩
      obtain ⟨same, hsame⟩ := Option.ne_none_iff_exists'.mp hgiven
      rw [hfilled.find?_eq, hsame]
      exact nofun
    rw [← hfilled.find?_of_substitute (substitute?_of_partner hpartner)]
    exact h.find?_partner hpartner hfound

end LevelContent

/-! ### Both levels -/

section levels

variable {environment : Environment} {name : CommandName}
  {program command filledProgram filledCommand : LevelContent}

/-- A variable stands in for an option of both levels only if it is given on neither. The values of
    the levels are told apart by where they come from. -/
theorem sharedValue?_filled
    (hprogram : ∀ given ∈ program.values, given.origin = .commandLine)
    (hcommand : ∀ given ∈ command.values, given.origin = .commandLine)
    (hfilled : program.Filled environment (ArgumentLevel.valueOptions .program) filledProgram)
    (hfilledCommand :
      command.Filled environment (ArgumentLevel.valueOptions (.command name)) filledCommand)
    {option : ValueOption} (hoption : option ∈ ArgumentLevel.sharedOptions) :
    sharedValue? filledProgram filledCommand option =
      (sharedValue? program command option).or (environment.standIn? option) := by
  have hbehind : option ∈ ArgumentLevel.valueOptions (.command name) := by
    cases name <;> simp [ArgumentLevel.valueOptions, hoption]
  have hfront : option ∈ ArgumentLevel.valueOptions .program := hoption
  unfold sharedValue?
  rw [hfilled.find?_eq, hfilledCommand.find?_eq, if_pos hbehind, if_pos hfront]
  -- a value in front of the command counts if the one behind it comes from the variable
  cases houter : program.find? option with
  | none =>
    cases command.find? option <;> cases environment.standIn? option <;> simp
  | some outer =>
    have horigin := hprogram outer (List.mem_of_find?_eq_some houter)
    cases hinner : command.find? option with
    | none => cases environment.standIn? option <;> simp [horigin]
    | some inner =>
      have hinnerOrigin := hcommand inner (List.mem_of_find?_eq_some hinner)
      simp [horigin, hinnerOrigin]

/-- The arguments of the words alone, with the variables for what the words do not give. -/
def Arguments.withVariables (flags : Arguments) (environment : Environment) : Arguments :=
  { flags with
    configFile? := flags.configFile?.or ((environment.standIn? .config).map Path.mk)
    command := match flags.command with
      | .publish edits upload =>
        .publish edits { upload with tag? := upload.tag?.or (environment.standIn? .tag) }
      | other => other }

theorem EditOptions.ofContent_filled {options : List ValueOption}
    (h : command.Filled environment options filledCommand) :
    EditOptions.ofContent filledCommand = EditOptions.ofContent command := by
  unfold EditOptions.ofContent
  rw [h.value?_of_substitute rfl, h.value?_of_substitute rfl, h.allValues_eq _ rfl,
    h.allValues_eq _ rfl]

theorem UploadOptions.ofContent_filled {options : List ValueOption} (htag : .tag ∈ options)
    (h : command.Filled environment options filledCommand) :
    UploadOptions.ofContent filledCommand =
      { UploadOptions.ofContent command with
        tag? := (UploadOptions.ofContent command).tag?.or (environment.standIn? .tag) } := by
  unfold UploadOptions.ofContent
  rw [h.value?_eq .tag, if_pos htag, h.value?_of_substitute rfl, h.value?_of_substitute rfl,
    h.value?_of_substitute rfl, h.value?_of_substitute rfl, h.has_eq, h.has_eq, h.has_eq]

theorem Command.ofContent_filled
    (h : command.Filled environment (ArgumentLevel.valueOptions (.command name)) filledCommand) :
    Command.ofContent name filledCommand = match Command.ofContent name command with
      | .publish edits upload =>
        .publish edits { upload with tag? := upload.tag?.or (environment.standIn? .tag) }
      | other => other := by
  unfold Command.ofContent
  cases name with
  | publish =>
    dsimp only
    rw [EditOptions.ofContent_filled h,
      UploadOptions.ofContent_filled (by simp [ArgumentLevel.valueOptions]) h]
  | transform =>
    dsimp only
    rw [EditOptions.ofContent_filled h]
  | pack =>
    dsimp only
    rw [h.value?_of_substitute rfl]
  | status =>
    dsimp only
    rw [h.has_eq]

theorem Arguments.ofContents_filled
    (hprogram : ∀ given ∈ program.values, given.origin = .commandLine)
    (hcommand : ∀ given ∈ command.values, given.origin = .commandLine)
    (hfilled : program.Filled environment (ArgumentLevel.valueOptions .program) filledProgram)
    (hfilledCommand :
      command.Filled environment (ArgumentLevel.valueOptions (.command name)) filledCommand) :
    Arguments.ofContents name filledProgram filledCommand =
      (Arguments.ofContents name program command).withVariables environment := by
  have hshared {option : ValueOption} (hoption : option ∈ ArgumentLevel.sharedOptions) :=
    sharedValue?_filled hprogram hcommand hfilled hfilledCommand hoption
  have hfixed {option : ValueOption} (hoption : option ∈ ArgumentLevel.sharedOptions)
      (hnone : option.substitute? = none) : sharedValue? filledProgram filledCommand option =
        sharedValue? program command option := by
    rw [hshared hoption, Environment.standIn?_of_substitute hnone, Option.or_none]
  unfold Arguments.withVariables Arguments.ofContents
  rw [hshared (by simp [ArgumentLevel.sharedOptions]),
    hfixed (by simp [ArgumentLevel.sharedOptions]) rfl,
    hfixed (by simp [ArgumentLevel.sharedOptions]) rfl,
    hfixed (by simp [ArgumentLevel.sharedOptions]) rfl, hfilled.has_eq, hfilled.has_eq,
    hfilledCommand.has_eq, hfilledCommand.has_eq, Command.ofContent_filled hfilledCommand,
    Option.map_or]

/-! ### Arguments -/

/-- The two names of a change of name are given together or not at all. -/
def Arguments.RenamesInPairs (flags : Arguments) : Prop :=
  ∀ edits, flags.edits? = some edits → (edits.renameFrom? = none ↔ edits.renameTo? = none)

theorem renamesInPairs_ofContents (h : command.Consistent) :
    (Arguments.ofContents name program command).RenamesInPairs := by
  have hpair : command.value? .renameFrom = none ↔ command.value? .renameTo = none := by
    unfold LevelContent.value?
    rw [Option.map_eq_none_iff, Option.map_eq_none_iff]
    exact Decidable.not_iff_not.mp ⟨h.find?_partner rfl, h.find?_partner rfl⟩
  intro edits hedits
  unfold Arguments.edits? Arguments.ofContents Command.ofContent at hedits
  cases name <;> cases hedits <;> exact hpair

/-- Arguments are those of the words alone, with the variables for what the words do not give. -/
theorem Arguments.flags_of_parse {words : List String} {arguments : Arguments}
    (h : parse environment words = .ok arguments) :
    ∃ flags, parse [] words = .ok flags ∧ arguments = flags.withVariables environment ∧
      flags.RenamesInPairs := by
  obtain ⟨⟨reader, command?⟩, hread, h⟩ := bind_eq_ok.mp h
  cases command? with
  | none =>
    -- without a command there are no arguments
    obtain ⟨_, -, h⟩ := bind_eq_ok.mp h
    cases h
  | some found =>
    obtain ⟨name, rest⟩ := found
    obtain ⟨filledCommand, hcommand, h⟩ := bind_eq_ok.mp h
    obtain ⟨filledProgram, hprogram, h⟩ := bind_eq_ok.mp h
    obtain ⟨_, htogether, h⟩ := bind_eq_ok.mp h
    cases h
    obtain ⟨behind, hwords, hcommand⟩ := bind_eq_ok.mp hcommand
    obtain ⟨_, hfinish, hcommand⟩ := bind_eq_ok.mp hcommand
    obtain ⟨_, htogetherToo, hcommand⟩ := bind_eq_ok.mp hcommand
    cases hcommand
    -- each level was first read from the words alone
    obtain ⟨program, hplain, horigin, hfilled⟩ :=
      ((LevelReader.plain_start .program).readProgramWords hread).finish hprogram
    obtain ⟨command, hplainToo, horiginToo, hfilledToo⟩ :=
      ((LevelReader.plain_start (.command name)).foldlM hwords).finish hfinish
    have hconsistent := hfilled.consistent (LevelContent.checkTogether_eq_ok.mp htogether)
    have hconsistentToo := hfilledToo.consistent (LevelContent.checkTogether_eq_ok.mp htogetherToo)
    refine ⟨.ofContents name program command, ?_,
      ofContents_filled horigin horiginToo hfilled hfilledToo,
      renamesInPairs_ofContents hconsistentToo⟩
    -- and without variables nothing else happens than this reading and the same checks
    have hcommand : readCommandWords [] name rest = .ok command :=
      bind_eq_ok.mpr ⟨behind, hwords, bind_eq_ok.mpr ⟨command, hplainToo,
        bind_eq_ok.mpr ⟨(), LevelContent.checkTogether_eq_ok.mpr hconsistentToo, rfl⟩⟩⟩
    exact bind_eq_ok.mpr ⟨(reader, some (name, rest)), hread, bind_eq_ok.mpr ⟨command, hcommand,
      bind_eq_ok.mpr ⟨program, hplain,
        bind_eq_ok.mpr ⟨(), LevelContent.checkTogether_eq_ok.mpr hconsistent, rfl⟩⟩⟩⟩

end levels

/-! ### Which variables count -/

variable {environment other : Environment}

theorem LevelReader.addVariables_congr
    (h : ∀ option, environment.standIn? option = other.standIn? option) :
    addVariables environment = addVariables other := by
  funext options content
  induction options generalizing content with
  | nil => rfl
  | cons option rest ih =>
    have hoption : option.substitute?.bind environment.value? =
        option.substitute?.bind other.value? := h option
    unfold addVariables
    rw [hoption]
    split
    · exact congrArg _ (funext ih)
    · exact ih content

/-- No other variables are looked at than those that stand in for options. -/
theorem Arguments.parse_congr
    (h : ∀ option, environment.standIn? option = other.standIn? option) (words : List String) :
    parse environment words = parse other words := by
  unfold parse readCommandWords LevelReader.finish
  rw [LevelReader.addVariables_congr h]

end PackageRelease
