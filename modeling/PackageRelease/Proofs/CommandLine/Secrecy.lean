import Mathlib.Data.List.TakeWhile
import PackageRelease.CommandLine.Execution
import PackageRelease.Proofs.CommandLine.Parsing
import PackageRelease.Proofs.Release.Secrecy

/-! # What a command tells about its token

  Two runs of the program that differ in the value of the variable with the token read the same
  arguments and the same settings, say the same and come to the same. The key idea: apart from the
  token itself, a command looks at few variables, the terminal is told apart by two more, and the
  libraries look at some of their own: a logger at the one that tells what to show, an HTTP client
  at those that name a proxy. As long as none of these holds the token, nothing but the header of an
  upload can show it.
-/

namespace PackageRelease

/-! ### Tokens in texts -/

namespace Token

/-- The token in a text that has one. -/
def inText (text : String) : Token := ⟨Text.trim text⟩

/-- A text that can be used as a token. -/
structure Usable (text : String) : Prop where
  /-- Something is left without the white space around it. -/
  ne_empty : Text.trim text ≠ ""
  /-- It may stand in a header. -/
  legal : (inText text).IsLegal

variable {text : String}

theorem Usable.text_ne (h : Usable text) : text ≠ "" := by
  rintro rfl
  exact h.ne_empty rfl

theorem trim_of_isBlankText (h : Text.isBlankText text = true) : Text.trim text = "" := by
  have hdrop : text.toList.dropWhile Text.isBlank = [] :=
    List.dropWhile_eq_nil_iff.mpr (List.all_eq_true.mp h)
  unfold Text.trim Text.stripWhere
  rw [hdrop]
  rfl

theorem ofText_of_usable (h : Usable text) : ofText text = .ok (inText text) := by
  unfold ofText
  dsimp only
  rw [if_neg (by simpa using h.ne_empty)]
  rfl

/-- A variable with a usable text gives its token. -/
theorem ofEnvironment_of_usable (h : Usable text) {environment : Environment} {name : String}
    (hvalue : environment.value? name = some text) :
    ofEnvironment environment name = .ok (inText text) := by
  unfold ofEnvironment
  rw [hvalue]
  dsimp only
  rw [if_neg fun hblank => h.ne_empty (trim_of_isBlankText hblank)]
  exact ofText_of_usable h

end Token

/-! ### Environments -/

/-- A variable from which an option or a setting is taken. -/
def IsOptionVariable (name : String) : Prop :=
  (∃ option : ValueOption, option.substitute? = some name) ∨ name = retriesVariable

theorem isOptionVariable_iff {name : String} : IsOptionVariable name ↔
    name ∈ ["KODEGEN_WASM_PUBLISH_CONFIG", "KODEGEN_WASM_PUBLISH_TAG", retriesVariable] := by
  constructor
  · rintro (⟨option, h⟩ | rfl)
    · cases option <;> cases h <;> simp
    · simp
  · intro h
    simp only [List.mem_cons, List.not_mem_nil, or_false] at h
    rcases h with rfl | rfl | rfl
    · exact .inl ⟨.config, rfl⟩
    · exact .inl ⟨.tag, rfl⟩
    · exact .inr rfl

namespace Environment

/-- Two environments that differ in the value of one variable only. -/
structure DifferIn (name first second : String) (environment other : Environment) : Prop where
  /-- The value in one of them. -/
  first_eq : environment.value? name = some first
  /-- The value in the other one. -/
  second_eq : other.value? name = some second
  /-- All other variables are the same. -/
  others_eq : ∀ further, further ≠ name → environment.value? further = other.value? further

/-- Two environments with the same values of certain variables. Of the others the same ones are set,
    and the same ones are empty. -/
structure Alike (observed : List String) (environment other : Environment) : Prop where
  /-- These variables have the same values. -/
  value_eq : ∀ name ∈ observed, environment.value? name = other.value? name
  /-- The same variables are set, and the same ones are empty. -/
  isEmpty_eq : ∀ name, (environment.value? name).map String.isEmpty =
    (other.value? name).map String.isEmpty

/-- Two environments with the same variable and no other one. -/
theorem differIn_single (name : String)
    (h : (name.isEmpty || name.toList.contains '=') = false) (first second : String) :
    DifferIn name first second [(name, first)] [(name, second)] where
  first_eq := by
    unfold value?
    rw [h]
    simp
  second_eq := by
    unfold value?
    rw [h]
    simp
  others_eq further hfurther := by
    unfold value?
    simp [List.lookup_cons, beq_false_of_ne hfurther]

namespace DifferIn

variable {name first second : String} {environment other : Environment}

theorem standIn?_eq (h : DifferIn name first second environment other)
    (hname : ¬ IsOptionVariable name) (option : ValueOption) :
    environment.standIn? option = other.standIn? option := by
  unfold standIn?
  cases hvariable : option.substitute? with
  | none => rfl
  | some further =>
    refine h.others_eq further ?_
    rintro rfl
    exact hname (.inl ⟨option, hvariable⟩)

theorem networkRetries_eq (h : DifferIn name first second environment other)
    (hname : ¬ IsOptionVariable name) :
    environment.networkRetries = other.networkRetries := by
  have hne : retriesVariable ≠ name := by
    rintro rfl
    exact hname (.inr rfl)
  unfold networkRetries
  rw [h.others_eq _ hne]

/-- If neither value is empty, the libraries cannot tell the environments apart, unless the variable
    is one that they look at. -/
theorem alike (h : DifferIn name first second environment other) (hfirst : first ≠ "")
    (hsecond : second ≠ "") {observed : List String} (hname : name ∉ observed) :
    Alike observed environment other where
  value_eq further hfurther := h.others_eq further fun heq => hname (heq ▸ hfurther)
  isEmpty_eq further := by
    by_cases heq : further = name
    · have hempty : ∀ text : String, text ≠ "" → text.isEmpty = false := fun _ htext => by
        simpa using htext
      rw [heq, h.first_eq, h.second_eq, Option.map_some, Option.map_some, hempty first hfirst,
        hempty second hsecond]
    · rw [h.others_eq further heq]

/-- Both terminals have colours or neither, if the variable is not their name or if its values do
    not tell them apart. -/
theorem isDumb_iff (h : DifferIn name first second environment other)
    (hterminal : name = "TERM" → (first = "dumb" ↔ second = "dumb")) :
    environment.value? "TERM" = some "dumb" ↔ other.value? "TERM" = some "dumb" := by
  by_cases heq : "TERM" = name
  · subst heq
    rw [h.first_eq, h.second_eq, Option.some_inj, Option.some_inj]
    exact hterminal rfl
  · rw [h.others_eq _ heq]

end DifferIn

/-- A terminal shows the same colours. -/
theorem Alike.showsColours_eq {observed : List String} {environment other : Environment}
    (h : Alike observed environment other)
    (hdumb : environment.value? "TERM" = some "dumb" ↔ other.value? "TERM" = some "dumb") :
    environment.showsColours = other.showsColours := by
  have hset : ∀ name, (environment.value? name).isNone = (other.value? name).isNone := by
    intro name
    rw [← Option.isNone_map, h.isEmpty_eq, Option.isNone_map]
  have hterm := hset "TERM"
  unfold showsColours
  rw [hset]
  cases hfirst : environment.value? "TERM" with
  | none =>
    rw [hfirst] at hterm
    cases hsecond : other.value? "TERM" with
    | none => rfl
    | some text => rw [hsecond] at hterm; cases hterm
  | some text =>
    rw [hfirst] at hterm
    cases hsecond : other.value? "TERM" with
    | none => rw [hsecond] at hterm; cases hterm
    | some further =>
      rw [hfirst, hsecond, Option.some_inj, Option.some_inj] at hdumb
      simp [hdumb]

end Environment

/-! ### Libraries -/

/-- What libraries do depends on the values of certain variables only. Of every other one they see
    at most whether it is set and whether it is empty; and a logger, which may show colours, sees
    whether the terminal has none. -/
structure Libraries.Read (libraries : Libraries) (observed : List String) : Prop where
  /-- Where these variables have the same values, the same is shown of a log. -/
  logged_eq : ∀ {environment other : Environment}, Environment.Alike observed environment other →
    (environment.value? "TERM" = some "dumb" ↔ other.value? "TERM" = some "dumb") →
      libraries.logged environment = libraries.logged other
  /-- Where they have the same values, requests meet with the same. -/
  answers_eq : ∀ {environment other : Environment}, Environment.Alike observed environment other →
    libraries.answers environment = libraries.answers other

/-! ### Sessions -/

variable {p q : Holder} {arguments : Arguments}

/-- The sessions of two holders in which the same was said, in worlds that differ in the variables
    and the tokens only. -/
structure Session.Counterparts (p q : Holder) (s t : Session) : Prop where
  /-- The worlds are counterparts. -/
  world : World.Counterparts p q s.world t.world
  /-- The same was said. -/
  notices_eq : s.notices = t.notices

namespace Session

theorem matches_say (notice : Notice) :
    Action.Matches (Counterparts p q) (say notice) (say notice) :=
  fun _ _ h => ⟨rfl, { h with notices_eq := congrArg (· ++ [notice]) h.notices_eq }⟩

theorem matches_sayAll (notices : List Notice) :
    Action.Matches (Counterparts p q) (sayAll notices) (sayAll notices) :=
  fun _ _ h => ⟨rfl, { h with notices_eq := congrArg (· ++ notices) h.notices_eq }⟩

theorem matches_onWorld {α : Type} {action : Action World α}
    (h : Action.Matches (World.Counterparts p q) action action) :
    Action.Matches (Counterparts p q) (onWorld action) (onWorld action) := by
  intro s t hst
  obtain ⟨houtcome, hworld⟩ := h s.world t.world hst.world
  exact ⟨houtcome, { hst with world := hworld }⟩

/-- A release in a session is compared for the releases in the worlds. -/
theorem matches_release {α : Type} {settings : Settings} {action : Action Run α}
    (h : ∀ v w, World.Counterparts p q v w →
      Action.Agree (Run.Counterparts p q) (action.perform (Run.start settings none v))
        (action.perform (Run.start settings none w))) :
    Action.Matches (Counterparts p q) (release settings action) (release settings action) := by
  intro s t hst
  obtain ⟨houtcome, hrun⟩ := h s.world t.world hst.world
  exact ⟨houtcome, { hst with world := hrun.world }⟩

end Session

/-! ### Commands -/

/-- The environment has a part in the settings only through the number of further attempts. -/
theorem Arguments.settings_congr {environment other : Environment}
    (h : environment.networkRetries = other.networkRetries) (files : FileSystem) :
    arguments.settings files environment = arguments.settings files other := by
  unfold settings layer below
  rw [h]

/-- Each holder has its token in the variable that the settings name, if there are settings. -/
def Arguments.TokensInPlace (arguments : Arguments) (p q : Holder) (files : FileSystem) : Prop :=
  ∀ settings, arguments.settings files p.environment = .ok settings →
    Token.ofEnvironment p.environment settings.tokenVariable = .ok p.token ∧
      Token.ofEnvironment q.environment settings.tokenVariable = .ok q.token

/-- What follows the settings is compared for each settings that there can be. -/
theorem agree_settings_bind {α : Type} {s t : Session} (h : Session.Counterparts p q s t)
    (hretries : p.environment.networkRetries = q.environment.networkRetries)
    {next : Settings → Action Session α} (hnext : ∀ settings,
      arguments.settings s.world.files p.environment = .ok settings →
        Action.Matches (Session.Counterparts p q) (next settings) (next settings)) :
    Action.Agree (Session.Counterparts p q)
      ((Session.settings arguments >>= next).perform s)
      ((Session.settings arguments >>= next).perform t) := by
  have hsettings : arguments.settings s.world.files s.world.environment =
      arguments.settings t.world.files t.world.environment := by
    rw [h.world.files_eq, h.world.environment_eq.1, h.world.environment_eq.2]
    exact Arguments.settings_congr hretries _
  refine Action.agree_reading_bind h hsettings fun settings hresult => ?_
  rw [h.world.environment_eq.1] at hresult
  exact hnext settings hresult s t h

theorem agree_executePublish (hfirst : p.token.IsLegal) (hsecond : q.token.IsLegal)
    (hretries : p.environment.networkRetries = q.environment.networkRetries) {s t : Session}
    (h : Session.Counterparts p q s t) (htokens : arguments.TokensInPlace p q s.world.files) :
    Action.Agree (Session.Counterparts p q) ((executePublish arguments).perform s)
      ((executePublish arguments).perform t) := by
  refine agree_settings_bind h hretries fun settings hsettings => ?_
  obtain ⟨hp, hq⟩ := htokens settings hsettings
  -- everything but the release says the same by itself
  refine Action.matches_bind (Session.matches_say _) fun _ =>
    Action.matches_bind (Session.matches_say _) fun _ =>
      Action.matches_bind (Session.matches_sayAll _) fun _ =>
        Action.matches_bind (Session.matches_release fun v w hworld => ?_) fun _ =>
          Session.matches_sayAll _
  exact Run.agree_runAll hfirst hsecond (Run.counterparts_start settings none none hworld)
    (.inr ⟨rfl, hp⟩) (.inr ⟨rfl, hq⟩)

theorem agree_executeTransform
    (hretries : p.environment.networkRetries = q.environment.networkRetries) {s t : Session}
    (h : Session.Counterparts p q s t) :
    Action.Agree (Session.Counterparts p q) ((executeTransform arguments).perform s)
      ((executeTransform arguments).perform t) := by
  refine agree_settings_bind h hretries fun settings _ =>
    Action.matches_bind (Session.matches_release fun v w hworld => ?_) fun _ =>
      Session.matches_sayAll _
  exact Run.matches_runLocal _ _ (Run.counterparts_start settings none none hworld)

theorem matches_storeBytes (path : Path) (bytes : Bytes) :
    Action.Matches (World.Counterparts p q) (storeBytes path bytes) (storeBytes path bytes) := by
  intro v w h
  unfold storeBytes
  rw [Action.perform_ofFunction, Action.perform_ofFunction, ← h.files_eq]
  cases v.files.writeFile path bytes with
  | ok files => exact ⟨rfl, { h with files_eq := rfl }⟩
  | error cause => exact ⟨rfl, h⟩

theorem agree_executePack {out? : Option Path}
    (hretries : p.environment.networkRetries = q.environment.networkRetries) {s t : Session}
    (h : Session.Counterparts p q s t) :
    Action.Agree (Session.Counterparts p q) ((executePack arguments out?).perform s)
      ((executePack arguments out?).perform t) := by
  refine agree_settings_bind h hretries fun settings _ =>
    Action.matches_bind (Session.matches_onWorld ?_) fun t =>
      Action.matches_bind (Session.matches_onWorld (matches_storeBytes _ _)) fun _ =>
        Session.matches_sayAll _
  exact Action.matches_reading fun v w hworld => by rw [hworld.files_eq]

theorem agree_executeStatus {asJson : Bool}
    (hretries : p.environment.networkRetries = q.environment.networkRetries) {s t : Session}
    (h : Session.Counterparts p q s t) :
    Action.Agree (Session.Counterparts p q) ((executeStatus arguments asJson).perform s)
      ((executeStatus arguments asJson).perform t) := by
  refine agree_settings_bind h hretries fun settings _ =>
    Action.matches_bind (Session.matches_onWorld ?_) fun _ => Session.matches_say _
  exact Action.matches_bind (Action.matches_reading fun v w hworld => by rw [hworld.files_eq])
    fun _ => Action.matches_bind ((World.likeness_counterparts p q).matches_versionExists _ _ _)
      fun _ => Action.matches_pure _

/-- Every command of two holders comes to the same. -/
theorem agree_executeCommand (hfirst : p.token.IsLegal) (hsecond : q.token.IsLegal)
    (hretries : p.environment.networkRetries = q.environment.networkRetries) {s t : Session}
    (h : Session.Counterparts p q s t) (htokens : arguments.TokensInPlace p q s.world.files) :
    Action.Agree (Session.Counterparts p q) ((executeCommand arguments).perform s)
      ((executeCommand arguments).perform t) := by
  unfold executeCommand
  cases arguments.command with
  | publish edits upload => exact agree_executePublish hfirst hsecond hretries h htokens
  | transform edits => exact agree_executeTransform hretries h
  | pack out? => exact agree_executePack hretries h
  | status asJson => exact agree_executeStatus hretries h

/-- Two outcomes that differ in the tokens of the uploads only. -/
structure Outcome.Counterparts (p q : Holder) (a b : Outcome) : Prop where
  /-- The exit codes are the same. -/
  exitCode_eq : a.exitCode = b.exitCode
  /-- The same was said. -/
  notices_eq : a.notices = b.notices
  /-- The worlds are counterparts. -/
  world : World.Counterparts p q a.world b.world

theorem Arguments.counterparts_execute (arguments : Arguments) (hfirst : p.token.IsLegal)
    (hsecond : q.token.IsLegal)
    (hretries : p.environment.networkRetries = q.environment.networkRetries) {v w : World}
    (h : World.Counterparts p q v w) (htokens : arguments.TokensInPlace p q v.files) :
    Outcome.Counterparts p q (arguments.execute v) (arguments.execute w) := by
  unfold execute
  cases arguments.validate with
  | error reason => exact ⟨rfl, rfl, h⟩
  | ok _ =>
    obtain ⟨hresult, hsession⟩ :=
      agree_executeCommand hfirst hsecond hretries (s := ⟨v, []⟩) (t := ⟨w, []⟩) ⟨h, rfl⟩ htokens
    dsimp only
    rw [← hresult]
    exact ⟨rfl, congrArg (· ++ _) hsession.notices_eq, hsession.world⟩

/-- Of both outcomes the same is seen, if the libraries and the terminal see the same variables. -/
theorem Outcome.Counterparts.shown_eq {a b : Outcome} (h : Outcome.Counterparts p q a b)
    {libraries : Libraries} {observed : List String} (hread : libraries.Read observed)
    {environment other : Environment} (halike : Environment.Alike observed environment other)
    (hdumb : environment.value? "TERM" = some "dumb" ↔ other.value? "TERM" = some "dumb")
    (arguments : Arguments) (channel : Channel) :
    a.shown libraries arguments environment channel =
      b.shown libraries arguments other channel := by
  have hprinted : ∀ channel, a.printed arguments environment channel =
      b.printed arguments other channel := by
    intro channel
    unfold Outcome.printed
    rw [h.notices_eq, halike.showsColours_eq hdumb]
  cases channel with
  | output => exact hprinted .output
  | error =>
    -- the log stands in front of what is printed
    show libraries.logged environment a.world.log ++ _ = libraries.logged other b.world.log ++ _
    rw [hread.logged_eq halike hdumb, h.world.log_eq, hprinted]

/-! ### Tokens leave no trace -/

namespace Token

section usable
variable {first second : String} (hfirst : Usable first) (hsecond : Usable second)
include hfirst hsecond

/-- Whatever a release takes its token from, it comes to the same with either token. -/
theorem agree_runAll_of_usable (settings : Settings) {given? other? : Option Token}
    {environment other : Environment} (files : FileSystem) (answers : List (Option Answer))
    (hgiven : Run.UsesToken settings given? environment (inText first))
    (hother : Run.UsesToken settings other? other (inText second)) :
    Action.Agree (Run.Counterparts ⟨environment, inText first⟩ ⟨other, inText second⟩)
      (Run.runAll.perform (Run.start settings given? (World.start files environment answers)))
      (Run.runAll.perform (Run.start settings other? (World.start files other answers))) := by
  have hworld := World.counterparts_start ⟨environment, inText first⟩ ⟨other, inText second⟩
    files answers
  have hrun := Run.counterparts_start settings given? other? hworld
  exact Run.agree_runAll (p := ⟨environment, inText first⟩) (q := ⟨other, inText second⟩)
    hfirst.legal hsecond.legal hrun hgiven hother

/-- A variable that is all the difference gives either token. -/
theorem ofEnvironment_of_differIn {name : String} {environment other : Environment}
    (hdiffer : Environment.DifferIn name first second environment other) :
    ofEnvironment environment name = .ok (inText first) ∧
      ofEnvironment other name = .ok (inText second) :=
  ⟨ofEnvironment_of_usable hfirst hdiffer.first_eq,
    ofEnvironment_of_usable hsecond hdiffer.second_eq⟩

/-- Whatever a command finds in the variable that its settings name, it comes to the same. -/
theorem counterparts_execute_of_usable {name : String} {environment other : Environment}
    (hdiffer : Environment.DifferIn name first second environment other)
    (hname : ¬ IsOptionVariable name) {files : FileSystem} {arguments : Arguments}
    (hvariable : ∀ settings, arguments.settings files environment = .ok settings →
      settings.tokenVariable = name) (answers : List (Option Answer)) :
    Outcome.Counterparts ⟨environment, inText first⟩ ⟨other, inText second⟩
      (arguments.execute (World.start files environment answers))
      (arguments.execute (World.start files other answers)) := by
  have hworld := World.counterparts_start ⟨environment, inText first⟩ ⟨other, inText second⟩
    files answers
  have htokens : arguments.TokensInPlace ⟨environment, inText first⟩ ⟨other, inText second⟩
      files := by
    intro settings hsettings
    rw [hvariable settings hsettings]
    exact ofEnvironment_of_differIn hfirst hsecond hdiffer
  exact arguments.counterparts_execute (p := ⟨environment, inText first⟩)
    (q := ⟨other, inText second⟩) hfirst.legal hsecond.legal (hdiffer.networkRetries_eq hname)
    hworld htokens

end usable

/-- Two texts that can be used as tokens leave the same traces, apart from the header of uploads. It
    does not matter for a release where its token comes from, if its requests meet with the same:
    they do if the variable with the token is not one that the HTTP client looks at. For a command
    it is the value of a variable, which must not be one that an option is taken from, nor one that
    the libraries look at; and if it is the name of the terminal, both values have to stand for a
    terminal with colours or both for one without. -/
theorem no_trace_of_usable {first second : String} (hfirst : Usable first)
    (hsecond : Usable second) {libraries : Libraries} {observed : List String}
    (hread : libraries.Read observed) :
    (∀ (settings : Settings) (given? other? : Option Token) (environment other : Environment)
        (files : FileSystem) (answers : List (Option Answer)),
      Run.UsesToken settings given? environment (inText first) →
      Run.UsesToken settings other? other (inText second) →
      Action.Agree (Run.Counterparts ⟨environment, inText first⟩ ⟨other, inText second⟩)
        (Run.runAll.perform (Run.start settings given? (World.start files environment answers)))
        (Run.runAll.perform (Run.start settings other? (World.start files other answers)))) ∧
    (∀ (name : String) (environment other : Environment) (settings : Settings)
        (files : FileSystem),
      Environment.DifferIn name first second environment other → name ∉ observed →
      settings.tokenVariable = name →
      Action.Agree (Run.Counterparts ⟨environment, inText first⟩ ⟨other, inText second⟩)
        (Run.runAll.perform (Run.start settings none
          (World.start files environment (libraries.answers environment))))
        (Run.runAll.perform (Run.start settings none
          (World.start files other (libraries.answers other))))) ∧
    (∀ (name : String) (environment other : Environment) (words : List String)
        (files : FileSystem),
      Environment.DifferIn name first second environment other → ¬ IsOptionVariable name →
      name ∉ observed → (name = "TERM" → (first = "dumb" ↔ second = "dumb")) →
      Arguments.parse environment words = Arguments.parse other words ∧
      ∀ arguments, Arguments.parse environment words = .ok arguments →
        (∀ settings, arguments.settings files environment = .ok settings →
          settings.tokenVariable = name) →
        Outcome.Counterparts ⟨environment, inText first⟩ ⟨other, inText second⟩
          (arguments.execute (World.start files environment (libraries.answers environment)))
          (arguments.execute (World.start files other (libraries.answers other))) ∧
        ∀ channel,
          (arguments.execute (World.start files environment
              (libraries.answers environment))).shown libraries arguments environment channel =
            (arguments.execute (World.start files other
              (libraries.answers other))).shown libraries arguments other channel) ∧
    (inText first).display = (inText second).display ∧
      (inText first).inspect = (inText second).inspect := by
  refine ⟨fun settings given? other? environment other files answers hgiven hother => ?_,
    fun name environment other settings files hdiffer hunread hvariable => ?_,
    fun name environment other words files hdiffer hname hunread hterminal => ⟨?_, ?_⟩, rfl, rfl⟩
  · exact agree_runAll_of_usable hfirst hsecond settings files answers hgiven hother
  · -- the requests of both meet with the same, because the client does not look at the variable
    have halike := hdiffer.alike hfirst.text_ne hsecond.text_ne hunread
    obtain ⟨hgiven, hother⟩ := ofEnvironment_of_differIn hfirst hsecond hdiffer
    rw [← hread.answers_eq halike]
    exact agree_runAll_of_usable hfirst hsecond settings files _
      (.inr ⟨rfl, hvariable ▸ hgiven⟩) (.inr ⟨rfl, hvariable ▸ hother⟩)
  · exact Arguments.parse_congr (hdiffer.standIn?_eq hname) words
  · intro arguments _ hvariable
    have halike := hdiffer.alike hfirst.text_ne hsecond.text_ne hunread
    have hcounterparts := counterparts_execute_of_usable hfirst hsecond hdiffer hname hvariable
      (libraries.answers environment)
    rw [← hread.answers_eq halike]
    exact ⟨hcounterparts, hcounterparts.shown_eq hread halike (hdiffer.isDumb_iff hterminal)
      arguments⟩

/-- A directory with a package. -/
def sampleFiles : FileSystem where
  entries := [(["p"], .directory), (["p", "package.json"],
    .file (Text.encode "\x7b\"name\":\"a\",\"version\":\"1.0.0\"\x7d"))]
  workingDirectory := []

/-- An upload of the package in the directory. -/
def sampleArguments : Arguments where
  configFile? := none
  artifactDirectory? := some ⟨"p"⟩
  manifestPath? := none
  registryAddress? := some "http://r"
  verbosity := ⟨true, false⟩
  command := .publish ⟨none, none, [], []⟩ ⟨none, none, none, none, false, false, false, none⟩

/-- A logger that shows failures unless it is turned off, and a client that does not get through a
    proxy that is down. -/
def sampleLibraries : Libraries where
  logged environment log :=
    if environment.value? "RUST_LOG" = some "off" then ""
    else Text.join "" ((log.filter (·.level = .error)).map fun entry =>
      "[" ++ entry.level.name ++ "] " ++ entry.text ++ "\n")
  answers environment :=
    if environment.value? "ALL_PROXY" = some "down" then [] else [some ⟨⟨201⟩, some ""⟩]

theorem read_sampleLibraries : sampleLibraries.Read ["RUST_LOG", "ALL_PROXY"] where
  logged_eq h _ := by
    funext log
    unfold sampleLibraries
    dsimp only
    rw [h.value_eq "RUST_LOG" (by decide)]
  answers_eq h := by
    unfold sampleLibraries
    dsimp only
    rw [h.value_eq "ALL_PROXY" (by decide)]

theorem no_trace_of_sampleTokens :
    Usable "one" ∧ Usable " two " ∧ sampleLibraries.Read ["RUST_LOG", "ALL_PROXY"] ∧
    Arguments.parse [("NPM_TOKEN", "one")]
        ["publish", "--artifact-dir", "p", "--registry", "http://r", "--verbose"] =
      .ok sampleArguments ∧
    Outcome.Counterparts ⟨[("NPM_TOKEN", "one")], ⟨"one"⟩⟩ ⟨[("NPM_TOKEN", " two ")], ⟨"two"⟩⟩
      (sampleArguments.execute
        (World.start sampleFiles [("NPM_TOKEN", "one")] [some ⟨⟨201⟩, some ""⟩]))
      (sampleArguments.execute
        (World.start sampleFiles [("NPM_TOKEN", " two ")] [some ⟨⟨201⟩, some ""⟩])) ∧
    (sampleArguments.execute (World.start sampleFiles [("NPM_TOKEN", "one")]
      [some ⟨⟨201⟩, some ""⟩])).world.attempts.map (·.request.method) = [.put] := by
  have hfirst : Usable "one" := ⟨by decide +kernel, by unfold IsLegal; decide +kernel⟩
  have hsecond : Usable " two " := ⟨by decide +kernel, by unfold IsLegal; decide +kernel⟩
  have hparse : Arguments.parse [("NPM_TOKEN", "one")]
      ["publish", "--artifact-dir", "p", "--registry", "http://r", "--verbose"] =
        .ok sampleArguments := by
    decide +kernel
  have hvariable : ∀ settings, sampleArguments.settings sampleFiles [("NPM_TOKEN", "one")] =
      .ok settings → settings.tokenVariable = "NPM_TOKEN" := by
    intro settings hsettings
    cases hsettings
    rfl
  have hdiffer := Environment.differIn_single "NPM_TOKEN" (by decide) "one" " two "
  have hname : ¬ IsOptionVariable "NPM_TOKEN" := by
    rw [isOptionVariable_iff]
    decide
  obtain ⟨-, -, hcommand, -⟩ := no_trace_of_usable hfirst hsecond read_sampleLibraries
  obtain ⟨-, hcommand⟩ := hcommand "NPM_TOKEN" _ _
    ["publish", "--artifact-dir", "p", "--registry", "http://r", "--verbose"] sampleFiles hdiffer
    hname (by decide) (by decide)
  obtain ⟨hcounterparts, -⟩ := hcommand sampleArguments hparse hvariable
  -- no proxy is set, so the requests of both are answered
  have hanswers : ∀ text, sampleLibraries.answers [("NPM_TOKEN", text)] =
      [some ⟨⟨201⟩, some ""⟩] := fun _ => rfl
  have hone : inText "one" = ⟨"one"⟩ := by decide +kernel
  have htwo : inText " two " = ⟨"two"⟩ := by decide +kernel
  rw [hone, htwo, hanswers, hanswers] at hcounterparts
  exact ⟨hfirst, hsecond, read_sampleLibraries, hparse, hcounterparts, by decide +kernel⟩

/-- An upload with the token in a variable of the given name. -/
def tokenIn (name : String) : Arguments where
  configFile? := none
  artifactDirectory? := some ⟨"p"⟩
  manifestPath? := none
  registryAddress? := some "http://r"
  verbosity := ⟨false, false⟩
  command := .publish ⟨none, none, [], []⟩
    ⟨some name, none, none, none, false, false, false, none⟩

/-- The words that ask for it. -/
def wordsFor (name : String) : List String :=
  ["publish", "--artifact-dir", "p", "--registry", "http://r", "--token-env", name]

/-- Whether what is seen of an upload tells which of two tokens it finds in a variable. -/
structure Traced (libraries : Libraries) (files : FileSystem) (name first second : String) :
    Prop where
  /-- Both texts can be used as tokens. -/
  usable : Usable first ∧ Usable second
  /-- They are all that is different. -/
  differ : Environment.DifferIn name first second [(name, first)] [(name, second)]
  /-- No option is taken from the variable. -/
  not_option : ¬ IsOptionVariable name
  /-- The arguments are read in the same way. -/
  parse_eq : ∀ text ∈ [first, second],
    Arguments.parse [(name, text)] (wordsFor name) = .ok (tokenIn name)
  /-- The token is taken from the variable. -/
  variable_eq : ((tokenIn name).settings files [(name, first)]).map (·.tokenVariable) = .ok name
  /-- Something else is seen. -/
  shown_ne : ∃ channel,
    ((tokenIn name).execute (World.start files [(name, first)]
        (libraries.answers [(name, first)]))).shown libraries (tokenIn name) [(name, first)]
          channel ≠
      ((tokenIn name).execute (World.start files [(name, second)]
        (libraries.answers [(name, second)]))).shown libraries (tokenIn name) [(name, second)]
          channel

/-- A token shows if it is in a variable that something else depends on: the colours of a failure,
    if it is the name of the terminal; whether the log is shown, if the logger looks at it; and
    whether the upload gets through, if the HTTP client does. -/
theorem trace_of_variables :
    Traced sampleLibraries ⟨[], []⟩ "TERM" "dumb" "x" ∧
    Traced sampleLibraries ⟨[], []⟩ "RUST_LOG" "error" "off" ∧
    Traced sampleLibraries sampleFiles "ALL_PROXY" "up" "down" := by
  have husable : ∀ text ∈ ["dumb", "x", "error", "off", "up", "down"], Usable text := by
    intro text htext
    simp only [List.mem_cons, List.not_mem_nil, or_false] at htext
    rcases htext with rfl | rfl | rfl | rfl | rfl | rfl <;>
      exact ⟨by decide +kernel, by unfold IsLegal; decide +kernel⟩
  have hoption : ∀ name ∈ ["TERM", "RUST_LOG", "ALL_PROXY"], ¬ IsOptionVariable name := by
    intro name hname
    rw [isOptionVariable_iff]
    revert name
    decide
  refine ⟨?_, ?_, ?_⟩
  all_goals
    refine ⟨⟨husable _ (by decide), husable _ (by decide)⟩,
      Environment.differIn_single _ (by decide) _ _, hoption _ (by decide), ?_, ?_, .error, ?_⟩
  all_goals decide +kernel

end Token

end PackageRelease
