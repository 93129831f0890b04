import PackageRelease.CommandLine.Execution
import PackageRelease.CommandLine.Parser
import PackageRelease.Proofs.Release.Perform
import PackageRelease.Proofs.Terminal.Lines

/-! # More and less output

  How much is to be shown changes what is printed and nothing else. The key idea: no command looks
  at it, so runs with more and less output say the same notices, and only the printing of these has
  to be compared. What a command can say has one of few forms, and in all but one of them each
  detail comes where the colours have just been switched off.
-/

namespace PackageRelease

/-! ### What is said -/

namespace Session

variable {α β : Type} {kind : List Notice → Prop}

/-- Whatever the action adds to what was said is of a kind. -/
def Says (kind : List Notice → Prop) (action : Action Session α) : Prop :=
  ∀ session, ∃ said, (action.perform session).2.notices = session.notices ++ said ∧ kind said

/-- An action without a word may come first. -/
theorem says_bind {action : Action Session α} {next : α → Action Session β}
    (h : Action.Keeps Session.notices action) (hnone : kind [])
    (hnext : ∀ result, Says kind (next result)) : Says kind (action >>= next) := by
  intro session
  have hkept := h session
  rw [Action.perform_bind]
  generalize action.perform session = performed at hkept ⊢
  obtain ⟨outcome, after⟩ := performed
  cases outcome with
  | ok result =>
    obtain ⟨said, hsaid, hkind⟩ := hnext result after
    exact ⟨said, hsaid.trans (congrArg (· ++ said) hkept), hkind⟩
  | error failure => exact ⟨[], by rw [List.append_nil]; exact hkept, hnone⟩

theorem says_sayAll {notices : List Notice} (h : kind notices) : Says kind (sayAll notices) :=
  fun _ => ⟨notices, rfl, h⟩

theorem says_say {notice : Notice} (h : kind [notice]) : Says kind (say notice) :=
  fun _ => ⟨[notice], rfl, h⟩

/-- What is said first stands in front of what is said afterwards. -/
theorem says_sayAll_bind {notices : List Notice} {next : Unit → Action Session β}
    (h : Says (fun said => kind (notices ++ said)) (next ())) :
    Says kind (sayAll notices >>= next) := by
  intro session
  obtain ⟨said, hsaid, hkind⟩ := h { session with notices := session.notices ++ notices }
  exact ⟨notices ++ said, hsaid.trans (List.append_assoc ..), hkind⟩

theorem says_say_bind {notice : Notice} {next : Unit → Action Session β}
    (h : Says (fun said => kind (notice :: said)) (next ())) : Says kind (say notice >>= next) := by
  have hlist : Says (fun said => kind ([notice] ++ said)) (next ()) := h
  exact says_sayAll_bind hlist

theorem keeps_settings (arguments : Arguments) :
    Action.Keeps Session.notices (settings arguments) := fun _ => rfl

theorem keeps_onWorld (action : Action World α) :
    Action.Keeps Session.notices (onWorld action) := fun _ => rfl

theorem keeps_release (settings : Settings) (action : Action Run α) :
    Action.Keeps Session.notices (release settings action) := fun _ => rfl

end Session

/-- What is said before a release. -/
def openingNotices (s : Settings) : List Notice :=
  .heading "Publishing wasm package" ::
    .detail ("Artifact directory: " ++ s.artifactDirectory.text) ::
      s.edits.map fun edit => .detail ("Transform: " ++ edit.describe)

/-- A report goes to the usual channel, and only a quiet run that is not asked for JSON hides it. -/
theorem StatusReport.notice_shown (report : StatusReport) (asJson : Bool) (v : Verbosity) :
    (report.notice asJson).channel = .output ∧
      (report.notice asJson).isShown v = (asJson || !v.quiet) := by
  unfold notice
  dsimp only
  cases asJson with
  | true => exact ⟨rfl, rfl⟩
  | false =>
    rw [if_neg Bool.false_ne_true]
    split <;> exact ⟨rfl, rfl⟩

namespace Arguments

variable {arguments : Arguments}

/-- What the command can say before it is known what comes of it. -/
def MaySay (arguments : Arguments) (said : List Notice) : Prop :=
  said = [] ∨ match arguments.command with
    | .publish _ _ => ∃ s, said = openingNotices s ∨
        ∃ receipt, said = openingNotices s ++ uploadNotices receipt
    | .transform _ => ∃ path m, said = manifestNotices path m
    | .pack _ => ∃ out t, said = packNotices out t
    | .status asJson => ∃ report : StatusReport, said = [report.notice asJson]

theorem says_executeCommand (arguments : Arguments) :
    Session.Says arguments.MaySay (executeCommand arguments) := by
  unfold executeCommand MaySay
  cases arguments.command with
  | publish edits upload =>
    refine Session.says_bind (Session.keeps_settings _) (.inl rfl) fun s =>
      Session.says_say_bind <| Session.says_say_bind <| Session.says_sayAll_bind <|
        Session.says_bind (Session.keeps_release _ _) (.inr ⟨s, .inl ?_⟩) fun receipt =>
          Session.says_sayAll (.inr ⟨s, .inr ⟨receipt, rfl⟩⟩)
    rw [List.append_nil]
    rfl
  | transform edits =>
    exact Session.says_bind (Session.keeps_settings _) (.inl rfl) fun s =>
      Session.says_bind (Session.keeps_release _ _) (.inl rfl) fun m =>
        Session.says_sayAll (.inr ⟨s.manifestPath, m, rfl⟩)
  | pack out? =>
    exact Session.says_bind (Session.keeps_settings _) (.inl rfl) fun s =>
      Session.says_bind (Session.keeps_onWorld _) (.inl rfl) fun t =>
        Session.says_bind (Session.keeps_onWorld _) (.inl rfl) fun _ =>
          Session.says_sayAll (.inr ⟨_, t, rfl⟩)
  | status asJson =>
    exact Session.says_bind (Session.keeps_settings _) (.inl rfl) fun s =>
      Session.says_bind (Session.keeps_onWorld _) (.inl rfl) fun report =>
        Session.says_say (.inr ⟨report, rfl⟩)

/-- What can be said about what came of a command. -/
def MayEnd (arguments : Arguments) (further : List Notice) : Prop :=
  further = [] ∨ (∃ text, further = [.failure text]) ∨
    (∃ text suggestions, further = [.failure text, .advice suggestions]) ∨
    arguments.allowsExisting = true ∧ ∃ text, further = [.warning text]

theorem mayEnd_failureNotices (arguments : Arguments) (failure : Failure) :
    arguments.MayEnd (arguments.failureNotices failure) := by
  unfold failureNotices
  split
  · rename_i hforgiven
    exact .inr (.inr (.inr ⟨(Bool.and_eq_true_iff.mp hforgiven).2, _, rfl⟩))
  · exact .inr (.inr (.inl ⟨_, _, rfl⟩))

/-- What is said in a run: by the command, and then about what came of it. -/
theorem notices_execute (arguments : Arguments) (world : World) : ∃ said further,
    (arguments.execute world).notices = said ++ further ∧ arguments.MaySay said ∧
      arguments.MayEnd further := by
  unfold execute
  cases arguments.validate with
  | error reason => exact ⟨[], _, rfl, .inl rfl, .inr (.inl ⟨_, rfl⟩)⟩
  | ok _ =>
    obtain ⟨said, hsaid, hkind⟩ := says_executeCommand arguments ⟨world, []⟩
    generalize (executeCommand arguments).perform ⟨world, []⟩ = performed at hsaid
    obtain ⟨result, session⟩ := performed
    obtain rfl : session.notices = said := hsaid
    cases result with
    | ok _ => exact ⟨session.notices, [], rfl, hkind, .inl rfl⟩
    | error failure =>
      exact ⟨session.notices, _, rfl, hkind, mayEnd_failureNotices arguments failure⟩

/-! ### The order of what is said -/

theorem MayEnd.orderly {further : List Notice} (h : arguments.MayEnd further) (coloured : Bool)
    (front : String) : Notice.Orderly coloured front further := by
  rcases h with rfl | ⟨text, rfl⟩ | ⟨text, suggestions, rfl⟩ | ⟨-, text, rfl⟩
  · exact .nil front
  · exact .failure text (.nil front)
  · exact .failure text (.advice front suggestions)
  · exact .shown _ rfl rfl (.nil _)

/-- A pack command can say everything that it has to say only in this form. -/
theorem packNotices_eq (out : Path) (t : Tarball) : ∃ summary sums,
    packNotices out t = t.names.map .detail ++ .success summary :: sums ∧
      ∀ coloured further, Notice.Orderly coloured "" further →
        Notice.Orderly coloured (Style.off coloured) (sums ++ further) :=
  ⟨_, [.item ("shasum:    " ++ t.shasum), .item ("integrity: " ++ t.integrity)], rfl,
    fun _ _ h => .shown _ rfl rfl (.shown _ rfl rfl h)⟩

/-- The details of what a release is about to change stand behind a heading. -/
theorem orderly_openingNotices (s : Settings) {coloured : Bool} {rest : List Notice}
    (hrest : Notice.Orderly coloured (Style.off coloured) rest) :
    Notice.Orderly coloured "" (openingNotices s ++ rest) := by
  have hdetails := hrest.details (s.edits.map fun edit => "Transform: " ++ edit.describe)
  rw [List.map_map] at hdetails
  exact .shown _ rfl rfl (.detail _ hdetails)

/-- Each detail comes where the colours have just been switched off, except in a coloured pack
    command. -/
theorem orderly_of_maySay {said further : List Notice} (h : arguments.MaySay said)
    (hend : arguments.MayEnd further) (coloured : Bool)
    (hpack : coloured = false ∨ ∀ out?, arguments.command ≠ .pack out?) :
    Notice.Orderly coloured "" (said ++ further) := by
  -- a command that has failed early has said nothing
  rcases h with rfl | h
  · exact hend.orderly coloured ""
  cases hcommand : arguments.command with
  | publish edits upload =>
    rw [hcommand] at h
    obtain ⟨s, rfl | ⟨receipt, rfl⟩⟩ := h
    · exact orderly_openingNotices s (hend.orderly coloured _)
    · rw [List.append_assoc]
      refine orderly_openingNotices s (.shown _ rfl rfl ?_)
      exact .shown _ rfl rfl (.shown _ rfl rfl (.shown _ rfl rfl (.shown _ rfl rfl
        (hend.orderly coloured _))))
  | transform edits =>
    rw [hcommand] at h
    obtain ⟨path, m, rfl⟩ := h
    have hdetails := (hend.orderly coloured (Style.off coloured)).details
      (m.files?.toList.map fun files => "files: " ++ Text.join ", " files)
    rw [List.map_map] at hdetails
    exact .shown _ rfl rfl hdetails
  | pack out? =>
    rw [hcommand] at h
    obtain ⟨out, t, rfl⟩ := h
    obtain rfl : coloured = false := hpack.resolve_right fun hother => hother out? hcommand
    obtain ⟨summary, sums, hnotices, hsums⟩ := packNotices_eq out t
    have horderly :
        Notice.Orderly false (Style.off false) (.success summary :: (sums ++ further)) :=
      .shown _ rfl rfl (hsums false further (hend.orderly false ""))
    rw [hnotices, List.append_assoc]
    exact horderly.details t.names
  | status asJson =>
    rw [hcommand] at h
    obtain ⟨report, rfl⟩ := h
    obtain ⟨hchannel, hvisible⟩ := report.notice_shown asJson Notice.plain
    exact .shown _ hchannel (hvisible.trans (Bool.or_true asJson)) (hend.orderly coloured _)

/-! ### Quiet runs -/

/-- No command but the one that reports to other programs says anything to those who want it quiet.
    -/
theorem isShown_quiet_of_maySay {said : List Notice} (h : arguments.MaySay said)
    (hcommand : arguments.command ≠ .status true) {notice : Notice} (hmem : notice ∈ said) :
    notice.isShown Notice.quiet = false := by
  have hopening (s : Settings) : ∀ notice ∈ openingNotices s,
      notice.isShown Notice.quiet = false := by
    simp [openingNotices, Notice.isShown, Notice.quiet]
  have hupload (receipt : Registry.Receipt) : ∀ notice ∈ uploadNotices receipt,
      notice.isShown Notice.quiet = false := by
    simp [uploadNotices, Notice.isShown, Notice.quiet]
  rcases h with rfl | h
  · cases hmem
  cases hasked : arguments.command with
  | publish edits upload =>
    rw [hasked] at h
    obtain ⟨s, rfl | ⟨receipt, rfl⟩⟩ := h
    · exact hopening s notice hmem
    · rcases List.mem_append.mp hmem with hfront | hback
      · exact hopening s notice hfront
      · exact hupload receipt notice hback
  | transform edits =>
    rw [hasked] at h
    obtain ⟨path, m, rfl⟩ := h
    revert notice
    simp [manifestNotices, Notice.isShown, Notice.quiet]
  | pack out? =>
    rw [hasked] at h
    obtain ⟨out, t, rfl⟩ := h
    revert notice
    simp [packNotices, Notice.isShown, Notice.quiet, or_imp, forall_and]
  | status asJson =>
    rw [hasked] at h hcommand
    obtain ⟨report, rfl⟩ := h
    cases asJson with
    | true => exact absurd rfl hcommand
    | false =>
      rw [List.mem_singleton.mp hmem]
      exact (report.notice_shown false Notice.quiet).2

theorem MayEnd.isShown_quiet {further : List Notice} (h : arguments.MayEnd further)
    {notice : Notice} (hmem : notice ∈ further) (hchannel : notice.channel = .output) :
    notice.isShown Notice.quiet = false := by
  rcases h with rfl | ⟨text, rfl⟩ | ⟨text, suggestions, rfl⟩ | ⟨-, text, rfl⟩
  · cases hmem
  · rw [List.mem_singleton.mp hmem] at hchannel
    cases hchannel
  · rcases List.mem_pair.mp hmem with rfl | rfl
    · cases hchannel
    · rfl
  · rw [List.mem_singleton.mp hmem]
    rfl

/-- A report for other programs is shown to everyone, and a failure to make one to nobody on the
    usual channel. -/
theorem isShown_quiet_eq_plain {said further : List Notice} (h : arguments.MaySay said)
    (hend : arguments.MayEnd further) (hcommand : arguments.command = .status true)
    {notice : Notice} (hmem : notice ∈ said ++ further) (hchannel : notice.channel = .output) :
    notice.isShown Notice.quiet = notice.isShown Notice.plain := by
  rcases List.mem_append.mp hmem with hsaid | hfurther
  · rcases h with rfl | h
    · cases hsaid
    · rw [hcommand] at h
      obtain ⟨report, rfl⟩ := h
      rw [List.mem_singleton.mp hsaid]
      rfl
  · rcases hend with rfl | ⟨text, rfl⟩ | ⟨text, suggestions, rfl⟩ | ⟨hallowed, -⟩
    · cases hfurther
    · rw [List.mem_singleton.mp hfurther] at hchannel
      cases hchannel
    · rcases List.mem_pair.mp hfurther with rfl | rfl
      · cases hchannel
      · rfl
    · unfold allowsExisting upload? at hallowed
      rw [hcommand] at hallowed
      cases hallowed

/-! ### Runs with more and with less output -/

/-- The same arguments with more or less output. -/
def showing (arguments : Arguments) (v : Verbosity) : Arguments := { arguments with verbosity := v }

/-- What a run with more or less output prints. -/
def prints (arguments : Arguments) (world : World) (environment : Environment) (v : Verbosity)
    (channel : Channel) : String :=
  ((arguments.showing v).execute world).printed (arguments.showing v) environment channel

/-- No run depends on how much is to be shown. -/
theorem execute_showing (arguments : Arguments) (v : Verbosity) (world : World) :
    (arguments.showing v).execute world = arguments.execute world := rfl

theorem prints_eq (arguments : Arguments) (world : World) (environment : Environment)
    (v : Verbosity) (channel : Channel) : arguments.prints world environment v channel =
      Notice.printed v environment.showsColours channel (arguments.execute world).notices := rfl

/-- Runs with more and with less output come to the same, say the same about failures, and say
    nothing but reports to those who want it quiet. Those who do not ask for details see some of the
    lines of those who do; only a coloured pack command may switch the colours off once more in
    front of the first of these lines. -/
theorem prints_of_verbosity (arguments : Arguments) (world : World) (environment : Environment) :
    (∀ v, ((arguments.showing v).execute world).exitCode = (arguments.execute world).exitCode ∧
      ((arguments.showing v).execute world).world = (arguments.execute world).world) ∧
    (∀ v w, arguments.prints world environment v .error =
      arguments.prints world environment w .error) ∧
    (arguments.command ≠ .status true →
      arguments.prints world environment Notice.quiet .output = "") ∧
    (arguments.command = .status true →
      arguments.prints world environment Notice.quiet .output =
        arguments.prints world environment Notice.plain .output) ∧
    ((Text.lines (arguments.prints world environment Notice.plain .output)).Sublist
        (Text.lines (arguments.prints world environment Notice.detailed .output)) ∨
      environment.showsColours = true ∧ (∃ out?, arguments.command = .pack out?) ∧
        ∃ first others,
          Text.lines (arguments.prints world environment Notice.plain .output) = first :: others ∧
          ((Style.escape "0" ++ first) :: others).Sublist
            (Text.lines (arguments.prints world environment Notice.detailed .output))) := by
  obtain ⟨said, further, hnotices, hsaid, hend⟩ := notices_execute arguments world
  refine ⟨fun v => ?_, fun v w => Notice.printed_error v w _ _, fun hcommand => ?_,
    fun hcommand => ?_, ?_⟩
  · rw [execute_showing]
    exact ⟨rfl, rfl⟩
  · rw [prints_eq, hnotices]
    refine Notice.printed_eq_empty fun notice hmem hchannel => ?_
    rcases List.mem_append.mp hmem with hfront | hback
    · exact isShown_quiet_of_maySay hsaid hcommand hfront
    · exact hend.isShown_quiet hback hchannel
  · rw [prints_eq, prints_eq, hnotices]
    exact Notice.printed_congr fun notice hmem => isShown_quiet_eq_plain hsaid hend hcommand hmem
  · rw [prints_eq, prints_eq, hnotices]
    by_cases hpack : environment.showsColours = false ∨ ∀ out?, arguments.command ≠ .pack out?
    · have hsublist := (orderly_of_maySay hsaid hend environment.showsColours hpack).sublist
      rw [String.empty_append, String.empty_append] at hsublist
      exact .inl hsublist
    · -- the names of the packed files come first, when nothing has switched the colours off yet
      rw [not_or, Bool.not_eq_false, not_forall_not] at hpack
      obtain ⟨hcoloured, out?, hcommand⟩ := hpack
      rw [hcoloured]
      rcases hsaid with rfl | hsaid
      · have hsublist := (hend.orderly true "").sublist
        rw [String.empty_append, String.empty_append] at hsublist
        exact .inl hsublist
      rw [hcommand] at hsaid
      obtain ⟨out, t, rfl⟩ := hsaid
      obtain ⟨summary, sums, hform, hsums⟩ := packNotices_eq out t
      obtain ⟨first, others, hplain, hsublist | hsublist⟩ := Notice.sublist_of_details
        (.success summary) t.names rfl rfl (hsums true further (hend.orderly true ""))
      · rw [hform, List.append_assoc]
        exact .inl (hplain ▸ hsublist)
      · rw [hform, List.append_assoc]
        exact .inr ⟨rfl, ⟨out?, hcommand⟩, first, others, hplain, hsublist⟩

/-- A pack command that says four things, a detail first, has packed a single file. -/
theorem notices_of_length {out? : Option Path} (hcommand : arguments.command = .pack out?)
    {world : World} {text : String}
    (hfirst : (arguments.execute world).notices.head? = some (.detail text))
    (hlength : (arguments.execute world).notices.length = 4) : ∃ summary rest,
      (arguments.execute world).notices = .detail text :: .success summary :: rest ∧
        ∀ notice ∈ rest, notice.isShown Notice.plain = true := by
  obtain ⟨said, further, hnotices, hsaid, hend⟩ := notices_execute arguments world
  rw [hnotices] at hfirst hlength ⊢
  rcases hsaid with rfl | hsaid
  · -- what comes of a command is never said in four notices
    rcases hend with rfl | ⟨_, rfl⟩ | ⟨_, _, rfl⟩ | ⟨-, _, rfl⟩ <;> simp at hlength
  rw [hcommand] at hsaid
  obtain ⟨out, t, rfl⟩ := hsaid
  unfold packNotices at hfirst hlength ⊢
  cases hnames : t.names with
  | nil =>
    rw [hnames] at hfirst
    cases hfirst
  | cons name names =>
    rw [hnames] at hfirst hlength
    cases hfirst
    simp only [List.map_cons, List.cons_append, List.length_cons, List.length_append,
      List.length_map] at hlength
    obtain rfl : names = [] := List.eq_nil_of_length_eq_zero (by omega)
    obtain rfl : further = [] := List.eq_nil_of_length_eq_zero (by omega)
    refine ⟨_, _, rfl, ?_⟩
    simp [Notice.isShown, Notice.plain]

/-- Packs a directory into a file that is named after the package. -/
def packArguments : Arguments where
  configFile? := none
  artifactDirectory? := some ⟨"p"⟩
  manifestPath? := none
  registryAddress? := none
  verbosity := ⟨false, false⟩
  command := .pack none

/-- A directory with a package, and a terminal with colours. -/
def packWorld : World :=
  World.start
    { entries := [(["p"], .directory), (["p", "package.json"],
        .file (Text.encode "\x7b\"name\":\"a\",\"version\":\"1.0.0\"\x7d"))]
      workingDirectory := [] }
    [("TERM", "xterm")] []

/-- On a terminal with colours the line about the packed package is another one for those who ask
    for details. -/
theorem reset_of_packArguments :
    parse packWorld.environment ["pack", "--artifact-dir", "p"] = .ok packArguments ∧
      parse packWorld.environment ["pack", "--artifact-dir", "p", "--verbose"] =
        .ok (packArguments.showing Notice.detailed) ∧
      ¬ (Text.lines (packArguments.prints packWorld packWorld.environment Notice.plain
          .output)).Sublist
        (Text.lines (packArguments.prints packWorld packWorld.environment Notice.detailed
          .output)) := by
  refine ⟨by decide +kernel, by decide +kernel, ?_⟩
  have hfirst : (packArguments.execute packWorld).notices.head? =
      some (.detail "package/package.json") := by
    decide +kernel
  have hlength : (packArguments.execute packWorld).notices.length = 4 := by decide +kernel
  obtain ⟨summary, rest, hnotices, hrest⟩ := notices_of_length rfl hfirst hlength
  have hcolours : packWorld.environment.showsColours = true := by decide +kernel
  rw [prints_eq, prints_eq, hcolours, hnotices]
  exact Notice.not_sublist_of_detail (by decide) hrest

end Arguments

end PackageRelease
