import PackageRelease.Proofs.CommandLine.ExitCode
import PackageRelease.Proofs.CommandLine.Verbosity
import PackageRelease.Proofs.Registry.Addressing

/-! # What a status command tells

  A status command asks the registry once at most, and repeats what the answer says. The key idea:
  an answer shows that the version is there, that it is free, or neither of the two, and a command
  that was told neither fails. So from its one question and the answer can be read what it reports.
-/

namespace PackageRelease

/-! ### The question -/

/-- What the command asks about: its arguments fit together, and they lead to a registry and to a
    manifest with a name and a version. -/
structure Arguments.AsksAbout (arguments : Arguments) (world : World) (target : Target)
    (name version : String) : Prop where
  /-- The arguments fit together. -/
  valid : arguments.validate = .ok ()
  /-- They lead to a registry. -/
  leads : ∃ settings, arguments.settings world.files world.environment = .ok settings ∧
    settings.target = .ok target
  /-- The manifest names the package and its version. -/
  names : ∃ m, Manifest.load world.files target.manifestPath = .ok m ∧
    m.name? = some name ∧ m.version? = some version

theorem Arguments.AsksAbout.unique {arguments : Arguments} {world : World} {target other : Target}
    {name version otherName otherVersion : String}
    (h : arguments.AsksAbout world target name version)
    (hother : arguments.AsksAbout world other otherName otherVersion) :
    target = other ∧ name = otherName ∧ version = otherVersion := by
  obtain ⟨-, ⟨s, hs, htarget⟩, m, hload, hname, hversion⟩ := h
  obtain ⟨-, ⟨again, hagain, hsame⟩, n, hloaded, hnamed, hversioned⟩ := hother
  cases hs.symm.trans hagain
  cases htarget.symm.trans hsame
  cases hload.symm.trans hloaded
  exact ⟨rfl, Option.some.inj (hname.symm.trans hnamed),
    Option.some.inj (hversion.symm.trans hversioned)⟩

/-- The address of a target is the one that the settings name. -/
theorem Settings.parse_of_target {settings : Settings} {target : Target}
    (h : settings.target = .ok target) : Url.parse settings.registry = .ok target.registry := by
  obtain ⟨made, hmade, h⟩ := bind_eq_ok.mp h
  have hparse := Target.parse_of_ofRegistry hmade
  cases h
  exact hparse

namespace Registry

/-- A question carries no token. Its header for authorization is made of the user in the address of
    the registry; without one there is no such header. -/
structure IsPlainQuestion (registry : Url) (request : Request) : Prop where
  /-- It asks and does not store. -/
  method_eq : request.method = .get
  /-- Nothing is sent along. -/
  body_eq : request.body? = none
  /-- Only a user in the address of the registry is passed on. -/
  authorization_eq : request.header? "authorization" = basicHeader? registry
  /-- Without a user nothing is. -/
  unauthorized : registry.userInfo = "" → request.header? "authorization" = none

/-- An empty text for the user has neither a name nor a password. -/
theorem basicHeader?_of_userInfo {url : Url} (h : url.userInfo = "") : basicHeader? url = none := by
  unfold Url.userInfo at h
  split at h
  · next password _ =>
    have hlength := congrArg String.length h
    simp at hlength
  · next hnone =>
    split at h
    · next hempty =>
      have huser : url.userName = "" := by simpa using hempty
      have hnobody : Text.decode? (Percent.decode "".toList) = some "" := by decide +kernel
      unfold basicHeader?
      rw [hnone, huser, hnobody]
      rfl
    · have hlength := congrArg String.length h
      simp at hlength

/-- Every question about a version is one. -/
theorem isPlainQuestion_of_asks {target : Target} {registry name : String} {url : Url}
    {request : Request} (hregistry : Url.parse registry = .ok target.registry)
    (h : Asks target name url request) : IsPlainQuestion target.registry request := by
  obtain ⟨hurl, rfl⟩ := h
  -- the address of the package names the user of the registry
  obtain ⟨⟨huser, hpassword⟩, -⟩ := Url.parse_extended hregistry (parse_of_addressOf hurl)
  have hbasic : basicHeader? url = basicHeader? target.registry := by
    unfold basicHeader?
    rw [huser, hpassword]
  have hheader : (lookupRequest url).header? "authorization" = basicHeader? target.registry := by
    unfold Request.header? lookupRequest
    rw [headers_request, ← hbasic]
    unfold userHeaders
    cases basicHeader? url <;> rfl
  refine ⟨lookupRequest_method url, ?_, hheader, fun hnone => ?_⟩
  · unfold lookupRequest request
    dsimp only
    split <;> rfl
  · rw [hheader, basicHeader?_of_userInfo hnone]

end Registry

/-! ### What the answer shows -/

namespace Attempt

/-- Whether the answer says that a version is there, or that it is free. -/
def Shows (a : Attempt) (version : String) : (published : Bool) → Prop
  | true => a.ShowsTaken version
  | false => a.ShowsFree version

/-- No answer says both. -/
theorem not_showsFree_of_showsTaken {a : Attempt} {version : String} (h : a.ShowsTaken version) :
    ¬ a.ShowsFree version := by
  obtain ⟨answer, hanswer, hcode, body, document, hbody, hparse, versions, hversions, hmem⟩ := h
  rintro ⟨other, hother, hfree⟩
  cases hanswer.symm.trans hother
  rcases hfree with hmissing | ⟨-, text, found, htext, hfound, hfree⟩
  · omega
  · cases hbody.symm.trans htext
    cases hparse.symm.trans hfound
    exact hfree versions hversions hmem

theorem Shows.unique {a : Attempt} {version : String} {published other : Bool}
    (h : a.Shows version published) (hother : a.Shows version other) : published = other := by
  cases published with
  | true =>
    cases other with
    | true => rfl
    | false => exact absurd hother (not_showsFree_of_showsTaken h)
  | false =>
    cases other with
    | true => exact absurd h (not_showsFree_of_showsTaken hother)
    | false => rfl

end Attempt

/-! ### Reports and failures -/

/-- The outcome is a report and nothing else. -/
structure Outcome.Reports (outcome : Outcome) (asJson : Bool) (report : StatusReport) : Prop where
  /-- The command has succeeded. -/
  exitCode_eq : outcome.exitCode = 0
  /-- It has said just this. -/
  notices_eq : outcome.notices = [report.notice asJson]

/-- The outcome is a failure without a report. -/
structure Outcome.Fails (outcome : Outcome) : Prop where
  /-- The exit code says so. -/
  exitCode_ne : outcome.exitCode ≠ 0
  /-- All that is said is what failed and what to do about it. -/
  notices : ∀ notice ∈ outcome.notices, (∃ text, notice = .failure text) ∨
    ∃ suggestions, notice = .advice suggestions

theorem Outcome.Reports.not_fails {outcome : Outcome} {asJson : Bool} {report : StatusReport}
    (h : outcome.Reports asJson report) : ¬ outcome.Fails :=
  fun hfails => hfails.exitCode_ne h.exitCode_eq

/-- A report is shown as it is. -/
theorem Outcome.Reports.printed_eq {outcome : Outcome} {asJson : Bool} {report : StatusReport}
    (h : outcome.Reports asJson report) {arguments : Arguments}
    (hshown : (asJson || !arguments.verbosity.quiet) = true) (environment : Environment) :
    outcome.printed arguments environment .output =
      (report.notice asJson).draw environment.showsColours := by
  obtain ⟨hchannel, hvisible⟩ := report.notice_shown asJson arguments.verbosity
  unfold printed
  rw [h.notices_eq, Notice.printed_cons_of_shown hchannel (hvisible.trans hshown)]
  exact String.append_empty

/-- A report for other programs ends with the answer. -/
theorem StatusReport.suffix_pretty (report : StatusReport) :
    Json.renderAt .pretty 1 (.bool report.published) ++ ['\n', '}'] <:+
      report.toJson.pretty.toList := by
  unfold toJson Json.pretty Json.render
  rw [String.toList_ofList]
  simp only [Json.renderAt, Json.renderFields]
  -- the answer stands in the last of four fields
  refine List.IsSuffix.trans ?_ (List.suffix_append _ _)
  refine List.IsSuffix.trans ?_ (List.suffix_append _ _)
  refine List.IsSuffix.trans ?_ (List.suffix_append _ _)
  rw [List.append_assoc]
  exact List.suffix_append _ _

/-- Reports that are said in the same words give the same answer. -/
theorem StatusReport.published_eq {report other : StatusReport} {asJson : Bool}
    (h : report.notice asJson = other.notice asJson) : report.published = other.published := by
  unfold notice at h
  dsimp only at h
  cases asJson with
  | true =>
    have hreport := report.suffix_pretty
    have hother := other.suffix_pretty
    rw [← Notice.data.inj h] at hother
    -- of two endings of one text, one ends the other
    have hends := List.suffix_or_suffix_of_suffix hreport hother
    revert hends
    cases report.published <;> cases other.published <;> decide
  | false =>
    rw [if_neg Bool.false_ne_true, if_neg Bool.false_ne_true] at h
    cases hreport : report.published <;> cases hother : other.published
    · rfl
    · rw [hreport, hother] at h
      cases h
    · rw [hreport, hother] at h
      cases h
    · rfl

namespace Arguments

variable {arguments : Arguments} {asJson : Bool} {world : World}

/-! ### How the command can go -/

/-- How a status command can go. -/
inductive StatusResult (arguments : Arguments) (asJson : Bool) (world : World) (outcome : Outcome) :
    Prop where
  /-- Nothing is asked, because there is nothing to ask about or the question cannot be sent. -/
  | unasked (hattempts : outcome.world.attempts = world.attempts)
      (hnothing : ∀ target name version, arguments.AsksAbout world target name version →
        ¬ target.Reachable)
      (hfails : outcome.Fails)
  /-- The answer does not tell, or there is none. -/
  | untold {target : Target} {name version : String} {url : Url} {lookup : Attempt}
      (habout : arguments.AsksAbout world target name version)
      (hrequest : Registry.Asks target name url lookup.request)
      (hattempts : outcome.world.attempts = world.attempts ++ [lookup])
      (hnext : lookup.answer? = world.answers.head?.join)
      (huntold : ∀ published, ¬ lookup.Shows version published) (hfails : outcome.Fails)
  /-- The answer is repeated. -/
  | told {target : Target} {name version : String} {url : Url} {lookup : Attempt}
      {published : Bool} (habout : arguments.AsksAbout world target name version)
      (hrequest : Registry.Asks target name url lookup.request)
      (hattempts : outcome.world.attempts = world.attempts ++ [lookup])
      (hnext : lookup.answer? = world.answers.head?.join)
      (hshows : lookup.Shows version published)
      (hreports : outcome.Reports asJson ⟨name, version, target.registryBase, published⟩)

/-- Whatever is asked is asked plainly. -/
theorem AsksAbout.plainQuestion {target : Target} {name version : String} {url : Url}
    {lookup : Attempt} (habout : arguments.AsksAbout world target name version)
    (hrequest : Registry.Asks target name url lookup.request)
    (hnext : lookup.answer? = world.answers.head?.join) :
    ∀ a ∈ [lookup], a.answer? = world.answers.head?.join ∧
      ∃ target name version url, arguments.AsksAbout world target name version ∧
        Registry.Asks target name url a.request ∧
        Registry.IsPlainQuestion target.registry a.request := by
  intro a ha
  obtain rfl := List.mem_singleton.mp ha
  obtain ⟨settings, -, htarget⟩ := habout.leads
  have hplain := Registry.isPlainQuestion_of_asks (Settings.parse_of_target htarget) hrequest
  exact ⟨hnext, target, name, version, url, habout, hrequest, hplain⟩

theorem statusIdentity_eq_ok_iff {m : Manifest} {name version : String} :
    statusIdentity m = .ok (name, version) ↔ m.name? = some name ∧ m.version? = some version := by
  unfold statusIdentity
  cases m.name? with
  | none => exact iff_of_false nofun (fun h => nomatch h.1)
  | some found =>
    cases m.version? with
    | none => exact iff_of_false nofun (fun h => nomatch h.2)
    | some shown =>
      show Except.ok (found, shown) = Except.ok (name, version) ↔ _
      simp

/-- The report is made of what the settings and the manifest say and of the answer. -/
theorem perform_statusReport (s : Settings) (world : World) :
    (∃ failure, (statusReport s).perform world = (.error failure, world) ∧
      ∀ target m name version, s.target = .ok target →
        Manifest.load world.files target.manifestPath = .ok m →
          ¬ (m.name? = some name ∧ m.version? = some version)) ∨
    ∃ target name version, s.target = .ok target ∧
      (∃ m, Manifest.load world.files target.manifestPath = .ok m ∧
        m.name? = some name ∧ m.version? = some version) ∧
      (statusReport s).perform world =
        (((Registry.versionExists target name version).perform world).1.map fun published =>
            ⟨name, version, target.registryBase, published⟩,
          ((Registry.versionExists target name version).perform world).2) := by
  unfold statusReport
  -- settings and manifest are only read, so a failure there leaves the world as it was
  rw [Action.perform_bind, Action.perform_reading]
  cases htarget : s.target with
  | error failure => exact .inl ⟨failure, rfl, fun _ _ _ _ h => nomatch h⟩
  | ok target =>
    dsimp only [bind, Except.bind]
    cases hload : Manifest.load world.files target.manifestPath with
    | error failure =>
      refine .inl ⟨failure, rfl, fun other m name version h hloaded => ?_⟩
      cases h
      cases hload.symm.trans hloaded
    | ok m =>
      dsimp only
      cases hidentity : statusIdentity m with
      | error failure =>
        refine .inl ⟨failure, rfl, fun other n name version h hloaded hnames => ?_⟩
        cases h
        cases hload.symm.trans hloaded
        cases hidentity.symm.trans (statusIdentity_eq_ok_iff.mpr hnames)
      | ok identity =>
        obtain ⟨name, version⟩ := identity
        refine .inr ⟨target, name, version, rfl, ⟨m, hload, statusIdentity_eq_ok_iff.mp hidentity⟩, ?_⟩
        change ((Registry.versionExists target name version) >>= fun published => pure _).perform
          world = _
        rw [Action.perform_bind]
        rcases (Registry.versionExists target name version).perform world with ⟨_ | _, after⟩
        · rfl
        · rfl

/-- No failure of a status command counts as a success. -/
theorem fails_of_error (hcommand : arguments.command = .status asJson) (failure : Failure)
    (after : World) : Outcome.Fails
      ⟨arguments.exitCode (.error failure), [] ++ arguments.failureNotices failure, after⟩ := by
  have hstrict : arguments.forgives failure = false := by
    unfold forgives allowsExisting upload?
    rw [hcommand]
    exact Bool.and_false _
  refine ⟨?_, fun notice hmem => ?_⟩
  · unfold exitCode Failure.exitCode
    dsimp only
    rw [hstrict, if_neg Bool.false_ne_true]
    split <;> decide
  · unfold failureNotices at hmem
    rw [hstrict, if_neg Bool.false_ne_true, List.nil_append] at hmem
    rcases List.mem_pair.mp hmem with rfl | rfl
    · exact .inl ⟨_, rfl⟩
    · exact .inr ⟨_, rfl⟩

/-- The command goes in one of these ways, and changes no file in any of them. -/
theorem statusResult (hcommand : arguments.command = .status asJson) (world : World) :
    StatusResult arguments asJson world (arguments.execute world) ∧
      (arguments.execute world).world.files = world.files := by
  have hwork : executeCommand arguments = executeStatus arguments asJson := by
    unfold executeCommand
    rw [hcommand]
  -- whatever fails on the way ends the command alike
  have hfails := fails_of_error hcommand
  unfold execute
  cases hvalid : arguments.validate with
  | error reason =>
    refine ⟨.unasked rfl (fun target name version habout => ?_)
      ⟨Nat.one_ne_zero, fun notice hmem => .inl ⟨_, List.mem_singleton.mp hmem⟩⟩, rfl⟩
    cases hvalid.symm.trans habout.valid
  | ok _ =>
    rw [hwork]
    unfold executeStatus Session.settings
    rw [Action.perform_bind, Action.perform_reading]
    dsimp only
    cases hsettings : arguments.settings world.files world.environment with
    | error failure =>
      refine ⟨.unasked rfl (fun target name version habout => ?_) (hfails failure world), rfl⟩
      obtain ⟨settings, hothers, -⟩ := habout.leads
      cases hsettings.symm.trans hothers
    | ok s =>
      dsimp only
      rw [Action.perform_bind]
      unfold Session.onWorld
      rw [Action.perform_ofFunction]
      rcases perform_statusReport s world with
        ⟨failure, hperform, hnone⟩ | ⟨target, name, version, htarget, hnames, hperform⟩
      · rw [hperform]
        refine ⟨.unasked rfl (fun target name version habout => ?_) (hfails failure world), rfl⟩
        obtain ⟨settings, hothers, htarget⟩ := habout.leads
        cases hsettings.symm.trans hothers
        obtain ⟨m, hload, hnames⟩ := habout.names
        exact absurd hnames (hnone target m name version htarget hload)
      · -- from here on the command goes as the question goes
        have habout : arguments.AsksAbout world target name version :=
          ⟨hvalid, ⟨s, hsettings, htarget⟩, hnames⟩
        have hlookup := Registry.lookupResult target name version world
        have hkept := Registry.keeps_background_versionExists target name version world
        rw [hperform]
        generalize (Registry.versionExists target name version).perform world = asked
          at hlookup hkept ⊢
        obtain ⟨outcome, after⟩ := asked
        have hfiles : after.files = world.files := congrArg Prod.fst hkept
        refine ⟨?_, ?_⟩
        · cases hlookup with
          | @unsent failure _ hattempts hunsendable =>
            refine .unasked hattempts (fun other otherName otherVersion hother hreach => ?_)
              (hfails failure after)
            obtain ⟨rfl, rfl, rfl⟩ := habout.unique hother
            -- a question to a registry that can be reached is sent
            obtain ⟨url, hurl, hhost⟩ := Registry.addressOf_of_reachable hreach
              (Registry.packageAddress target name) name
            exact hunsendable url _ ⟨hurl, rfl⟩ (Registry.unsendable?_lookupRequest hhost)
          | @failed failure _ _ _ hattempts hrequest hnext huntold =>
            refine .untold habout hrequest hattempts hnext (fun published => ?_)
              (hfails failure after)
            cases published with
            | true => exact huntold.1
            | false => exact huntold.2
          | taken hattempts hrequest hnext htaken =>
            have hshows : Attempt.Shows _ version true := htaken
            exact .told habout hrequest hattempts hnext hshows ⟨rfl, rfl⟩
          | free hattempts hrequest hnext hfree =>
            have hshows : Attempt.Shows _ version false := hfree
            exact .told habout hrequest hattempts hnext hshows ⟨rfl, rfl⟩
        · cases outcome <;> exact hfiles

/-- What a status command sends and what becomes of the answer. -/
structure Relays (arguments : Arguments) (asJson : Bool) (world : World) (outcome : Outcome)
    (sent : List Attempt) : Prop where
  /-- No file is changed. -/
  files_eq : outcome.world.files = world.files
  /-- These requests are sent and no others. -/
  attempts_eq : outcome.world.attempts = world.attempts ++ sent
  /-- There is one at most. -/
  length_le : sent.length ≤ 1
  /-- It is a plain question about what the command is to ask about, and meets with the next
      answer. -/
  plain : ∀ a ∈ sent, a.answer? = world.answers.head?.join ∧
    ∃ target name version url, arguments.AsksAbout world target name version ∧
      Registry.Asks target name url a.request ∧ Registry.IsPlainQuestion target.registry a.request
  /-- It is sent if there is something to ask about and the registry can be reached. -/
  asked : ∀ target name version, arguments.AsksAbout world target name version →
    target.Reachable → sent.length = 1
  /-- What the answer shows is reported. -/
  reports : ∀ target name version a published, arguments.AsksAbout world target name version →
    sent = [a] → a.Shows version published →
      outcome.Reports asJson ⟨name, version, target.registryBase, published⟩
  /-- Nothing else is. -/
  of_reports : ∀ report, outcome.Reports asJson report → ∃ target name version a,
    arguments.AsksAbout world target name version ∧ sent = [a] ∧ a.Shows version report.published
  /-- Without a report the command fails. -/
  fails : (∀ report, ¬ outcome.Reports asJson report) → outcome.Fails
  /-- A report is shown, unless the command is quiet and not asked for JSON. -/
  printed : ∀ report environment, outcome.Reports asJson report →
    (asJson || !arguments.verbosity.quiet) = true →
      outcome.printed arguments environment .output =
        (report.notice asJson).draw environment.showsColours

/-- A status command changes no file and sends one request at most: a question about the version in
    the manifest, without a token. It reports that the version is published exactly if the answer
    shows it to be there, and that it is not exactly if the answer shows it to be free; whatever
    else comes back, and if there is nothing to ask about, it fails without a report. -/
theorem report_of_status (hcommand : arguments.command = .status asJson) (world : World) :
    ∃ sent, arguments.Relays asJson world (arguments.execute world) sent := by
  obtain ⟨hresult, hfiles⟩ := statusResult hcommand world
  generalize arguments.execute world = outcome at hresult hfiles ⊢
  have hprinted : ∀ report environment, outcome.Reports asJson report →
      (asJson || !arguments.verbosity.quiet) = true →
        outcome.printed arguments environment .output =
          (report.notice asJson).draw environment.showsColours := by
    intro report environment hreports hshown
    exact hreports.printed_eq hshown environment
  cases hresult with
  | unasked hattempts hnothing hfails =>
    have hnone : ∀ report, ¬ outcome.Reports asJson report := by
      intro report hreports
      exact hreports.not_fails hfails
    refine ⟨[], hfiles, ?_, Nat.zero_le 1, ?_, ?_, ?_, ?_, fun _ => hfails, hprinted⟩
    · rw [hattempts, List.append_nil]
    · intro a ha
      cases ha
    · intro target name version habout hreach
      exact absurd hreach (hnothing target name version habout)
    · intro target name version a published _ hsent
      cases hsent
    · intro report hreports
      exact absurd hreports (hnone report)
  | untold habout hrequest hattempts hnext huntold hfails =>
    have hnone : ∀ report, ¬ outcome.Reports asJson report := by
      intro report hreports
      exact hreports.not_fails hfails
    refine ⟨_, hfiles, hattempts, Nat.le_refl 1, habout.plainQuestion hrequest hnext,
      fun _ _ _ _ _ => rfl, ?_, ?_, fun _ => hfails, hprinted⟩
    · intro target name version a published hother hsent hshows
      -- there is one version to ask about, and the answer does not tell of it
      cases hsent
      obtain ⟨-, -, rfl⟩ := habout.unique hother
      exact absurd hshows (huntold published)
    · intro report hreports
      exact absurd hreports (hnone report)
  | told habout hrequest hattempts hnext hshows hreports =>
    refine ⟨_, hfiles, hattempts, Nat.le_refl 1, habout.plainQuestion hrequest hnext,
      fun _ _ _ _ _ => rfl, ?_, ?_, ?_, hprinted⟩
    · intro target name version a published hother hsent hanswer
      cases hsent
      obtain ⟨rfl, rfl, rfl⟩ := habout.unique hother
      obtain rfl := hshows.unique hanswer
      exact hreports
    · intro report hother
      -- the two reports are the same notice, so they give the same answer
      have hnotices := hreports.notices_eq.symm.trans hother.notices_eq
      have hpublished := StatusReport.published_eq (List.singleton_inj.mp hnotices)
      exact ⟨_, _, _, _, habout, rfl, hpublished ▸ hshows⟩
    · intro hnone
      exact absurd hreports (hnone _)

/-- A status command for the packages of a registry. -/
def statusArguments (registry : String) : Arguments :=
  { configFile? := none, artifactDirectory? := some ⟨"p"⟩, manifestPath? := none,
    registryAddress? := some registry, verbosity := ⟨false, false⟩, command := .status true }

/-- A registry that has the version. -/
def statusWorld : World :=
  Registry.sampleWorld [some ⟨⟨200⟩, some "\x7b\"versions\":\x7b\"1.0.0\":\x7b\x7d\x7d\x7d"⟩]

theorem report_of_statusWorld :
    (statusArguments "http://r").command = .status true ∧
      ((statusArguments "http://r").execute statusWorld).Reports true
        ⟨"a", "1.0.0", "http://r", true⟩ ∧
      ((statusArguments "http://r").execute statusWorld).world.files = statusWorld.files := by
  have hcommand : (statusArguments "http://r").command = .status true := rfl
  obtain ⟨sent, hrelays⟩ := report_of_status hcommand statusWorld
  -- there is something to ask about
  have htarget : ((statusArguments "http://r").settings statusWorld.files statusWorld.environment
      >>= Settings.target) = .ok Registry.sampleTarget := by
    decide +kernel
  obtain ⟨settings, hsettings, htarget⟩ := bind_eq_ok.mp htarget
  have hidentity : (Manifest.load statusWorld.files Registry.sampleTarget.manifestPath >>=
      statusIdentity) = .ok ("a", "1.0.0") := by
    decide +kernel
  obtain ⟨m, hload, hidentity⟩ := bind_eq_ok.mp hidentity
  have habout : (statusArguments "http://r").AsksAbout statusWorld Registry.sampleTarget
      "a" "1.0.0" :=
    ⟨rfl, ⟨settings, hsettings, htarget⟩, m, hload, statusIdentity_eq_ok_iff.mp hidentity⟩
  -- so the question is sent, and meets with the answer
  have hbase : Registry.sampleTarget.registryBase = "http://r" := by decide +kernel
  have hreach : Registry.sampleTarget.Reachable := by
    refine ⟨Registry.sampleTarget.registry, ?_, by decide +kernel⟩
    rw [hbase]
    decide +kernel
  obtain ⟨a, rfl⟩ := List.length_eq_one_iff.mp (hrelays.asked _ _ _ habout hreach)
  obtain ⟨hanswer, -⟩ := hrelays.plain a List.mem_cons_self
  have hshows : a.Shows "1.0.0" true :=
    ⟨_, hanswer, ⟨by decide, by decide⟩, _, .object [("versions", .object [("1.0.0", .object [])])],
      rfl, by decide +kernel, [("1.0.0", .object [])], rfl, List.mem_cons_self⟩
  have hreport := hrelays.reports _ _ _ a true habout rfl hshows
  rw [hbase] at hreport
  exact ⟨hcommand, hreport, hrelays.files_eq⟩

/-- A user in the address of the registry goes along with the question. -/
theorem authorized_question :
    ¬ ∀ (arguments : Arguments) (asJson : Bool) (world : World),
      arguments.command = .status asJson → ∀ a ∈ (arguments.execute world).world.attempts,
        a ∈ world.attempts ∨ a.request.header? "authorization" = none := by
  intro hnone
  have hsent : ((statusArguments "http://u:p@r").execute statusWorld).world.attempts.map
      (·.request.header? "authorization") = [some "Basic dTpw"] := by
    decide +kernel
  obtain ⟨a, hattempts, hheader⟩ := List.map_eq_singleton_iff.mp hsent
  rcases hnone (statusArguments "http://u:p@r") true statusWorld rfl a
    (hattempts ▸ List.mem_cons_self) with hbefore | hplain
  · cases hbefore
  · cases hheader.symm.trans hplain

end Arguments

end PackageRelease
