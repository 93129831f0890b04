import PackageRelease.Proofs.CommandLine.ExitCode
import PackageRelease.Proofs.CommandLine.Packing
import PackageRelease.Proofs.CommandLine.Verbosity
import PackageRelease.Proofs.FileSystem.Places
import PackageRelease.Proofs.Path.Extending

/-! # The file of a packed package

  Without a path the pack command stores the package under a name that it makes of the name and the
  version of the package. The key idea: what follows the last slash of a name holds no slash, so the
  name of the file holds one only if the version does. A path that is a single name leads into the
  working directory, and away from it only if a link stands under that name.
-/

namespace PackageRelease

/-! ### The name of the file -/

/-- What follows the last slash of a text, or all of it. -/
structure Text.IsLastPiece (piece text : String) : Prop where
  /-- No slash is in it. -/
  noSlash : '/' ∉ piece.toList
  /-- It is the text, or comes directly behind a slash. -/
  ends : piece = text ∨ ∃ front, text = front ++ "/" ++ piece

theorem Tarball.isLastPiece_baseName (name : String) :
    Text.IsLastPiece (Tarball.baseName name) name := by
  unfold Tarball.baseName
  by_cases hslash : '/' ∈ name.toList
  · -- the last slash is the first one from the end
    obtain ⟨back, front, hreverse, hback⟩ :=
      List.eq_append_cons_of_mem (List.mem_reverse.mpr hslash)
    have htext : name = String.ofList front.reverse ++ "/" ++ String.ofList back.reverse := by
      refine String.toList_injective ?_
      rw [← List.reverse_reverse name.toList, hreverse]
      simp
    have hpiece : '/' ∉ (String.ofList back.reverse).toList := by simpa using hback
    have hsplit : (Text.split '/' name).getLastD name = String.ofList back.reverse := by
      rw [htext, Text.split_append rfl, Text.split_of_not_mem hpiece, List.getLastD_concat]
    rw [hsplit]
    exact ⟨hpiece, .inr ⟨_, htext⟩⟩
  · rw [Text.split_of_not_mem hslash]
    exact ⟨hslash, .inl rfl⟩

theorem Tarball.isName_fileNameOf (name : String) {version : String}
    (hversion : '/' ∉ version.toList) : IsName (Tarball.fileNameOf name version) := by
  have hlast : (Tarball.fileNameOf name version).toList.getLast? = some 'z' := by
    unfold Tarball.fileNameOf
    rw [String.toList_append, List.getLast?_append]
    rfl
  have hslash : '/' ∉ (Tarball.fileNameOf name version).toList := by
    unfold Tarball.fileNameOf
    simp only [String.toList_append, List.mem_append, not_or]
    exact ⟨⟨⟨(isLastPiece_baseName name).noSlash, by decide⟩, hversion⟩, by decide⟩
  -- neither of the other texts ends in that letter
  have hne (other : String) (hother : other.toList.getLast? ≠ some 'z') :
      Tarball.fileNameOf name version ≠ other := by
    rintro rfl
    exact hother hlast
  exact ⟨hne "" (by decide), hslash, hne "." (by decide), hne ".." (by decide)⟩

/-- The file of a package is named after the name and the version in its manifest. -/
theorem Tarball.fileName_of_pack {fs : FileSystem} {directory : Path} {m : Manifest} {t : Tarball}
    (h : Tarball.pack fs directory m = .ok t) : ∃ name version,
      m.name? = some name ∧ m.version? = some version ∧
        t.fileName = Tarball.fileNameOf name version := by
  obtain ⟨name, version, _, _, _, hname, hversion, -, -, rfl⟩ := pack_eq_ok_iff.mp h
  exact ⟨name, version, hname, hversion, rfl⟩

/-! ### Where a single name leads -/

namespace FileSystem

variable {fs : FileSystem} {name : String}

/-- Without following a link, a single name leads to its place in the working directory. -/
theorem locate_name (hname : IsName name) {spot : Spot}
    (h : fs.locate false ⟨name⟩ = .ok spot) : spot = Spot.under fs fs.workingDirectory name := by
  obtain ⟨-, -, hwalk⟩ := locate_eq_ok_iff.mp h
  have hsteps : (⟨name⟩ : Path).steps = [name] := by
    have hends : (⟨name⟩ : Path).endsInSlash = false :=
      decide_eq_false fun hlast => hname.2.1 (List.mem_of_getLast? hlast)
    unfold Path.steps
    rw [hends, if_neg Bool.false_ne_true, List.append_nil, Path.pieces_of_notMem hname.2.1,
      List.filter_cons_of_pos (by simpa using hname.1), List.filter_nil]
  rw [Path.origin, Path.isAbsolute_of_notMem hname.2.1, if_neg Bool.false_ne_true, hsteps,
    walk_last fs maxLinks fs.workingDirectory hname.2.2.1 hname.2.2.2] at hwalk
  split at hwalk
  · cases hwalk
  · exact (Except.ok.inj hwalk).symm

/-- If no link stands under a single name, the place to which it leads is the one in the working
    directory. -/
theorem place_of_name (hname : IsName name)
    (hlink : ∀ target, fs.get? (fs.workingDirectory ++ [name]) ≠ some (.link target))
    {place : Location} (hplace : fs.place? true ⟨name⟩ = some place) :
    place = fs.workingDirectory ++ [name] := by
  have hnone : ¬ fs.IsLink ⟨name⟩ := by
    rintro ⟨location, target, hfind⟩
    obtain ⟨hlocate, hentry⟩ := find_eq_ok_iff.mp hfind
    have hspot := congrArg Spot.location (locate_name hname hlocate)
    rw [Spot.location_under] at hspot
    obtain rfl : location = fs.workingDirectory ++ [name] := hspot
    exact hlink target hentry
  rw [place?_through hnone] at hplace
  obtain ⟨spot, hlocate, rfl⟩ := place?_eq_some_iff.mp hplace
  rw [locate_name hname hlocate, Spot.location_under]

/-- What writing a file changes: the place to which its path leads holds the content, and nothing
    else is another thing than before. -/
structure OnlyWritten (fs after : FileSystem) (p : Path) (place : Location) (content : Bytes) :
    Prop where
  /-- The path leads to the place, links followed. -/
  place?_eq : fs.place? true p = some place
  /-- The place holds the content. -/
  get?_place : after.get? place = some (.file content)
  /-- Everything else is as it was. -/
  others : ∀ other, other ≠ place → after.get? other = fs.get? other
  /-- Paths start where they started. -/
  current : after.workingDirectory = fs.workingDirectory

theorem onlyWritten_of_writeFile (hfiles : fs.Grounded) {p : Path} {content : Bytes}
    {after : FileSystem} (h : fs.writeFile p content = .ok after) :
    ∃ place, OnlyWritten fs after p place content := by
  obtain ⟨⟨opened, place⟩, hcreate, hafter⟩ := bind_eq_ok.mp h
  cases hafter
  have hfilled := filled_of_create hfiles hcreate content
  exact ⟨place, (hfiles.place_of_create hcreate).1, hfilled.get?_place,
    fun other hother => by rw [hfilled.get?_eq, if_neg hother], hfilled.ways.current⟩

end FileSystem

/-! ### The command -/

/-- An action on the world of a session. -/
theorem Session.perform_of_onWorld {α : Type} {action : Action World α} {session after : Session}
    {outcome : Except Failure α}
    (h : (Session.onWorld action).perform session = (outcome, after)) :
    action.perform session.world = (outcome, after.world) := by
  unfold Session.onWorld at h
  rw [Action.perform_ofFunction] at h
  cases h
  rfl

theorem exists_of_storeBytes {path : Path} {bytes : Bytes} {world after : World}
    (h : (storeBytes path bytes).perform world = (.ok (), after)) :
    ∃ files, world.files.writeFile path bytes = .ok files ∧ after = { world with files } := by
  unfold storeBytes at h
  rw [Action.perform_ofFunction] at h
  cases hwrite : world.files.writeFile path bytes with
  | error cause =>
    rw [hwrite] at h
    cases h
  | ok files =>
    rw [hwrite] at h
    cases h
    exact ⟨files, rfl, rfl⟩

namespace Arguments

variable {arguments : Arguments} {out? : Option Path} {world : World}

/-- What a pack command that succeeds has done. -/
theorem exists_of_execute_pack (hcommand : arguments.command = .pack out?)
    (h : (arguments.execute world).exitCode = 0) : ∃ settings m t files,
      arguments.settings world.files world.environment = .ok settings ∧
      Manifest.load world.files settings.manifestPath = .ok m ∧
      Tarball.pack world.files settings.artifactDirectory m = .ok t ∧
      world.files.writeFile (out?.getD ⟨t.fileName⟩) t.bytes = .ok files ∧
      (arguments.execute world).world = { world with files } := by
  -- no failure counts as a success of this command
  have hforbidden : ¬ arguments.AllowsExisting := by
    rintro ⟨_, _, hpublish, -⟩
    cases hcommand.symm.trans hpublish
  obtain ⟨hvalidate, hresult⟩ := ((exitCode_execute arguments world).1.mp h).resolve_right
    fun ⟨_, _, _, hallowed⟩ => hforbidden hallowed
  have hexecute : (arguments.execute world).world =
      ((executeCommand arguments).perform ⟨world, []⟩).2.world := by
    unfold execute
    rw [hvalidate]
  obtain ⟨after, hperform⟩ : ∃ after,
      (executePack arguments out?).perform ⟨world, []⟩ = (.ok (), after) := by
    unfold executeCommand at hresult
    rw [hcommand] at hresult
    exact ⟨_, Prod.ext hresult rfl⟩
  have hafter : (arguments.execute world).world = after.world := by
    rw [hexecute]
    unfold executeCommand
    rw [hcommand]
    dsimp only
    rw [hperform]
  -- the parts of the command, one after the other
  obtain ⟨settings, _, hreading, hperform⟩ := Action.perform_bind_eq_ok_iff.mp hperform
  obtain ⟨hsettings, rfl⟩ := Prod.mk.inj hreading
  obtain ⟨t, packed, hpacking, hperform⟩ := Action.perform_bind_eq_ok_iff.mp hperform
  obtain ⟨hpacking, hpacked⟩ := Prod.mk.inj (Session.perform_of_onWorld hpacking)
  obtain ⟨m, hload, hpack⟩ := bind_eq_ok.mp hpacking
  obtain ⟨_, stored, hstoring, hperform⟩ := Action.perform_bind_eq_ok_iff.mp hperform
  obtain ⟨files, hwrite, hstored⟩ := exists_of_storeBytes (Session.perform_of_onWorld hstoring)
  rw [← hpacked] at hwrite hstored
  cases hperform
  exact ⟨settings, m, t, files, hsettings, hload, hpack, hwrite, hafter.trans hstored⟩

/-- Without a path, a pack command that succeeds names its file after the last part of the package
    name and the version. Nothing changes but the file to which that name leads. Unless the version
    has a slash, the name has none, and the file stands directly in the working directory, or where
    a link of that name leads. -/
theorem packed_in_workingDirectory (hcommand : arguments.command = .pack none)
    (hfiles : world.files.Grounded) (h : (arguments.execute world).exitCode = 0) :
    ∃ settings m t files name version base place,
      arguments.settings world.files world.environment = .ok settings ∧
      Manifest.load world.files settings.manifestPath = .ok m ∧
      Tarball.pack world.files settings.artifactDirectory m = .ok t ∧
      m.name? = some name ∧ m.version? = some version ∧ Text.IsLastPiece base name ∧
      t.fileName = base ++ "-" ++ version ++ ".tgz" ∧
      (arguments.execute world).world = { world with files } ∧
      world.files.OnlyWritten files ⟨t.fileName⟩ place t.bytes ∧
      ('/' ∉ version.toList → '/' ∉ t.fileName.toList ∧
        ((∀ target, world.files.get? (world.files.workingDirectory ++ [t.fileName]) ≠
            some (.link target)) →
          place = world.files.workingDirectory ++ [t.fileName])) := by
  obtain ⟨settings, m, t, files, hsettings, hload, hpack, hwrite, hworld⟩ :=
    exists_of_execute_pack hcommand h
  obtain ⟨name, version, hname, hversion, hfile⟩ := Tarball.fileName_of_pack hpack
  obtain ⟨place, hwritten⟩ := FileSystem.onlyWritten_of_writeFile hfiles hwrite
  refine ⟨settings, m, t, files, name, version, _, place, hsettings, hload, hpack, hname, hversion,
    Tarball.isLastPiece_baseName name, hfile, hworld, hwritten, fun hslash => ?_⟩
  have hisName : IsName t.fileName := by
    rw [hfile]
    exact Tarball.isName_fileNameOf name hslash
  exact ⟨hisName.2.1, fun hlink =>
    FileSystem.place_of_name hisName hlink hwritten.place?_eq⟩

theorem packed_of_packArguments : packWorld.files.Grounded ∧
    (packArguments.execute packWorld).exitCode = 0 ∧ ∃ (t : Tarball) (files : FileSystem),
      (packArguments.execute packWorld).world = { packWorld with files } ∧
      packWorld.files.OnlyWritten files ⟨t.fileName⟩ [t.fileName] t.bytes := by
  have hfiles : packWorld.files.Grounded := ⟨by decide +kernel, by decide +kernel⟩
  have hexit : (packArguments.execute packWorld).exitCode = 0 := by decide +kernel
  obtain ⟨settings, m, t, files, _, version, _, place, hsettings, hload, -, -, hversion, -, -,
    hworld, hwritten, hplace⟩ := packed_in_workingDirectory rfl hfiles hexit
  have hslash : '/' ∉ version.toList := by
    have hloaded : ((packArguments.settings packWorld.files packWorld.environment >>= fun s =>
        Manifest.load packWorld.files s.manifestPath).map Manifest.version?) =
          .ok (some "1.0.0") := by decide +kernel
    rw [hsettings] at hloaded
    have hsome : (Manifest.load packWorld.files settings.manifestPath).map Manifest.version? =
      .ok (some "1.0.0") := hloaded
    rw [hload] at hsome
    obtain rfl : version = "1.0.0" := by
      cases hversion.symm.trans (Except.ok.inj hsome)
      rfl
    decide
  obtain ⟨-, hdirectly⟩ := hplace hslash
  obtain rfl := hdirectly fun target hlink => by
    have hmem := FileSystem.mem_of_lookup (show packWorld.files.entries.lookup _ = _ from hlink)
    simp [packWorld, World.start] at hmem
  exact ⟨hfiles, hexit, t, files, hworld, hwritten⟩

/-! ### Where the file goes otherwise -/

/-- A world with a package and further entries in the working directory. -/
def packWorldWith (version : String) (others : List (Location × Entry)) : World :=
  { packWorld with files := {
      entries := [(["p"], .directory), (["p", "package.json"], .file (Text.encode
        ("\x7b\"name\":\"a\",\"version\":\"" ++ version ++ "\"\x7d")))] ++ others
      workingDirectory := [] } }

/-- A world in which a link stands under the name of the file. -/
def linkedWorld : World :=
  packWorldWith "1.0.0" [(["a-1.0.0.tgz"], .link "sub/x"), (["sub"], .directory)]

/-- A world with a slash in the version. -/
def slashedWorld : World := packWorldWith "1/2" [(["a-1"], .directory)]

/-- A command changes one file in the working directory at most. -/
def StaysHere (arguments : Arguments) (world : World) : Prop :=
  ∃ name, '/' ∉ name.toList ∧ ∀ location, location ≠ world.files.workingDirectory ++ [name] →
    (arguments.execute world).world.files.get? location = world.files.get? location

theorem not_staysHere {directory name : String} (hcurrent : world.files.workingDirectory = [])
    (hfree : world.files.get? [directory, name] = none)
    (hthere : (arguments.execute world).world.files.get? [directory, name] ≠ none) :
    ¬ arguments.StaysHere world := by
  rintro ⟨other, -, hothers⟩
  refine hthere ((hothers _ ?_).trans hfree)
  rw [hcurrent]
  exact fun h => nomatch (List.cons.inj h).2

/-- A link under the name of the file takes it elsewhere, and so does a slash in the version. -/
theorem not_packed_in_workingDirectory : packArguments.command = .pack none ∧
    (linkedWorld.files.Grounded ∧ (packArguments.execute linkedWorld).exitCode = 0 ∧
      ¬ packArguments.StaysHere linkedWorld) ∧
    (slashedWorld.files.Grounded ∧ (packArguments.execute slashedWorld).exitCode = 0 ∧
      ¬ packArguments.StaysHere slashedWorld) := by
  refine ⟨rfl, ⟨⟨by decide +kernel, by decide +kernel⟩, by decide +kernel, ?_⟩,
    ⟨by decide +kernel, by decide +kernel⟩, by decide +kernel, ?_⟩
  · exact @not_staysHere _ _ "sub" "x" rfl (by decide +kernel) (by decide +kernel)
  · exact @not_staysHere _ _ "a-1" "2.tgz" rfl (by decide +kernel) (by decide +kernel)

end Arguments

end PackageRelease
