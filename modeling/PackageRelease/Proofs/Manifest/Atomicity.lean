import PackageRelease.Proofs.FileSystem.Places
import PackageRelease.Proofs.Manifest.Storing

/-! # Storing a manifest step by step

  A manifest is stored in four steps: a file is made beside it, its octets are written, they are
  synchronised, and the file is moved to the name of the manifest. Each step can fail, and the
  machine can stop between any two of them and after any part of the octets. The key idea: the steps
  before the last one change nothing but the place beside the manifest, and the last one changes the
  manifest at once.

  Behind a failed step the file beside the manifest is removed. That is tried once, and nobody hears
  of it if it fails in its turn: then the file stays.
-/

namespace PackageRelease

open FileSystem

/-- How far storing a manifest has come. -/
inductive Progress where
  /-- Nothing has been done. -/
  | ready
  /-- A file is open, and octets are left to be written. -/
  | writing (place : Location) (left : Bytes)
  /-- The file is written and synchronised. -/
  | synced
  /-- A step has failed. -/
  | failed (error : OsError)
  /-- It has ended. If there was a file to be removed and that failed, the cause is given. -/
  | ended (outcome : Except Failure Unit) (unremoved? : Option OsError)

/-- Whether a step is still to be made that can fail. -/
def Progress.IsPending : Progress → Prop
  | .ready | .writing _ _ | .synced => True
  | .failed _ | .ended _ _ => False

/-- Whether the manifest has been stored. -/
def Progress.IsStored : Progress → Prop
  | .ended (.ok ()) _ => True
  | _ => False

theorem Progress.IsPending.not_isStored {progress : Progress} (h : progress.IsPending) :
    ¬progress.IsStored := by
  cases progress with
  | ended outcome unremoved? => exact h.elim
  | _ => exact id

/-- Files while a manifest is stored. -/
structure Storing where
  /-- The files at the moment. -/
  files : FileSystem
  /-- What has been done. -/
  progress : Progress

namespace Storing

/-- What can happen next while a manifest is stored. -/
inductive Step (m : Manifest) (path : Path) : Storing → Storing → Prop where
  /-- A file is made beside the manifest. -/
  | create {files opened : FileSystem} {place : Location}
      (h : files.create (Manifest.temporaryPath path) = .ok (opened, place)) :
      Step m path ⟨files, .ready⟩ ⟨opened, .writing place (Text.encode m.render)⟩
  /-- Some of the octets are written. -/
  | write {files : FileSystem} {place : Location} {pending piece left : Bytes}
      (h : pending = piece ++ left) :
      Step m path ⟨files, .writing place pending⟩ ⟨files.append place piece, .writing place left⟩
  /-- The file is synchronised when all octets are written. -/
  | sync {files : FileSystem} {place : Location} :
      Step m path ⟨files, .writing place []⟩ ⟨files, .synced⟩
  /-- The file is moved to the name of the manifest. -/
  | rename {files moved : FileSystem}
      (h : files.rename (Manifest.temporaryPath path) path = .ok moved) :
      Step m path ⟨files, .synced⟩ ⟨moved, .ended (.ok ()) none⟩
  /-- A step fails, for whatever reason. -/
  | fail {files : FileSystem} {progress : Progress} (error : OsError) (h : progress.IsPending) :
      Step m path ⟨files, progress⟩ ⟨files, .failed error⟩
  /-- The file beside the manifest is removed after a failure. -/
  | remove {files cleaned : FileSystem} {error : OsError}
      (h : files.remove (Manifest.temporaryPath path) = .ok cleaned) :
      Step m path ⟨files, .failed error⟩
        ⟨cleaned, .ended (.error (.manifest (.io path (.os error)))) none⟩
  /-- It is not removed, for whatever reason: there may be none, it may not be allowed, or the path
      may be too long. The failure is still the one of the step before. -/
  | keep {files : FileSystem} {error : OsError} (cause : OsError) :
      Step m path ⟨files, .failed error⟩
        ⟨files, .ended (.error (.manifest (.io path (.os error)))) (some cause)⟩

/-- The states at which storing a manifest can be interrupted. -/
inductive Reachable (m : Manifest) (fs : FileSystem) (path : Path) : Storing → Prop where
  /-- It begins with the files as they are. -/
  | start : Reachable m fs path ⟨fs, .ready⟩
  /-- It goes on step by step. -/
  | step {state next : Storing} (h : Reachable m fs path state) (hstep : Step m path state next) :
      Reachable m fs path next

variable {m : Manifest} {fs : FileSystem} {path : Path}

/-! ### The whole store -/

/-- After a failure there is one more step, whether there is a file to be removed or not. -/
theorem Reachable.cleaned {files next : FileSystem} {error : OsError}
    (h : Reachable m fs path ⟨files, .failed error⟩)
    (hremoved : ∀ cleaned, files.remove (Manifest.temporaryPath path) = .ok cleaned →
      next = cleaned)
    (hkept : ∀ cause, files.remove (Manifest.temporaryPath path) = .error cause → next = files) :
    ∃ unremoved?, Reachable m fs path
        ⟨next, .ended (.error (.manifest (.io path (.os error)))) unremoved?⟩ ∧
      ∀ cause, unremoved? = some cause →
        next.remove (Manifest.temporaryPath path) = .error cause := by
  cases hremove : files.remove (Manifest.temporaryPath path) with
  | ok cleaned =>
    rw [hremoved cleaned hremove]
    exact ⟨none, h.step (.remove hremove), nofun⟩
  | error cause =>
    rw [hkept cause hremove]
    refine ⟨some cause, h.step (.keep cause), ?_⟩
    rintro _ ⟨⟩
    exact hremove

/-- Storing a manifest as a whole takes these steps, and what it does not remove cannot be removed.
    -/
theorem reachable_store (m : Manifest) (fs : FileSystem) (path : Path) :
    ∃ unremoved?, Reachable m fs path ⟨(m.store fs path).2, .ended (m.store fs path).1 unremoved?⟩ ∧
      ∀ cause, unremoved? = some cause →
        (m.store fs path).2.remove (Manifest.temporaryPath path) = .error cause := by
  unfold Manifest.store Manifest.replaceFile
  dsimp only
  cases hcreate : fs.create (Manifest.temporaryPath path) with
  | error error =>
    have hfailed : Reachable m fs path ⟨fs, .failed error⟩ :=
      Reachable.start.step (.fail error trivial)
    dsimp only
    exact hfailed.cleaned (fun _ hremove => by rw [hremove]) fun _ hremove => by rw [hremove]
  | ok opened =>
    obtain ⟨opened, place⟩ := opened
    -- all octets are written in one piece
    have hwritten : Reachable m fs path
        ⟨opened.append place (Text.encode m.render), .synced⟩ :=
      ((Reachable.start.step (.create hcreate)).step
        (.write (List.append_nil (Text.encode m.render)).symm)).step .sync
    dsimp only
    cases hrename : (opened.append place (Text.encode m.render)).rename
        (Manifest.temporaryPath path) path with
    | error error =>
      have hfailed := hwritten.step (.fail error trivial)
      dsimp only
      exact hfailed.cleaned (fun _ hremove => by rw [hremove]) fun _ hremove => by rw [hremove]
    | ok moved => exact ⟨none, hwritten.step (.rename hrename), nofun⟩

/-! ### The two places -/

/-- Where a file or nothing stands at the place of a manifest, the place beside it is another one.
    -/
theorem temporary_ne (h : fs.Grounded) {target : Location}
    (htarget : fs.place? false path = some target) (hends : outline (fs.get? target) = none) :
    fs.place? false (Manifest.temporaryPath path) ≠ some target := by
  intro htemporary
  have hfile : fs.get? target ≠ some .directory := by
    intro hdirectory
    rw [hdirectory] at hends
    cases hends
  obtain ⟨front, name, directory, hpieces, hname, -, hplace⟩ :=
    (h.last_cases htarget).resolve_right hfile
  obtain ⟨front', name', directory', hpieces', -, -, hplace'⟩ :=
    (h.last_cases htemporary).resolve_right hfile
  obtain ⟨-, ⟨others, hothers⟩, -, -⟩ := Manifest.temporaryPath_spec hpieces hname
  -- both places end in the last name of their path, and these names differ
  obtain rfl := (concat_inj (hpieces'.symm.trans hothers)).2
  exact (Manifest.besideName_spec hname).2 (concat_inj (hplace'.symm.trans hplace)).2

/-! ### What every step keeps -/

/-- What is known of the files by how far storing a manifest has come. -/
def Known (m : Manifest) (fs : FileSystem) (path : Path) (files : FileSystem) : Progress → Prop
  | .ready | .failed _ => True
  | .writing place left => fs.place? false (Manifest.temporaryPath path) = some place ∧
    ∃ written, files.get? place = some (.file written) ∧ written ++ left = Text.encode m.render
  | .synced => ∃ place, fs.place? false (Manifest.temporaryPath path) = some place ∧
    files.get? place = some (.file (Text.encode m.render))
  | .ended (.ok ()) _ => ∃ place, fs.place? false path = some place ∧
    files.get? place = some (.file (Text.encode m.render))
  | .ended (.error _) none => ∀ place content,
    fs.place? false (Manifest.temporaryPath path) = some place →
      files.get? place ≠ some (.file content)
  | .ended (.error _) (some _) => True

/-- What holds at every moment while a manifest is stored. -/
structure Sound (m : Manifest) (fs : FileSystem) (path : Path) (state : Storing) : Prop where
  /-- The files form a tree. -/
  grounded : state.files.Grounded
  /-- No directory and no link has changed. -/
  outline : SameOutline fs state.files
  /-- Only the place beside the manifest has changed, and that of the manifest at the end. -/
  same : ∀ location, fs.place? false (Manifest.temporaryPath path) ≠ some location →
    (state.progress.IsStored → fs.place? false path ≠ some location) →
      state.files.get? location = fs.get? location
  /-- What has been done has had its effect. -/
  known : Known m fs path state.files state.progress

theorem sound_start (h : fs.Grounded) : Sound m fs path ⟨fs, .ready⟩ :=
  ⟨h, .refl fs, fun _ _ _ => rfl, trivial⟩

section steps
variable {files : FileSystem} {progress next : Progress} {place : Location}

theorem Sound.place?_eq {state : Storing} (hsound : Sound m fs path state) (through : Bool)
    (p : Path) : state.files.place? through p = fs.place? through p :=
  hsound.outline.place?_eq through p

theorem Sound.not_isLink {state : Storing} (hsound : Sound m fs path state) (h : fs.Grounded)
    {p : Path} (hp : ¬fs.IsLink p) : ¬state.files.IsLink p :=
  fun hlink => hp ((hsound.outline.isLink_iff h hsound.grounded).mp hlink)

/-- What is written beside the manifest changes nothing else. -/
theorem Sound.put (hsound : Sound m fs path ⟨files, progress⟩) (hprogress : progress.IsPending)
    (hplace : fs.place? false (Manifest.temporaryPath path) = some place)
    (hends : FileSystem.outline (files.get? place) = none) {content : Bytes}
    (hgrounded : (files.put place (.file content)).Grounded)
    (hknown : Known m fs path (files.put place (.file content)) next) :
    Sound m fs path ⟨files.put place (.file content), next⟩ := by
  refine ⟨hgrounded, hsound.outline.trans (sameOutline_put hends content), ?_, hknown⟩
  intro location htemporary _
  -- another place is not the one that is written, and nothing had changed there
  have hne : location ≠ place := by
    rintro rfl
    exact htemporary hplace
  rw [get?_put (ne_nil_of_outline hends), if_neg hne]
  exact hsound.same location htemporary fun hstored => absurd hstored hprogress.not_isStored

theorem Sound.create (htemporary : ¬fs.IsLink (Manifest.temporaryPath path))
    (hsound : Sound m fs path ⟨files, .ready⟩) {opened : FileSystem}
    (hcreate : files.create (Manifest.temporaryPath path) = .ok (opened, place)) :
    Sound m fs path ⟨opened, .writing place (Text.encode m.render)⟩ := by
  have hgrounded := hsound.grounded.create hcreate
  obtain ⟨hplace, hends, rfl⟩ := hsound.grounded.place_of_create hcreate
  -- the place is that of the path itself, because there is no link to follow
  rw [hsound.place?_eq, place?_through htemporary] at hplace
  refine hsound.put trivial hplace hends hgrounded ⟨hplace, [], ?_, rfl⟩
  rw [get?_put (ne_nil_of_outline hends), if_pos rfl]

theorem Sound.write {pending piece left : Bytes} (hpending : pending = piece ++ left)
    (hsound : Sound m fs path ⟨files, .writing place pending⟩) :
    Sound m fs path ⟨files.append place piece, .writing place left⟩ := by
  obtain ⟨hplace, written, hfile, hwhole⟩ := hsound.known
  have hgrounded := hsound.grounded.append place piece
  have hends : FileSystem.outline (files.get? place) = none := by
    rw [hfile]
    rfl
  rw [append_of_file hfile] at hgrounded ⊢
  refine hsound.put trivial hplace hends hgrounded ⟨hplace, written ++ piece, ?_, ?_⟩
  · rw [get?_put (ne_nil_of_outline hends), if_pos rfl]
  · rw [List.append_assoc, ← hpending, hwhole]

/-- A slot of a path without a link is at the place of the path, and what stands there is no
    link. -/
theorem Sound.slot (h : fs.Grounded) {p : Path} (hp : ¬fs.IsLink p)
    (hsound : Sound m fs path ⟨files, progress⟩) {directory : Location} {name : String}
    (hslot : files.slot p = .ok (directory, some name)) (hslash : p.endsInSlash = false)
    (hlength : name.utf8ByteSize ≤ maxNameLength)
    (hentry : files.get? (directory ++ [name]) ≠ some .directory) :
    fs.place? false p = some (directory ++ [name]) ∧
      FileSystem.outline (files.get? (directory ++ [name])) = none := by
  have hplace := (slot_iff_standsAt.mp hslot).place?_false hslash hlength
  rw [hsound.place?_eq] at hplace
  refine ⟨hplace, outline_eq_none_iff.mpr ?_⟩
  cases hfound : files.get? (directory ++ [name]) with
  | none => exact .inl rfl
  | some entry =>
    cases entry with
    | file content => exact .inr ⟨content, rfl⟩
    | directory => exact absurd hfound hentry
    | link target =>
      refine absurd ⟨directory ++ [name], target, ?_⟩ (hsound.not_isLink h hp)
      exact hsound.grounded.find_eq_ok_iff.mpr ⟨(hsound.place?_eq false p).trans hplace, hfound⟩

theorem Sound.rename (h : fs.Grounded) (htarget : ¬fs.IsLink path)
    (htemporary : ¬fs.IsLink (Manifest.temporaryPath path))
    (hsound : Sound m fs path ⟨files, .synced⟩) {moved : FileSystem}
    (hrename : files.rename (Manifest.temporaryPath path) path = .ok moved) :
    Sound m fs path ⟨moved, .ended (.ok ()) none⟩ := by
  have hgrounded := hsound.grounded.rename hrename
  obtain ⟨place, hplace, hfile⟩ := hsound.known
  obtain ⟨fromDirectory, source, toDirectory, name, entry, hfrom, hto, hlength, hslash, hentry,
    hsource, hfree, rfl⟩ := rename_eq_ok_iff.mp hrename
  have hold : files.get? (fromDirectory ++ [source]) ≠ some .directory := by
    rw [hentry]
    exact fun heq => hsource (Option.some.inj heq)
  obtain ⟨hfromPlace, hfromEnds⟩ := hsound.slot h htemporary hfrom hslash.1 hlength.1 hold
  obtain ⟨htoPlace, htoEnds⟩ := hsound.slot h htarget hto hslash.2 hlength.2 hfree
  -- what is moved is the file that was written
  obtain rfl := Option.some.inj (hplace.symm.trans hfromPlace)
  obtain rfl := Option.some.inj (hentry.symm.trans hfile)
  have hne : toDirectory ++ [name] ≠ fromDirectory ++ [source] := by
    intro heq
    refine temporary_ne h htoPlace ?_ (heq ▸ hfromPlace)
    rw [← hsound.outline.outline, htoEnds]
  rw [if_neg hne.symm] at hgrounded ⊢
  have herase := get?_erase (ne_nil_of_outline hfromEnds) files
  have hends : FileSystem.outline ((files.erase (fromDirectory ++ [source])).get?
      (toDirectory ++ [name])) = none := by
    rw [herase, if_neg hne, htoEnds]
  have hput := get?_put (ne_nil_of_outline hends) (files.erase (fromDirectory ++ [source]))
    (.file (Text.encode m.render))
  refine ⟨hgrounded,
    (hsound.outline.trans (sameOutline_erase hfromEnds)).trans (sameOutline_put hends _), ?_, ?_⟩
  · intro location hlocation hstored
    have hdifferent : location ≠ fromDirectory ++ [source] := by
      rintro rfl
      exact hlocation hfromPlace
    have hother : location ≠ toDirectory ++ [name] := by
      rintro rfl
      exact hstored trivial htoPlace
    rw [hput, if_neg hother, herase, if_neg hdifferent]
    exact hsound.same location hlocation nofun
  · refine ⟨_, htoPlace, ?_⟩
    rw [hput, if_pos rfl]

theorem Sound.fail (hsound : Sound m fs path ⟨files, progress⟩) (hprogress : progress.IsPending)
    (error : OsError) : Sound m fs path ⟨files, .failed error⟩ := by
  exact ⟨hsound.grounded, hsound.outline, fun location hlocation _ =>
    hsound.same location hlocation fun hstored => absurd hstored hprogress.not_isStored, trivial⟩

theorem Sound.remove (h : fs.Grounded) (htemporary : ¬fs.IsLink (Manifest.temporaryPath path))
    {error : OsError} (hsound : Sound m fs path ⟨files, .failed error⟩) {cleaned : FileSystem}
    (hremove : files.remove (Manifest.temporaryPath path) = .ok cleaned) (failure : Failure) :
    Sound m fs path ⟨cleaned, .ended (.error failure) none⟩ := by
  have hgrounded := hsound.grounded.remove hremove
  obtain ⟨location, entry, hfind, hentry, rfl⟩ := remove_eq_ok_iff.mp hremove
  obtain ⟨hplace, hfound⟩ := hsound.grounded.find_eq_ok_iff.mp hfind
  rw [hsound.place?_eq] at hplace
  -- what is removed is a file: no directory can be, and there is no link
  have hends : FileSystem.outline (files.get? location) = none := by
    cases entry with
    | file content => exact outline_eq_none_iff.mpr (.inr ⟨content, hfound⟩)
    | directory => exact absurd rfl hentry
    | link target => exact absurd ⟨location, target, hfind⟩ (hsound.not_isLink h htemporary)
  have herase := get?_erase (ne_nil_of_outline hends) files
  refine ⟨hgrounded, hsound.outline.trans (sameOutline_erase hends), ?_, ?_⟩
  · intro other hother _
    have hne : other ≠ location := by
      rintro rfl
      exact hother hplace
    rw [herase, if_neg hne]
    exact hsound.same other hother nofun
  · intro place content hother
    obtain rfl := Option.some.inj (hplace.symm.trans hother)
    rw [herase, if_pos rfl]
    nofun

theorem Sound.keep {error : OsError} (hsound : Sound m fs path ⟨files, .failed error⟩)
    (failure : Failure) (cause : OsError) :
    Sound m fs path ⟨files, .ended (.error failure) (some cause)⟩ :=
  ⟨hsound.grounded, hsound.outline, fun location hlocation _ =>
    hsound.same location hlocation nofun, trivial⟩

/-- Where the files themselves do not let anything be removed, there is no file: it would have
    been. -/
theorem Sound.ne_file_of_remove {state : Storing} (hsound : Sound m fs path state) {cause : OsError}
    (hremove : state.files.remove (Manifest.temporaryPath path) = .error cause) {place : Location}
    (hplace : fs.place? false (Manifest.temporaryPath path) = some place) (content : Bytes) :
    state.files.get? place ≠ some (.file content) := by
  intro hfile
  rw [← hsound.place?_eq] at hplace
  have hremoved := remove_eq_ok_iff.mpr
    ⟨_, _, hsound.grounded.find_eq_ok_iff.mpr ⟨hplace, hfile⟩, nofun, rfl⟩
  rw [hremove] at hremoved
  cases hremoved

end steps

/-! ### Every moment -/

theorem Sound.step (h : fs.Grounded) (htarget : ¬fs.IsLink path)
    (htemporary : ¬fs.IsLink (Manifest.temporaryPath path)) {state next : Storing}
    (hsound : Sound m fs path state) (hstep : Step m path state next) : Sound m fs path next := by
  cases hstep with
  | create hcreate => exact hsound.create htemporary hcreate
  | write hpending => exact hsound.write hpending
  | sync =>
    -- no octet is left, so all have been written
    obtain ⟨hplace, written, hfile, hwhole⟩ := hsound.known
    rw [List.append_nil] at hwhole
    exact ⟨hsound.grounded, hsound.outline, fun location hlocation _ =>
      hsound.same location hlocation nofun, _, hplace, hwhole ▸ hfile⟩
  | rename hrename => exact hsound.rename h htarget htemporary hrename
  | fail error hprogress => exact hsound.fail hprogress error
  | remove hremove => exact hsound.remove h htemporary hremove _
  | keep cause => exact hsound.keep _ cause

/-- What holds at the beginning and is kept by every step holds at every moment. -/
theorem Reachable.sound (h : fs.Grounded) (htarget : ¬fs.IsLink path)
    (htemporary : ¬fs.IsLink (Manifest.temporaryPath path)) {state : Storing}
    (hreach : Reachable m fs path state) : Sound m fs path state := by
  induction hreach with
  | start => exact sound_start h
  | step _ hstep ih => exact ih.step h htarget htemporary hstep

/-- Until the file is moved, the path of the manifest finds what it found. -/
theorem Sound.entry_eq (h : fs.Grounded) (htarget : ¬fs.IsLink path) {state : Storing}
    (hsound : Sound m fs path state) (hstate : ¬state.progress.IsStored) :
    (state.files.entry path).toOption = (fs.entry path).toOption := by
  rw [hsound.grounded.entry_eq, h.entry_eq, hsound.place?_eq, place?_through htarget]
  cases hplace : fs.place? false path with
  | none => rfl
  | some target =>
    dsimp only [Option.bind_some]
    by_cases hends : FileSystem.outline (fs.get? target) = none
    · -- a file, or nothing, is in another place than what is beside it
      exact hsound.same target (temporary_ne h hplace hends) fun hstored => absurd hstored hstate
    · -- a directory has its place in the outline
      obtain ⟨entry, hentry, hno⟩ := exists_of_outline_ne_none hends
      rw [hentry, (hsound.outline.get?_eq_iff hno).mpr hentry]

/-- When the file has been moved, the path of the manifest finds the new text. -/
theorem Sound.entry_of_stored (htarget : ¬fs.IsLink path) {files : FileSystem}
    {unremoved? : Option OsError}
    (hsound : Sound m fs path ⟨files, .ended (.ok ()) unremoved?⟩) :
    (files.entry path).toOption = some (.file (Text.encode m.render)) := by
  obtain ⟨target, hplace, hfile⟩ := hsound.known
  rw [hsound.grounded.entry_eq, hsound.place?_eq, place?_through htarget, hplace]
  exact hfile

/-- If there is no file in the place beside the manifest, the path beside it finds none. -/
theorem Sound.find_ne_file (htemporary : ¬fs.IsLink (Manifest.temporaryPath path))
    {state : Storing} (hsound : Sound m fs path state)
    (hnone : ∀ place content, fs.place? false (Manifest.temporaryPath path) = some place →
      state.files.get? place ≠ some (.file content)) (through : Bool) (location : Location)
    (content : Bytes) :
    state.files.find through (Manifest.temporaryPath path) ≠ .ok (location, .file content) := by
  intro hfind
  obtain ⟨hplace, hfile⟩ := hsound.grounded.find_eq_ok_iff.mp hfind
  have hsame : fs.place? through (Manifest.temporaryPath path) =
      fs.place? false (Manifest.temporaryPath path) := by
    cases through with
    | false => rfl
    | true => exact place?_through htemporary
  rw [hsound.place?_eq, hsame] at hplace
  exact hnone location content hplace hfile

/-- Storing a manifest is atomic where neither its path nor the one beside it is that of a link. At
    every moment, whatever step has failed and wherever it was interrupted, the path of the manifest
    finds what it found before, or the whole new text. Every path leads where it led, and nothing
    has changed but at the places of these two paths. When a failure is returned, the path of the
    manifest finds what it found before, and a file is left beside it only if removing it has
    failed. Where removing fails for no other reason than what the files are, no file is left. -/
theorem atomic_of_reachable (h : fs.Grounded) (htarget : ¬fs.IsLink path)
    (htemporary : ¬fs.IsLink (Manifest.temporaryPath path)) (m : Manifest) :
    (∃ unremoved?,
      Reachable m fs path ⟨(m.store fs path).2, .ended (m.store fs path).1 unremoved?⟩) ∧
    (∀ failure, (m.store fs path).1 = .error failure → ∀ through location content,
      (m.store fs path).2.find through (Manifest.temporaryPath path) ≠
        .ok (location, .file content)) ∧
    ∀ state, Reachable m fs path state →
      ((state.files.entry path).toOption = (fs.entry path).toOption ∨
        (state.files.entry path).toOption = some (.file (Text.encode m.render))) ∧
      (∀ through other, state.files.place? through other = fs.place? through other) ∧
      (∀ location, fs.place? false path ≠ some location →
        fs.place? false (Manifest.temporaryPath path) ≠ some location →
          state.files.get? location = fs.get? location) ∧
      (∀ unremoved?, state.progress = .ended (.ok ()) unremoved? →
        (state.files.entry path).toOption = some (.file (Text.encode m.render))) ∧
      ∀ failure unremoved?, state.progress = .ended (.error failure) unremoved? →
        (state.files.entry path).toOption = (fs.entry path).toOption ∧
        ∀ through location content,
          state.files.find through (Manifest.temporaryPath path) = .ok (location, .file content) →
            ∃ cause, unremoved? = some cause := by
  -- the store as a whole is one of the ways, on which removing fails only for what the files are
  obtain ⟨unremoved?, hstore, hunremoved⟩ := reachable_store m fs path
  refine ⟨⟨unremoved?, hstore⟩, fun failure hfailure => ?_, fun ⟨files, progress⟩ hreach => ?_⟩
  · have hsound := hstore.sound h htarget htemporary
    refine hsound.find_ne_file htemporary ?_
    cases unremoved? with
    | none =>
      have hknown := hsound.known
      rw [hfailure] at hknown
      exact hknown
    | some cause =>
      exact fun place content hplace =>
        hsound.ne_file_of_remove (hunremoved cause rfl) hplace content
  · have hsound := hreach.sound h htarget htemporary
    have hold : ¬progress.IsStored →
        (files.entry path).toOption = (fs.entry path).toOption := hsound.entry_eq h htarget
    refine ⟨?_, hsound.place?_eq, fun location htargetPlace htemporaryPlace =>
      hsound.same location htemporaryPlace fun _ => htargetPlace, ?_, ?_⟩
    · cases progress with
      | ended outcome unremoved? =>
        cases outcome with
        | ok _ => exact .inr (hsound.entry_of_stored htarget)
        | error failure => exact .inl (hold id)
      | _ => exact .inl (hold id)
    · rintro unremoved? rfl
      exact hsound.entry_of_stored htarget
    · rintro failure unremoved? rfl
      refine ⟨hold id, fun through location content hfind => ?_⟩
      cases unremoved? with
      | none => exact absurd hfind (hsound.find_ne_file htemporary hsound.known _ _ _)
      | some cause => exact ⟨cause, rfl⟩

/-- Files in which the path beside the manifest is taken, and a link leads to the manifest. -/
def sampleTaken : FileSystem :=
  Manifest.sampleFiles [(["p", ".package.json.tmp"], .file (Text.encode "a")),
    (["p", "latest"], .link "package.json")]

theorem grounded_sampleTaken : sampleTaken.Grounded := ⟨by decide +kernel, rfl⟩

theorem atomic_of_sampleTaken : sampleTaken.Grounded ∧ ¬sampleTaken.IsLink ⟨"p/package.json"⟩ ∧
    ¬sampleTaken.IsLink (Manifest.temporaryPath ⟨"p/package.json"⟩) ∧
    ∀ m state, Reachable m sampleTaken ⟨"p/package.json"⟩ state →
      (state.files.entry ⟨"p/package.json"⟩).toOption =
          some (.file (Text.encode "\x7b\x7d")) ∨
        (state.files.entry ⟨"p/package.json"⟩).toOption = some (.file (Text.encode m.render)) := by
  have hfile : sampleTaken.find false ⟨"p/package.json"⟩ =
      .ok (["p", "package.json"], .file (Text.encode "\x7b\x7d")) := by decide +kernel
  have hbeside : sampleTaken.find false (Manifest.temporaryPath ⟨"p/package.json"⟩) =
      .ok (["p", ".package.json.tmp"], .file (Text.encode "a")) := by decide +kernel
  have htarget := not_isLink_of_file hfile
  have htemporary := not_isLink_of_file hbeside
  refine ⟨grounded_sampleTaken, htarget, htemporary, fun m state hreach => ?_⟩
  have hold : (sampleTaken.entry ⟨"p/package.json"⟩).toOption =
      some (.file (Text.encode "\x7b\x7d")) := by decide +kernel
  obtain ⟨-, -, hmoments⟩ := atomic_of_reachable grounded_sampleTaken htarget htemporary m
  exact hold ▸ (hmoments state hreach).1

/-! ### Where a file is left -/

theorem locate_of_long (fs : FileSystem) (through : Bool) {p : Path}
    (h : pathLengthLimit ≤ p.text.utf8ByteSize) :
    p.text.isEmpty = false ∧ fs.locate through p = .error .nameTooLong := by
  have hne : p.text.isEmpty = false := by
    rw [Bool.eq_false_iff, Ne, String.isEmpty_iff]
    intro hempty
    rw [hempty] at h
    exact absurd h (by decide)
  unfold locate
  rw [hne, if_neg Bool.false_ne_true, if_pos h]
  exact ⟨rfl, rfl⟩

/-- Where the path beside a manifest is too long, nothing is made and nothing removed. -/
theorem store_of_long (m : Manifest) (fs : FileSystem) {path : Path}
    (h : pathLengthLimit ≤ (Manifest.temporaryPath path).text.utf8ByteSize) :
    m.store fs path = (.error (.manifest (.io path (.os .nameTooLong))), fs) := by
  have hslot : fs.slot (Manifest.temporaryPath path) = .error .nameTooLong := by
    unfold slot
    rw [(locate_of_long fs true h).1, if_neg Bool.false_ne_true, if_pos h]
    rfl
  have hcreate : fs.create (Manifest.temporaryPath path) = .error .nameTooLong := by
    unfold FileSystem.create
    rw [hslot, (locate_of_long fs true h).2]
    split <;> rfl
  have hremove : fs.remove (Manifest.temporaryPath path) = .error .nameTooLong := by
    unfold FileSystem.remove find
    rw [(locate_of_long fs false h).2]
    rfl
  unfold Manifest.store Manifest.replaceFile
  dsimp only
  rw [hcreate]
  dsimp only
  rw [hremove]

/-- Names without `.` are found as they would be without any `.` in front. -/
theorem stretch_replicate (fs : FileSystem) (through : Bool) (here : Location) (n : Nat)
    (names : List String) :
    fs.stretch through here (List.replicate n "." ++ names) = fs.stretch through here names := by
  induction n with
  | zero => rfl
  | succ n ih =>
    rw [List.replicate_succ, List.cons_append, stretch, ih]

theorem walk_replicate (fs : FileSystem) (through : Bool) (links : Nat) (here : Location) (n : Nat)
    (names : List String) :
    fs.walk through links here (List.replicate n "." ++ names) =
      fs.walk through links here names := by
  unfold walk
  rw [stretch_replicate]

/-- A path to a manifest with a number of `.` in front. -/
def padded (n : Nat) : Path := ⟨Text.join "/" (List.replicate n "." ++ ["p", "package.json"])⟩

section padded
variable (n : Nat)

theorem pieces_padded : (padded n).pieces = List.replicate n "." ++ ["p", "package.json"] := by
  have hnames : ∀ s ∈ ["p", "package.json"], s ≠ "" ∧ '/' ∉ s.toList := by decide
  refine Path.pieces_join_texts fun s hs => ?_
  rcases List.mem_append.mp hs with hs | hs
  · obtain rfl := List.eq_of_mem_replicate hs
    decide
  · exact hnames s hs

theorem split_padded :
    Text.split '/' (padded n).text = List.replicate n "." ++ ["p", "package.json"] :=
  Text.split_join (List.append_ne_nil_of_right_ne_nil _ (List.cons_ne_nil _ _)) fun _ hs =>
    (Path.of_mem_pieces (pieces_padded n ▸ hs)).2

theorem size_padded : (padded n).text.utf8ByteSize = 2 * n + 14 := by
  have hsize := @Path.size_join_names (List.replicate n "." ++ ["p", "package.json"])
    (List.append_ne_nil_of_right_ne_nil _ (List.cons_ne_nil _ _))
  have hname : Text.octets ["p", "package.json"] = 15 := by decide
  have hdot : ".".utf8ByteSize = 1 := rfl
  rw [Text.octets_append, Text.octets_replicate, hname, hdot] at hsize
  unfold padded
  dsimp only
  omega

theorem pieces_directory :
    (⟨Text.join "/" (List.replicate n "." ++ ["p"])⟩ : Path).pieces =
      List.replicate n "." ++ ["p"] := by
  refine Path.pieces_join_texts fun s hs => Path.of_mem_pieces (p := padded n) ?_
  rw [pieces_padded, ← List.singleton_append, ← List.append_assoc]
  exact List.mem_append_left _ hs

theorem temporaryPath_padded : Manifest.temporaryPath (padded n) =
    (⟨Text.join "/" (List.replicate n "." ++ ["p"])⟩ : Path).join ⟨".package.json.tmp"⟩ := by
  have hname : IsName "package.json" := by decide
  have hpieces : (padded n).pieces = (List.replicate n "." ++ ["p"]) ++ ["package.json"] := by
    rw [pieces_padded, List.append_assoc]
    rfl
  have hfront : (padded n).front = ⟨Text.join "/" (List.replicate n "." ++ ["p"])⟩ := by
    refine Path.front_join_texts (fun s hs => ?_) (by decide) (by decide)
    exact (Path.of_mem_pieces (pieces_padded n ▸ hs)).2
  unfold Manifest.temporaryPath Path.withFileName
  rw [Path.fileName?_of_pieces hpieces hname, hfront]
  rfl

/-- The path beside it is longer by the dots around the name. -/
theorem size_temporaryPath_padded :
    2 * n + 18 ≤ (Manifest.temporaryPath (padded n)).text.utf8ByteSize := by
  have hsize := @Path.size_join_names (List.replicate n "." ++ ["p"])
    (List.append_ne_nil_of_right_ne_nil _ (List.cons_ne_nil _ _))
  have hname : Text.octets ["p"] = 2 := by decide
  have hdot : ".".utf8ByteSize = 1 := rfl
  have hbeside : ".package.json.tmp".utf8ByteSize = 17 := rfl
  rw [Text.octets_append, Text.octets_replicate, hname, hdot] at hsize
  have hle := @Path.le_size_join ⟨Text.join "/" (List.replicate n "." ++ ["p"])⟩
    ⟨".package.json.tmp"⟩ rfl
  rw [temporaryPath_padded]
  dsimp only at hle
  omega

/-- Where it is short enough, it leads to the manifest. -/
theorem find_padded {fs : FileSystem} (hdirectory : fs.workingDirectory = [])
    (hn : 2 * n + 14 < pathLengthLimit) :
    fs.find false (padded n) = fs.find false ⟨"p/package.json"⟩ := by
  have hsize := size_padded n
  have hne : (padded n).text ≠ "" := by
    intro hempty
    rw [hempty] at hsize
    cases hsize
  have hsteps : (padded n).steps = List.replicate n "." ++ ["p", "package.json"] := by
    have hslash : ¬(padded n).endsInSlash = true := by
      have hlast : (List.replicate n "." ++ ["p", "package.json"]).getLast? =
          some "package.json" := by
        rw [List.getLast?_append]
        rfl
      rw [Text.getLast?_split hne, split_padded, hlast]
      decide
    unfold Path.steps
    rw [if_neg hslash, List.append_nil, pieces_padded]
  have horigin : ∀ p : Path, p.origin fs.workingDirectory = [] := fun p => by
    unfold Path.origin
    rw [hdirectory, ite_self]
  have hlocate : fs.locate false (padded n) = fs.locate false ⟨"p/package.json"⟩ := by
    unfold locate
    rw [hsteps, horigin, horigin, walk_replicate, if_neg (by simpa using hne),
      if_neg (by rw [hsize]; omega)]
    rfl
  unfold find
  rw [hlocate]

end padded

/-- Files in which the name beside the manifest is taken. -/
def sampleHeld : FileSystem :=
  Manifest.sampleFiles [(["p", ".package.json.tmp"], .file (Text.encode "x"))]

/-- A file is left beside a manifest, behind a failure, where it cannot be removed: if removing it
    is not allowed, and if its path is too long although that of the manifest is not. -/
theorem left_of_failed_removal :
    (∃ m files failure, Reachable m sampleTaken ⟨"p/package.json"⟩
        ⟨files, .ended (.error failure) (some ⟨13⟩)⟩ ∧
      files.find false (Manifest.temporaryPath ⟨"p/package.json"⟩) =
        .ok (["p", ".package.json.tmp"], .file (Text.encode m.render))) ∧
    sampleHeld.Grounded ∧
    sampleHeld.find false (padded 2040) =
      .ok (["p", "package.json"], .file (Text.encode "\x7b\x7d")) ∧
    ¬sampleHeld.IsLink (Manifest.temporaryPath (padded 2040)) ∧
    (Manifest.temporaryPath (padded 2040)).pieces =
      List.replicate 2040 "." ++ ["p", ".package.json.tmp"] ∧
    ∀ m : Manifest, m.store sampleHeld (padded 2040) =
        (.error (.manifest (.io (padded 2040) (.os .nameTooLong))), sampleHeld) ∧
      sampleHeld.get? ["p", ".package.json.tmp"] = some (.file (Text.encode "x")) := by
  have hlong : pathLengthLimit ≤ (Manifest.temporaryPath (padded 2040)).text.utf8ByteSize :=
    Nat.le_trans (by decide) (size_temporaryPath_padded 2040)
  have hshort : 2 * 2040 + 14 < pathLengthLimit := by decide
  have hmanifest : sampleHeld.find false ⟨"p/package.json"⟩ =
      .ok (["p", "package.json"], .file (Text.encode "\x7b\x7d")) := by decide +kernel
  refine ⟨?_, ⟨by decide +kernel, rfl⟩, (find_padded 2040 rfl hshort).trans hmanifest, ?_, ?_,
    fun m => ⟨store_of_long m sampleHeld hlong, by decide +kernel⟩⟩
  · -- the octets are written, and then neither synchronising nor removing them is possible
    have hcreate : sampleTaken.create (Manifest.temporaryPath ⟨"p/package.json"⟩) =
        .ok (sampleTaken.put ["p", ".package.json.tmp"] (.file []),
          ["p", ".package.json.tmp"]) := by
      decide +kernel
    have hwritten := (Reachable.start.step (.create hcreate)).step
      (.write (m := ⟨[]⟩) (List.append_nil _).symm)
    exact ⟨⟨[]⟩, _, _, (hwritten.step (.fail ⟨13⟩ trivial)).step (.keep ⟨13⟩), by decide +kernel⟩
  · rintro ⟨location, target, hfind⟩
    unfold find at hfind
    rw [(locate_of_long sampleHeld false hlong).2] at hfind
    cases hfind
  · rw [temporaryPath_padded, (Path.join_name _ (by decide)).1, pieces_directory, List.append_assoc]
    rfl

end Storing

end PackageRelease
