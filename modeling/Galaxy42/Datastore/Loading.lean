import Galaxy42.Crypto.StoredKeys
import Galaxy42.Lib.Steps

/-!
# Loading what was saved

Of the name of a file, saving takes what is behind its directories, and loading takes all of it. Both put
the directory of the store in front and the ending behind. So what was saved under a name with a directory
is looked for in another place, unless links, or elements like `"."`, lead to the same file.

A run of saves starts with nothing saved. In every state of it, all that was saved last under each store and
name can be loaded, by both functions, exactly when each save that writes its file is harmless: the path
that is loaded leads to the file that is written, which can be read, and the path of no other name that
was saved does (`kept_throughout_iff`). When no name has a directory, and the paths of the files lead to
different files that can be read, all saves are harmless (`kept_of_plain`).

Which file a path leads to is a parameter (`FileSystem`), since two paths may lead to one file. A save then
changes what is behind every path to that file (`Disk.after`). What the run has recorded is kept next to the
disk: of each store and name, the data that were saved last. Saves that fail, or that the user refuses, change
neither.

What a save keeps is split into what it has saved itself (`loads_own_iff`) and what was saved before
(`kept_others_iff`), and both are equivalences. `load_string` does not notice when a file cannot be opened,
and returns what it has read by then, which is nothing; `load_string_mlocked` throws. What both of them load is
in a file that can be read (`loads_iff`).
-/

namespace Galaxy42

open Toolkit Program

/-! ### Files behind paths -/

/-- The files that paths lead to, when the directories of the stores are there. Several paths may lead to one
file. -/
structure FileSystem (F : Type) where
  /-- The file that a path leads to. -/
  file : Path → F
  /-- The file can be opened for reading. -/
  readable : F → Bool
  /-- What `boost::filesystem::canonical` says about a path where nothing is. -/
  notFound : Path → String
  /-- The messages of `_dbg2` are written. -/
  dbg2 : Bool

/-- A host where paths that lead to one file have the same behind them. So it does not matter over which path
a file is changed. -/
structure Disk {F : Type} (fs : FileSystem F) where
  host : Host
  entry_eq : ∀ path path', fs.file path = fs.file path' → host.entry path = host.entry path'

/-- Octets in the text of an exception. -/
def asText (octets : Bytes) : String := String.ofList (octets.map fun c => Char.ofNat c.toNat)

namespace Datastore

/-! ### Loading -/

section

variable {F : Type} (fs : FileSystem F) (lib : PathLib) (fileType : Datastore) (filename : Bytes)

/-- `load_string`. It does not notice when the file cannot be opened. -/
def loadString : Program Exn Host Bytes := do
  let fileWithPath ← getFullPath lib fileType filename
  let host ← get
  -- The message has the canonical path in it, and there is none where nothing is.
  checkThat (¬ (fs.dbg2 = true ∧ host.entry fileWithPath = .absent))
    (.invalidArgument (fs.notFound fileWithPath))
  checkThat ((← isFileOk fileWithPath) = true)
    (.invalidArgument ("Fail to open file for read: " ++ asText filename))
  match host.entry fileWithPath with
  | .regular content _ => return if fs.readable (fs.file fileWithPath) then content else []
  | _ => return []

/-- `load_string_mlocked` -/
def loadStringMlocked : Program Exn Host Bytes := do
  let fileWithPath ← getFullPath lib fileType filename
  checkThat ((← isFileOk fileWithPath) = true)
    (.invalidArgument ("Fail to open file for read: " ++ asText filename))
  checkThat (fs.readable (fs.file fileWithPath) = true)
    (.invalidArgument ("Fail to open mlocked file for read: " ++ asText filename))
  let host ← get
  match host.entry fileWithPath with
  | .regular content _ => return content
  | _ => return []

/-- Both functions load these data. -/
def Loads (host : Host) (data : Bytes) : Prop :=
  loadString fs lib fileType filename host = .ok data host ∧
    loadStringMlocked fs lib fileType filename host = .ok data host

end

variable {F : Type} {fs : FileSystem F} {lib : PathLib} {fileType : Datastore} {filename data : Bytes}
  {host : Host}

/-- Without a home directory nothing is loaded. -/
private theorem not_loads_of_no_path (h : host.fullPath lib fileType filename = none) :
    ¬ Loads fs lib fileType filename host data := by
  have hpath := getFullPath_eq lib fileType filename host
  rw [h] at hpath
  rintro ⟨-, hmlocked⟩
  rw [loadStringMlocked, bind_of_error hpath] at hmlocked
  cases hmlocked

/-- Data are loaded from a regular file that can be read. -/
theorem loads_iff : Loads fs lib fileType filename host data ↔
    ∃ path writable, host.fullPath lib fileType filename = some path ∧
      host.entry path = .regular data writable ∧ fs.readable (fs.file path) = true := by
  cases hfull : host.fullPath lib fileType filename with
  | none => exact iff_of_false (not_loads_of_no_path hfull) (by simp)
  | some path =>
    have hpath := getFullPath_eq lib fileType filename host
    rw [hfull] at hpath
    rw [Loads, loadString, loadStringMlocked, bind_of_ok hpath, bind_of_ok hpath]
    cases hat : host.entry path with
    | absent => simp [bind_apply, isFileOk, checkThat_apply, hat]
    | other => simp [bind_apply, isFileOk, checkThat_apply, hat]
    | regular content writable =>
      cases writable <;> cases hread : fs.readable (fs.file path) <;>
        simp [bind_apply, isFileOk, checkThat_apply, hat, hread]

end Datastore

/-! ### Saves -/

/-- A call of `save_string` or `save_string_mlocked`. -/
structure SaveCall where
  mlocked : Bool
  fileType : Datastore
  filename : Bytes
  data : Bytes
  overwrite : Bool

namespace SaveCall

open Datastore

variable (lib : PathLib) (call : SaveCall) (host : Host)

/-- The call. -/
def run : Program Exn Host Unit :=
  if call.mlocked then saveStringMlocked lib call.fileType call.filename call.data call.overwrite
  else saveString lib call.fileType call.filename call.data call.overwrite

/-- The path that is saved. -/
def savedPath : Option Path := host.fullPath lib call.fileType (lib.filename call.filename)

/-- The path that is loaded. -/
def loadedPath : Option Path := host.fullPath lib call.fileType call.filename

/-- The call returns, and the user has not refused to overwrite the file. -/
def Succeeds : Prop :=
  (∃ host', call.run lib host = .ok () host') ∧
    ∀ path, call.savedPath lib host = some path → ¬ host.Refused path call.overwrite

/-- The name is not empty, its file can be opened, and the user does not want to keep what is in it. -/
def CanWrite (path : Path) : Prop :=
  call.filename ≠ [] ∧ call.savedPath lib host = some path ∧ host.Openable path ∧
    ¬ host.Refused path call.overwrite

variable {lib call host}

/-- Both functions save in the same way. -/
theorem exists_run_eq (lib : PathLib) (call : SaveCall) : ∃ write failed, Writes write call.data ∧
    call.run lib = save lib write failed call.fileType call.filename call.overwrite := by
  cases hmlocked : call.mlocked with
  | false =>
    refine ⟨_, .runtimeError "Failed to save string", writes_writeString call.data, ?_⟩
    rw [run, hmlocked, if_neg Bool.false_ne_true, saveString]
  | true =>
    refine ⟨_, .runtimeError "Failed to save mlocked string", writes_writeStringMlocked call.data, ?_⟩
    rw [run, hmlocked, if_pos rfl, saveStringMlocked]

/-- What a call leaves, which gets its data into the file. -/
theorem saved_of_canWrite {path : Path} (h : call.CanWrite lib host path) :
    ∃ host', call.run lib host = .ok () host' ∧ host.Saved path call.data host' := by
  obtain ⟨write, failed, hwrite, hrun⟩ := exists_run_eq lib call
  obtain ⟨hname, hpath, hopen, hrefused⟩ := h
  rw [hrun]
  exact save_of_openable failed hwrite hname hpath hopen hrefused

/-- A call succeeds when its file can be written. -/
theorem succeeds_iff : call.Succeeds lib host ↔ ∃ path, call.CanWrite lib host path := by
  constructor
  · rintro ⟨⟨host', hok⟩, hkept⟩
    obtain ⟨write, failed, hwrite, hrun⟩ := exists_run_eq lib call
    rw [hrun] at hok
    obtain ⟨hname, path, hpath, hcan⟩ := (StoredObject.save_returns_iff hwrite).mp ⟨host', hok⟩
    exact ⟨path, hname, hpath, hcan.resolve_right (hkept path hpath), hkept path hpath⟩
  · rintro ⟨path, h⟩
    obtain ⟨host', hok, -⟩ := saved_of_canWrite h
    refine ⟨⟨host', hok⟩, fun path' hpath' => ?_⟩
    rw [← Option.some.inj (h.2.1.symm.trans hpath')]
    exact h.2.2.2

/-- A call that does not succeed leaves all files as they are. -/
private theorem entry_of_not_succeeds (h : ¬ call.Succeeds lib host) :
    (finalState (call.run lib) host).entry = host.entry := by
  obtain ⟨write, failed, hwrite, hrun⟩ := exists_run_eq lib call
  rw [hrun]
  by_cases hopen : host.CanOpen lib call.fileType call.filename
  · obtain ⟨hname, path, hpath, hopen⟩ := hopen
    have hrefused : host.Refused path call.overwrite := by
      by_contra hnot
      exact h (succeeds_iff.mpr ⟨path, hname, hpath, hopen, hnot⟩)
    obtain ⟨host', hok, htouch, hentry, -⟩ := save_of_refused write failed hname hpath hrefused
    rw [finalState_of_ok hok]
    funext other
    by_cases hother : other = path
    · rw [hother, hentry]
    · exact htouch.entry other hother
  · exact (StoredObject.opened_save_iff hwrite).2 hopen

/-- No call changes where the home directory is. -/
theorem home_run (lib : PathLib) (call : SaveCall) (host : Host) :
    (finalState (call.run lib) host).home = host.home := by
  obtain ⟨write, failed, hwrite, hrun⟩ := exists_run_eq lib call
  rw [hrun]
  by_cases hpath : call.filename ≠ [] → call.savedPath lib host = none
  · obtain ⟨e, hfail⟩ : ∃ e, save lib write failed call.fileType call.filename call.overwrite host =
        .error e host := save_of_no_path hpath
    rw [finalState_of_error hfail]
  · rw [Classical.not_imp] at hpath
    obtain ⟨hname, hpath⟩ := hpath
    obtain ⟨path, hpath⟩ := Option.ne_none_iff_exists'.mp hpath
    obtain ⟨host', hfinal, htouch, -⟩ := save_spec call.overwrite failed hwrite hname hpath
    rw [hfinal, Host.home, Host.home, htouch.homeDir, htouch.homeEnv]

end SaveCall

/-! ### Runs of saves -/

section

variable {F : Type} [DecidableEq F] {fs : FileSystem F}

/-- The disk after a call. All paths that lead to the file that was saved have its content behind them.
Directories are there already, or are made. -/
def Disk.after (lib : PathLib) (disk : Disk fs) (call : SaveCall) : Disk fs :=
  let host' := finalState (call.run lib) disk.host
  match call.savedPath lib disk.host with
  | none => ⟨{ host' with entry := disk.host.entry }, disk.entry_eq⟩
  | some path =>
    ⟨{ host' with entry := fun other =>
        if fs.file other = fs.file path then host'.entry path else disk.host.entry other },
      fun other other' heq => by
        dsimp only
        rw [heq, disk.entry_eq other other' heq]⟩

/-- The disk, with what was saved last under each store and name. -/
abbrev Recorded (fs : FileSystem F) := Disk fs × (Datastore → Bytes → Option Bytes)

/-- With these data saved last. -/
def SaveCall.record (call : SaveCall) (recorded : Datastore → Bytes → Option Bytes) :
    Datastore → Bytes → Option Bytes :=
  fun fileType filename => if (fileType, filename) = (call.fileType, call.filename) then some call.data
    else recorded fileType filename

private theorem SaveCall.record_self (call : SaveCall) (recorded : Datastore → Bytes → Option Bytes) :
    call.record recorded call.fileType call.filename = some call.data := if_pos rfl

private theorem SaveCall.record_of_ne {call : SaveCall} {fileType : Datastore} {filename : Bytes}
    (h : (fileType, filename) ≠ (call.fileType, call.filename))
    (recorded : Datastore → Bytes → Option Bytes) :
    call.record recorded fileType filename = recorded fileType filename := if_neg h

variable (lib : PathLib)

/-- A call, which is recorded when it succeeds. -/
def SaveCall.Step (s : Recorded fs) (call : SaveCall) (s' : Recorded fs) : Prop :=
  s'.1 = s.1.after lib call ∧
    (call.Succeeds lib s.1.host ∧ s'.2 = call.record s.2 ∨ ¬ call.Succeeds lib s.1.host ∧ s'.2 = s.2)

/-- All that was saved can be loaded. What was saved last under a name is what counts, in each of the stores. -/
def Kept (s : Recorded fs) : Prop :=
  ∀ fileType filename data, s.2 fileType filename = some data →
    Datastore.Loads fs lib fileType filename s.1.host data

/-- When a file is written, the path that is loaded leads to it, or to one that has the data already, and
can be read; and the paths of other names that were saved lead elsewhere, or the data are the same. -/
def SaveCall.Harmless (s : Recorded fs) (call : SaveCall) : Prop :=
  ∀ path loaded, call.CanWrite lib s.1.host path → call.loadedPath lib s.1.host = some loaded →
    (fs.readable (fs.file loaded) = true ∧
      (fs.file loaded = fs.file path ∨
        ∃ writable, s.1.host.entry loaded = .regular call.data writable)) ∧
    ∀ fileType filename data other, s.2 fileType filename = some data →
      (fileType, filename) ≠ (call.fileType, call.filename) →
      s.1.host.fullPath lib fileType filename = some other →
      fs.file other = fs.file path → data = call.data

variable {lib} {disk : Disk fs} {call : SaveCall} {s s' : Recorded fs}

/-- No call changes where the home directory is. -/
theorem Disk.home_after (disk : Disk fs) (call : SaveCall) :
    (disk.after lib call).host.home = disk.host.home := by
  rw [← SaveCall.home_run lib call disk.host]
  unfold Disk.after
  split <;> rfl

@[simp] theorem Disk.fullPath_after (disk : Disk fs) (call : SaveCall) (fileType : Datastore)
    (filename : Bytes) : (disk.after lib call).host.fullPath lib fileType filename =
      disk.host.fullPath lib fileType filename := by
  rw [Host.fullPath, Host.fullPath, Disk.home_after]

/-- What is behind a path after its file was written, or another one. -/
theorem Disk.entry_after_of_canWrite {path : Path} (h : call.CanWrite lib disk.host path) (other : Path) :
    (disk.after lib call).host.entry other =
      if fs.file other = fs.file path then .regular call.data true else disk.host.entry other := by
  obtain ⟨host', hok, hsaved⟩ := SaveCall.saved_of_canWrite h
  have hpath := h.2.1
  unfold Disk.after
  simp only [hpath, finalState_of_ok hok, hsaved.content]

/-- A call that does not succeed leaves all files as they are. -/
private theorem Disk.entry_after_of_not_succeeds (h : ¬ call.Succeeds lib disk.host) :
    (disk.after lib call).host.entry = disk.host.entry := by
  have hentry := SaveCall.entry_of_not_succeeds h
  unfold Disk.after
  split
  next => rfl
  next path hpath =>
    dsimp only
    funext other
    rw [hentry]
    split
    next heq => exact disk.entry_eq path other heq.symm
    next => rfl

/-- What is loaded under a name after a file was written. -/
theorem loads_after_iff {path : Path} (h : call.CanWrite lib disk.host path) (fileType : Datastore)
    (filename data : Bytes) :
    Datastore.Loads fs lib fileType filename (disk.after lib call).host data ↔
      ∃ other, disk.host.fullPath lib fileType filename = some other ∧
        fs.readable (fs.file other) = true ∧
        if fs.file other = fs.file path then call.data = data
        else ∃ writable, disk.host.entry other = .regular data writable := by
  rw [Datastore.loads_iff]
  simp only [Disk.fullPath_after, Disk.entry_after_of_canWrite h]
  refine exists_congr fun other => ?_
  by_cases heq : fs.file other = fs.file path
  · simp only [heq, if_true]
    constructor
    · rintro ⟨_, hfull, hdata, hread⟩
      injection hdata with hdata
      exact ⟨hfull, hread, hdata⟩
    · rintro ⟨hfull, hread, rfl⟩
      exact ⟨true, hfull, rfl, hread⟩
  · simp only [if_neg heq]
    constructor
    · rintro ⟨writable, hfull, hdata, hread⟩
      exact ⟨hfull, hread, writable, hdata⟩
    · rintro ⟨hfull, hread, writable, hdata⟩
      exact ⟨writable, hfull, hdata, hread⟩

/-- A call that does not succeed keeps what was saved. -/
private theorem kept_of_not_succeeds (hkept : Kept lib s) (h : ¬ call.Succeeds lib s.1.host)
    (hstep : call.Step lib s s') : Kept lib s' := by
  obtain ⟨hdisk, hrecord⟩ := hstep
  have hsame : s'.2 = s.2 := (hrecord.resolve_left fun hs => h hs.1).2
  intro fileType filename data hdata
  rw [hsame] at hdata
  have hload := hkept fileType filename data hdata
  rw [Datastore.loads_iff] at hload ⊢
  rwa [hdisk, Disk.fullPath_after, Disk.entry_after_of_not_succeeds h]

/-- A file that is written keeps what was saved under other names, when it does not take the place of
other data. -/
theorem kept_others_iff {path : Path} (hkept : Kept lib s) (h : call.CanWrite lib s.1.host path)
    {fileType : Datastore} {filename data : Bytes} (hdata : s.2 fileType filename = some data) :
    Datastore.Loads fs lib fileType filename (s.1.after lib call).host data ↔
      ∀ other, s.1.host.fullPath lib fileType filename = some other →
        fs.file other = fs.file path → data = call.data := by
  rw [loads_after_iff h]
  obtain ⟨other, writable, hfull, hentry, hread⟩ :=
    Datastore.loads_iff.mp (hkept fileType filename data hdata)
  constructor
  · rintro ⟨other', hfull', -, hcontent⟩ other'' hfull'' heq
    rw [← Option.some.inj (hfull'.symm.trans hfull'')] at heq
    rw [if_pos heq] at hcontent
    exact hcontent.symm
  · intro hsame
    refine ⟨other, hfull, hread, ?_⟩
    split
    next heq => exact (hsame other hfull heq).symm
    next => exact ⟨writable, hentry⟩

/-- A file that is written can be loaded under its own name, when the path that is loaded leads to it. -/
theorem loads_own_iff {path : Path} (h : call.CanWrite lib disk.host path) :
    Datastore.Loads fs lib call.fileType call.filename (disk.after lib call).host call.data ↔
      ∃ loaded, call.loadedPath lib disk.host = some loaded ∧ fs.readable (fs.file loaded) = true ∧
        (fs.file loaded = fs.file path ∨
          ∃ writable, disk.host.entry loaded = .regular call.data writable) := by
  rw [loads_after_iff h]
  refine exists_congr fun loaded => and_congr_right fun _ => and_congr_right fun _ => ?_
  by_cases heq : fs.file loaded = fs.file path <;> simp [heq]

/-- What is kept when a call is recorded: the data under its name, and all others. -/
theorem kept_record_iff (hdisk : s'.1 = s.1.after lib call) (hrecord : s'.2 = call.record s.2) :
    Kept lib s' ↔
      Datastore.Loads fs lib call.fileType call.filename (s.1.after lib call).host call.data ∧
      ∀ fileType filename data, s.2 fileType filename = some data →
        (fileType, filename) ≠ (call.fileType, call.filename) →
        Datastore.Loads fs lib fileType filename (s.1.after lib call).host data := by
  rw [Kept, hdisk, hrecord]
  constructor
  · refine fun hkept => ⟨hkept _ _ _ (call.record_self s.2), fun fileType filename data hdata hne => ?_⟩
    exact hkept fileType filename data ((SaveCall.record_of_ne hne s.2).trans hdata)
  · rintro ⟨hown, hothers⟩ fileType filename data hdata
    by_cases hname : (fileType, filename) = (call.fileType, call.filename)
    · obtain ⟨rfl, rfl⟩ := Prod.mk.inj hname
      obtain rfl : call.data = data := Option.some.inj ((call.record_self s.2).symm.trans hdata)
      exact hown
    · rw [SaveCall.record_of_ne hname] at hdata
      exact hothers fileType filename data hdata hname

/-- What a call that succeeds keeps. -/
private theorem kept_iff_of_canWrite {path : Path} (hkept : Kept lib s) (h : call.CanWrite lib s.1.host path)
    (hstep : call.Step lib s s') : Kept lib s' ↔ call.Harmless lib s := by
  obtain ⟨hdisk, hrecord⟩ := hstep
  have hrecord : s'.2 = call.record s.2 :=
    (hrecord.resolve_right fun hs => hs.1 (SaveCall.succeeds_iff.mpr ⟨path, h⟩)).2
  rw [kept_record_iff hdisk hrecord, loads_own_iff h]
  constructor
  · rintro ⟨⟨loaded, hloaded, hown⟩, hothers⟩ path' loaded' h' hloaded'
    obtain rfl : path = path' := Option.some.inj (h.2.1.symm.trans h'.2.1)
    obtain rfl : loaded = loaded' := Option.some.inj (hloaded.symm.trans hloaded')
    refine ⟨hown, fun fileType filename data other hdata hne => ?_⟩
    exact (kept_others_iff hkept h hdata).mp (hothers fileType filename data hdata hne) other
  · intro hharmless
    -- there is a path to load, as there is one to save
    obtain ⟨loaded, hloaded⟩ : ∃ loaded, call.loadedPath lib s.1.host = some loaded := by
      obtain ⟨userHome, hhome, -⟩ := Option.map_eq_some_iff.mp h.2.1
      exact ⟨_, Option.map_eq_some_iff.mpr ⟨userHome, hhome, rfl⟩⟩
    obtain ⟨hown, hothers⟩ := hharmless path loaded h hloaded
    refine ⟨⟨loaded, hloaded, hown⟩, fun fileType filename data hdata hne => ?_⟩
    exact (kept_others_iff hkept h hdata).mpr fun other => hothers fileType filename data other hdata hne

/-- What a call keeps. -/
theorem kept_step_iff (hkept : Kept lib s) (hstep : call.Step lib s s') :
    Kept lib s' ↔ call.Harmless lib s := by
  by_cases h : ∃ path, call.CanWrite lib s.1.host path
  · obtain ⟨path, h⟩ := h
    exact kept_iff_of_canWrite hkept h hstep
  · have hkept' := kept_of_not_succeeds hkept (fun hs => h (SaveCall.succeeds_iff.mp hs)) hstep
    exact iff_of_true hkept' fun path _ hwrite => absurd ⟨path, hwrite⟩ h

variable {trace : List (Recorded fs × SaveCall)}

/-- In a run of saves, all that was saved last can be loaded in every state, exactly when all saves are
harmless. Saves may fail, and names may lead to one file over links and folders, as the file system has it. -/
theorem kept_throughout_iff (hrun : Steps (SaveCall.Step lib) (disk, fun _ _ => none) trace s') :
    Steps.Throughout (Kept lib) trace s' ↔ Steps.All (fun s call => call.Harmless lib s) trace := by
  have hnone : Kept lib ((disk, fun _ _ => none) : Recorded fs) := fun _ _ _ h => nomatch h
  exact Steps.invariant_iff (fun _ _ _ hkept hstep => kept_step_iff hkept hstep) hrun hnone

/-! ### Names without directories -/

/-- A name without directories is its own last element. Its parent path is empty. -/
def PathLib.KeepsPlain (lib : PathLib) : Prop :=
  ∀ name, slash ∉ name → lib.filename name = name ∧ lib.parentPath name = []

/-- The path of a name without directories. -/
def Datastore.plainPath (userHome : Bytes) : Datastore → Bytes → Path
  | .localPath, name => name
  | fileType, name => userHome ++ (fileType.directory ++ (name ++ fileType.extension))

private theorem fullPath_of_plain (hlib : lib.KeepsPlain) {name : Bytes} (hname : slash ∉ name) (host : Host)
    (fileType : Datastore) :
    host.fullPath lib fileType name = host.home.map fun userHome => fileType.plainPath userHome name := by
  cases fileType <;> simp [Host.fullPath, Datastore.plainPath, Datastore.extension, (hlib name hname).2]

namespace Datastore

variable {userHome name name' : Bytes} {fileType fileType' : Datastore}

private theorem plainPath_of_ne (h : fileType ≠ .localPath) (userHome name : Bytes) :
    fileType.plainPath userHome name =
      userHome ++ (fileType.directory ++ (name ++ fileType.extension)) := by
  cases fileType <;> first | exact absurd rfl h | rfl

private theorem directory_of_ne (h : fileType ≠ .localPath) :
    slash ∈ fileType.directory ∧ fileType.directory.length = 33 := by
  cases fileType <;> first | exact absurd rfl h | decide

/-- A path in one of the directories is no name without directories. -/
private theorem slash_mem_plainPath (h : fileType ≠ .localPath) (userHome name : Bytes) :
    slash ∈ fileType.plainPath userHome name := by
  rw [plainPath_of_ne h]
  exact List.mem_append_right _ (List.mem_append_left _ (directory_of_ne h).1)

/-- Two stores in one directory have endings of one length, and not the same. -/
private theorem extension_of_directory_eq (h : fileType ≠ .localPath) (h' : fileType' ≠ .localPath)
    (hdir : fileType.directory = fileType'.directory) :
    fileType.extension.length = fileType'.extension.length ∧
      (fileType.extension = fileType'.extension → fileType = fileType') := by
  revert h h' hdir
  cases fileType <;> cases fileType' <;> decide

/-- Names without directories have different paths, also in different stores. -/
private theorem plainPath_inj (hname : slash ∉ name) (hname' : slash ∉ name')
    (h : fileType.plainPath userHome name = fileType'.plainPath userHome name') :
    fileType = fileType' ∧ name = name' := by
  by_cases hlocal : fileType = .localPath <;> by_cases hlocal' : fileType' = .localPath
  · subst hlocal hlocal'
    exact ⟨rfl, h⟩
  · subst hlocal
    have hslash := slash_mem_plainPath hlocal' userHome name'
    rw [← h] at hslash
    exact absurd hslash hname
  · subst hlocal'
    have hslash := slash_mem_plainPath hlocal userHome name
    rw [h] at hslash
    exact absurd hslash hname'
  · rw [plainPath_of_ne hlocal, plainPath_of_ne hlocal'] at h
    obtain ⟨hdir, hbase⟩ := List.append_inj (List.append_cancel_left h)
      ((directory_of_ne hlocal).2.trans (directory_of_ne hlocal').2.symm)
    obtain ⟨hlength, hext⟩ := extension_of_directory_eq hlocal hlocal' hdir
    obtain ⟨hnames, hends⟩ := List.append_inj' hbase hlength
    exact ⟨hext hends, hnames⟩

/-- The paths of names without directories. -/
def plainPaths (userHome : Bytes) : Set Path :=
  {path | ∃ fileType name, slash ∉ name ∧ path = Datastore.plainPath userHome fileType name}

end Datastore

/-- Only names without directories have been saved, below this home directory. -/
structure SavedPlain (userHome : Option Bytes) (s : Recorded fs) : Prop where
  home : s.1.host.home = userHome
  plain : ∀ fileType filename data, s.2 fileType filename = some data → slash ∉ filename

private theorem SavedPlain.step {userHome : Option Bytes} (h : SavedPlain userHome s)
    (hplain : slash ∉ call.filename) (hstep : call.Step lib s s') : SavedPlain userHome s' := by
  obtain ⟨hdisk, hrecord⟩ := hstep
  refine ⟨by rw [hdisk, Disk.home_after, h.home], fun fileType filename data hdata => ?_⟩
  rcases hrecord with ⟨-, hrecord⟩ | ⟨-, hrecord⟩
  · rw [hrecord] at hdata
    by_cases hname : (fileType, filename) = (call.fileType, call.filename)
    · rw [(Prod.mk.inj hname).2]
      exact hplain
    · rw [SaveCall.record_of_ne hname] at hdata
      exact h.plain fileType filename data hdata
  · rw [hrecord] at hdata
    exact h.plain fileType filename data hdata

omit [DecidableEq F] in
/-- A save under a name without directories is harmless where no other names have been saved. -/
private theorem harmless_of_plain (hlib : lib.KeepsPlain) (hread : ∀ f, fs.readable f = true)
    (hfile : ∀ userHome, s.1.host.home = some userHome →
      Set.InjOn fs.file (Datastore.plainPaths userHome))
    (h : SavedPlain s.1.host.home s) (hplain : slash ∉ call.filename) : call.Harmless lib s := by
  intro path loaded hwrite hloaded
  have hsaved : s.1.host.fullPath lib call.fileType call.filename = some path := by
    have hpath := hwrite.2.1
    rwa [SaveCall.savedPath, (hlib call.filename hplain).1] at hpath
  obtain rfl : loaded = path := Option.some.inj (hloaded.symm.trans hsaved)
  refine ⟨⟨hread _, .inl rfl⟩, fun fileType filename data other hdata hne hother heq => ?_⟩
  have hplain' := h.plain fileType filename data hdata
  rw [fullPath_of_plain hlib hplain] at hsaved
  rw [fullPath_of_plain hlib hplain'] at hother
  obtain ⟨userHome, hhome, rfl⟩ := Option.map_eq_some_iff.mp hsaved
  obtain ⟨userHome', hhome', rfl⟩ := Option.map_eq_some_iff.mp hother
  obtain rfl : userHome = userHome' := Option.some.inj (hhome.symm.trans hhome')
  have hpaths := hfile userHome hhome ⟨_, _, hplain', rfl⟩ ⟨_, _, hplain, rfl⟩ heq
  obtain ⟨rfl, rfl⟩ := Datastore.plainPath_inj hplain' hplain hpaths
  exact absurd rfl hne

/-- In a run of saves under names without directories, all that was saved last can be loaded in every
state. -/
theorem kept_of_plain (hlib : lib.KeepsPlain) (hread : ∀ f, fs.readable f = true)
    (hfile : ∀ userHome, disk.host.home = some userHome →
      Set.InjOn fs.file (Datastore.plainPaths userHome))
    (hrun : Steps (SaveCall.Step lib) (disk, fun _ _ => none) trace s')
    (hplain : Steps.All (fun _ call => slash ∉ call.filename) trace) :
    Steps.Throughout (Kept lib) trace s' := by
  have hinit : Kept lib ((disk, fun _ _ => none) : Recorded fs) ∧
      SavedPlain disk.host.home ((disk, fun _ _ => none) : Recorded fs) :=
    ⟨fun _ _ _ h => (nomatch h), rfl, fun _ _ _ h => (nomatch h)⟩
  have hkeep : ∀ (s : Recorded fs) (call : SaveCall) (s' : Recorded fs),
      Kept lib s ∧ SavedPlain disk.host.home s → slash ∉ call.filename → call.Step lib s s' →
      Kept lib s' ∧ SavedPlain disk.host.home s' := by
    rintro s call s' ⟨hkept, hsaved⟩ hcall hstep
    have hharmless : call.Harmless lib s :=
      harmless_of_plain hlib hread (hsaved.home ▸ hfile) (hsaved.home.symm ▸ hsaved) hcall
    exact ⟨(kept_step_iff hkept hstep).mpr hharmless, hsaved.step hcall hstep⟩
  have hthroughout := Steps.invariant hkeep hrun hinit hplain
  exact ⟨fun p hp => (hthroughout.1 p hp).1, hthroughout.2.1⟩

end

/-! ### A name with a directory -/

/-- A system where every path leads to a file of its own. -/
def sampleFiles : FileSystem Path where
  file := id
  readable := fun _ => true
  notFound := fun _ => "boost::filesystem::canonical: No such file or directory"
  dbg2 := true

/-- The sample host, with its files. -/
def sampleDisk : Disk sampleFiles := ⟨StoredObject.sampleHost, fun _ _ => congrArg _⟩

/-- Something is saved among the public keys. -/
def sampleCall (filename : Bytes) : SaveCall where
  mlocked := false
  fileType := .galaxyPub
  filename := filename
  data := ascii "data"
  overwrite := false

/-- What was saved under this name, with nothing saved before. -/
def sampleSaved (filename : Bytes) : Recorded sampleFiles :=
  (sampleDisk.after StoredObject.sampleLib (sampleCall filename),
    (sampleCall filename).record fun _ _ => none)

/-- The save succeeds. -/
theorem steps_sample (filename : Bytes)
    (h : ∃ path, (sampleCall filename).CanWrite StoredObject.sampleLib sampleDisk.host path) :
    Steps (SaveCall.Step StoredObject.sampleLib) (sampleDisk, fun _ _ => none)
      [((sampleDisk, fun _ _ => none), sampleCall filename)] (sampleSaved filename) :=
  Steps.snoc (.nil _) ⟨rfl, .inl ⟨SaveCall.succeeds_iff.mpr h, rfl⟩⟩

private theorem canWrite_sample (filename : Bytes) (hname : filename ≠ []) :
    ∃ path, (sampleCall filename).CanWrite StoredObject.sampleLib sampleDisk.host path := by
  refine ⟨_, hname, rfl, ⟨rfl, rfl⟩, ?_⟩
  rintro ⟨-, -, -, _, _, hentry, -⟩
  cases hentry

/-- What was saved as `"key"` can be loaded. -/
theorem kept_throughout_example :
    Steps.Throughout (Kept StoredObject.sampleLib)
      [((sampleDisk, fun _ _ => none), sampleCall (ascii "key"))] (sampleSaved (ascii "key")) := by
  refine (kept_throughout_iff (steps_sample _ (canWrite_sample _ (by decide)))).mpr ?_
  intro p hp
  obtain rfl := List.mem_singleton.mp hp
  intro path loaded hwrite hloaded
  have hsame : (sampleCall (ascii "key")).savedPath StoredObject.sampleLib sampleDisk.host =
      (sampleCall (ascii "key")).loadedPath StoredObject.sampleLib sampleDisk.host := by
    decide
  obtain rfl : path = loaded := Option.some.inj (hwrite.2.1.symm.trans (hsame.trans hloaded))
  exact ⟨⟨rfl, .inl rfl⟩, fun _ _ _ _ h => nomatch h⟩

/-- What was saved as `"d/key"` cannot: it is looked for in another directory. -/
theorem not_kept_throughout :
    ¬ ∀ (lib : PathLib) (disk : Disk sampleFiles) (trace : List (Recorded sampleFiles × SaveCall))
      (s' : Recorded sampleFiles), lib.Lawful →
        Steps (SaveCall.Step lib) (disk, fun _ _ => none) trace s' →
        Steps.Throughout (Kept lib) trace s' := by
  intro h
  have hkept := (h StoredObject.sampleLib sampleDisk _ _ StoredObject.lawful_sampleLib
    (steps_sample (ascii "d/key") (canWrite_sample _ (by decide)))).2
  have hload := hkept .galaxyPub (ascii "d/key") (ascii "data")
    ((sampleCall (ascii "d/key")).record_self fun _ _ => none)
  obtain ⟨path, writable, hpath, hentry, -⟩ := Datastore.loads_iff.mp hload
  -- the path that is loaded, where nothing was made
  have hloaded : sampleDisk.host.fullPath StoredObject.sampleLib .galaxyPub (ascii "d/key") =
      some (ascii "/home/alice/.config/antinet/galaxy42/public/d/key.pub") := by
    decide +kernel
  obtain rfl := Option.some.inj (hloaded.symm.trans ((Disk.fullPath_after ..).symm.trans hpath))
  obtain ⟨saved, hwrite⟩ := canWrite_sample (ascii "d/key") (by decide)
  have hsaved : ascii "/home/alice/.config/antinet/galaxy42/public/key.pub" = saved :=
    Option.some.inj ((by decide +kernel : some _ = _).trans hwrite.2.1)
  change (sampleDisk.after StoredObject.sampleLib (sampleCall (ascii "d/key"))).host.entry _ = _ at hentry
  rw [Disk.entry_after_of_canWrite hwrite, ← hsaved, if_neg (by decide)] at hentry
  cases hentry

end Galaxy42
