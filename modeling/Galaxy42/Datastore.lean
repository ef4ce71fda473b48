import Galaxy42.Exceptions

/-!
# The data store

Where keys and signatures are kept as files. Each kind has a directory below the home directory of the
user, and an ending. A file is never opened for writing before it was made or found
(`prepare_path_for_write`), and it is not overwritten unless the user allows it.

`save_string` and `save_string_mlocked` open the file that `get_full_path` names, if they can, and no
other. They return exactly when that file can be opened, or when the user does not want it to be
overwritten (`save_spec`).

The two functions differ in how the data are written, and in which exception takes the place of an error, and
have the rest in common: it is one program with what is written as a parameter (`saveOnce`, `save`). The
question to the user is asked by an exception that the second attempt is made in the handler of. The host is
the state: what is at each path, which files were opened, and the lines that the user has typed so far, where
the end of the input is no permission.

What one save may have done is `Touches`: nothing but one file has been opened or changed, and what can be
opened is as before. This is what another save that comes behind it needs to know. No file belongs to two of
the stores (`InStore.unique`), since their directories and endings differ.

Paths are those of a POSIX system, where the octet 0 cannot be a part of one. What can go wrong while
directories are made is one condition for each path here. The texts of exceptions that another exception
takes the place of are left out as far as they name files.
-/

namespace Galaxy42

open Toolkit Program

/-! ### Stores and paths -/

/-- `t_datastore`. The last one is no directory of the program, but where the given path leads. -/
inductive Datastore where
  | galaxyWalletPRV
  | galaxyPub
  | galaxySig
  | galaxyInstalationKeyConf
  | localPath
  deriving DecidableEq

/-- `boost::filesystem::path`, as the string it holds. -/
abbrev Path := Bytes

/-- The separator `'/'` of paths. -/
def slash : UInt8 := 47

/-- `boost::filesystem`, as far as it takes paths apart. -/
structure PathLib where
  /-- `path::filename` -/
  filename : Path → Path
  /-- `path::parent_path` -/
  parentPath : Path → Path

/-- The last element of a path, or its root: separators are at the beginning only. -/
def IsName (base : Path) : Prop :=
  ∃ n rest, base = List.replicate n slash ++ rest ∧ slash ∉ rest

/-- `path::filename` returns the last element of the path, or its root directory. The paths of different
stores are kept apart with it. -/
def PathLib.Lawful (lib : PathLib) : Prop := ∀ path, IsName (lib.filename path)

/-- What is at a path. Whether a file can be read is not here, but in the file system of `Loading`. -/
inductive Entry where
  /-- nothing -/
  | absent
  /-- a regular file, with its content, and whether it can be opened for writing -/
  | regular (content : Bytes) (writable : Bool)
  /-- a directory, or something else that is not a regular file -/
  | other
  deriving DecidableEq

/-- The system that the program runs on. -/
structure Host where
  /-- `datastore::home_dir` -/
  homeDir : Bytes
  /-- The variable `HOME` of the environment. -/
  homeEnv : Option Bytes
  /-- The files. -/
  entry : Path → Entry
  /-- The directory of this path is there, or can be made. -/
  dirAvailable : Path → Bool
  /-- A file can be made at this path. -/
  creatable : Path → Bool
  /-- What the user will answer. -/
  answers : List Bool
  /-- The paths of the files that were opened for writing, last first. -/
  opened : List Path

namespace Datastore

/-- The directory of a store, below the home directory. Public keys and signatures are in one directory. -/
def directory : Datastore → Bytes
  | galaxyWalletPRV => ascii "/.config/antinet/galaxy42/wallet/"
  | galaxyPub => ascii "/.config/antinet/galaxy42/public/"
  | galaxySig => ascii "/.config/antinet/galaxy42/public/"
  | galaxyInstalationKeyConf => ascii "/.config/antinet/galaxy42/config/"
  | localPath => []

/-- The ending of the files of a store. -/
def extension : Datastore → Bytes
  | galaxyWalletPRV => ascii ".PRV"
  | galaxyPub => ascii ".pub"
  | galaxySig => ascii ".sig"
  | galaxyInstalationKeyConf => ascii ".conf"
  | localPath => []

variable (lib : PathLib)

/-- `get_parent_path`. The home directory is that of the program if it is set, and else that of the
environment, which must be there for all stores. -/
def getParentPath (fileType : Datastore) (filename : Bytes) : Program Exn Host Path := do
  let host ← get
  let userHome ←
    if host.homeDir.length = 0 then
      match host.homeEnv with
      | none => raise (.runtimeError "We cannot read HOME env")
      | some home => pure home
    else pure host.homeDir
  match fileType with
  | localPath => return lib.parentPath filename
  | _ => return userHome ++ fileType.directory

/-- `get_full_path`. The name is not changed, and may have directories of its own. -/
def getFullPath (fileType : Datastore) (filename : Bytes) : Program Exn Host Path := do
  let fullPath ← getParentPath lib fileType filename
  return fullPath ++ filename ++ fileType.extension

/-- `create_parent_dir`. That a directory was made changes nothing here, as it was available before. -/
def createParentDir (filePath : Path) : Program Exn Host Unit := do
  let host ← get
  checkThat (host.dirAvailable filePath = true)
    (.invalidArgument "fail to create not existing directory")

/-- `create_path_for` -/
def createPathFor (fileType : Datastore) (filename : Bytes) : Program Exn Host Path := do
  let fullPath ← getFullPath lib fileType filename
  createParentDir fullPath
  return fullPath

/-- `extract_filename` -/
def extractFilename (stringPath : Bytes) : Bytes := lib.filename stringPath

end Datastore

namespace Host

/-- The home directory, if there is one. -/
def home (host : Host) : Option Bytes :=
  if host.homeDir.length = 0 then host.homeEnv else some host.homeDir

/-- The path that `get_full_path` returns. -/
def fullPath (lib : PathLib) (host : Host) (fileType : Datastore) (filename : Bytes) : Option Path :=
  host.home.map fun userHome => (match fileType with
    | .localPath => lib.parentPath filename
    | _ => userHome ++ fileType.directory) ++ filename ++ fileType.extension

/-- The host after a file was opened for writing, which leaves this content. -/
def openedWith (host : Host) (path : Path) (content : Bytes) : Host :=
  { host with entry := Function.update host.entry path (.regular content true),
              opened := path :: host.opened }

/-- The host after data were written to a file that is open. -/
def written (host : Host) (path : Path) (data : Bytes) : Host :=
  { host with entry := Function.update host.entry path (.regular data true) }

end Host

namespace Datastore

/-! ### Saving -/

/-- Opening a file for writing, with its content thrown away or kept: whether it is open. A file that is not
there is made, where the system lets it be made. -/
def openFile (truncate : Bool) (path : Path) : Program Exn Host Bool := do
  let host ← get
  match host.entry path with
  | .absent =>
    if host.creatable path then
      set (host.openedWith path [])
      return true
    else
      return false
  | .regular content true =>
    set (host.openedWith path (if truncate then [] else content))
    return true
  | _ => return false

/-- `is_file_ok`. A path with nothing behind it throws. -/
def isFileOk (path : Path) : Program Exn Host Bool := do
  let host ← get
  match host.entry path with
  | .absent => raise .expectedNotFound
  | .regular _ _ => return true
  | .other => return false

/-- `boost::filesystem::is_empty`, of a regular file. -/
def isEmpty (path : Path) : Program Exn Host Bool := do
  let host ← get
  return match host.entry path with
    | .regular content _ => content.isEmpty
    | _ => false

variable (lib : PathLib)

/-- `prepare_path_for_write`. It opens the file, which makes an empty one where there was none. A file that is
there and not empty throws, unless it may be overwritten. -/
def preparePathForWrite (fileType : Datastore) (inputName : Bytes) (overwrite : Bool) :
    Program Exn Host Path := do
  let filename := extractFilename lib inputName
  let fileWithPath ← createPathFor lib fileType filename
  let _ ← openFile false fileWithPath
  checkThat ((← isFileOk fileWithPath) = true)
    (.invalidArgument "prepare_path_for_write: fail to create empty file")
  if (← isFileOk fileWithPath) ∧ ¬ (← isEmpty fileWithPath) ∧ ¬ overwrite then
    raise .overwriteError
  return fileWithPath

/-- `ask_user_forpermission`. The end of the input is no permission. Each question takes the next answer. -/
def askUserForpermission : Program Exn Host Bool := do
  let host ← get
  match host.answers with
  | [] => return false
  | answer :: answers =>
    set { host with answers }
    return answer

/-- One attempt to save: what to write, what to do when the file must not be overwritten, and the
exception that takes the place of all others. -/
def saveOnce (write : Path → Program Exn Host Unit) (failed : Exn) (refused : Program Exn Host Unit)
    (fileType : Datastore) (filename : Bytes) (overwrite : Bool) : Program Exn Host Unit := do
  checkThat (filename ≠ []) (.invalidArgument "Fail to open file for write: empty filename")
  catching (do
    let fileWithPath ← preparePathForWrite lib fileType filename overwrite
    write fileWithPath) fun e => some (if e = .overwriteError then refused else raise failed)

/-- Saving, with a second attempt when the user wants the file to be overwritten. That one is never
refused. -/
def save (write : Path → Program Exn Host Unit) (failed : Exn) (fileType : Datastore)
    (filename : Bytes) (overwrite : Bool) : Program Exn Host Unit :=
  saveOnce lib write failed (do
    if ← askUserForpermission then
      saveOnce lib write failed (pure ()) fileType filename true) fileType filename overwrite

/-- What `save_string` does with the path. -/
def writeString (data : Bytes) (fileWithPath : Path) : Program Exn Host Unit := do
  let isOpen ← openFile true fileWithPath
  checkThat (isOpen = true) (.invalidArgument "Fail to open file for write: ")
  modify fun host => host.written fileWithPath data

/-- What `save_string_mlocked` does with the path. The file is made empty first, and a file that cannot
be opened after that is not noticed: it is written to a null pointer. -/
def writeStringMlocked (lockedData : Bytes) (fileWithPath : Path) : Program Exn Host Unit := do
  let _ ← openFile true fileWithPath
  let fPtr ← openFile true fileWithPath
  assertThat (fPtr = true)
  modify fun host => host.written fileWithPath lockedData

/-- `save_string` -/
def saveString (fileType : Datastore) (filename data : Bytes) (overwrite : Bool) :
    Program Exn Host Unit :=
  save lib (writeString data) (.runtimeError "Failed to save string") fileType filename overwrite

/-- `save_string_mlocked` -/
def saveStringMlocked (fileType : Datastore) (filename lockedData : Bytes) (overwrite : Bool) :
    Program Exn Host Unit :=
  save lib (writeStringMlocked lockedData) (.runtimeError "Failed to save mlocked string") fileType
    filename overwrite

/-! ### What saving does -/

variable {lib}

/-- `get_full_path` returns the path, unless there is no home directory. -/
theorem getFullPath_eq (lib : PathLib) (fileType : Datastore) (filename : Bytes) (host : Host) :
    getFullPath lib fileType filename host = match host.fullPath lib fileType filename with
      | some path => .ok path host
      | none => .error (.throw (.runtimeError "We cannot read HOME env")) host := by
  unfold getFullPath getParentPath Host.fullPath Host.home
  by_cases hdir : host.homeDir = []
  · cases henv : host.homeEnv with
    | none => simp [bind_apply, hdir, henv]
    | some home => cases fileType <;> simp [bind_apply, hdir, henv]
  · cases fileType <;> simp [bind_apply, hdir]

variable {fileType : Datastore} {filename : Bytes} {host : Host} {path : Path} {overwrite : Bool}

variable (overwrite) in
/-- `prepare_path_for_write`, where the path is known. -/
theorem preparePathForWrite_eq (h : host.fullPath lib fileType (lib.filename filename) = some path) :
    preparePathForWrite lib fileType filename overwrite host =
      if host.dirAvailable path then
        match host.entry path with
        | .absent => if host.creatable path then .ok path (host.openedWith path [])
            else .error (.throw .expectedNotFound) host
        | .other => .error (.throw
            (.invalidArgument "prepare_path_for_write: fail to create empty file")) host
        | .regular content writable =>
          let host' := if writable then host.openedWith path content else host
          if content ≠ [] ∧ overwrite = false then .error (.throw .overwriteError) host'
          else .ok path host'
      else .error (.throw (.invalidArgument "fail to create not existing directory")) host := by
  have hpath := getFullPath_eq lib fileType (lib.filename filename) host
  rw [h] at hpath
  unfold preparePathForWrite createPathFor extractFilename createParentDir
  by_cases hdir : host.dirAvailable path = true
  · cases hentry : host.entry path with
    | absent =>
      by_cases hcreate : host.creatable path = true
      · simp [bind_apply, map_apply, hpath, hdir, hentry, hcreate, openFile, isFileOk, isEmpty, checkThat_apply,
          Host.openedWith]
      · simp [bind_apply, map_apply, hpath, hdir, hentry, hcreate, openFile, isFileOk, checkThat_apply]
    | other => simp [bind_apply, map_apply, hpath, hdir, hentry, openFile, isFileOk, checkThat_apply]
    | regular content writable =>
      cases writable <;> cases content <;> cases overwrite <;>
        simp [bind_apply, map_apply, hpath, hdir, hentry, openFile, isFileOk, isEmpty, checkThat_apply,
          Host.openedWith]
  · simp [bind_apply, map_apply, hpath, hdir, checkThat_apply]

end Datastore

/-! ### What a save leaves -/

namespace Host

/-- The file can be opened for writing. -/
def Openable (host : Host) (path : Path) : Prop :=
  host.dirAvailable path = true ∧ match host.entry path with
    | .absent => host.creatable path = true
    | .regular _ writable => writable = true
    | .other => False

/-- There is something in the file, and the user does not want it to be overwritten. -/
def Refused (host : Host) (path : Path) (overwrite : Bool) : Prop :=
  host.dirAvailable path = true ∧ overwrite = false ∧ host.answers.head? ≠ some true ∧
    ∃ content writable, host.entry path = .regular content writable ∧ content ≠ []

/-- Saving under this name opens a file. The host decides whether the path can be opened, by what is there. -/
def CanOpen (lib : PathLib) (host : Host) (fileType : Datastore) (filename : Bytes) : Prop :=
  filename ≠ [] ∧ ∃ path, host.fullPath lib fileType (lib.filename filename) = some path ∧
    host.Openable path

/-- Saving under this name returns. The user may have answered that a file that is there should not be
overwritten. -/
def CanSave (lib : PathLib) (host : Host) (fileType : Datastore) (filename : Bytes)
    (overwrite : Bool) : Prop :=
  filename ≠ [] ∧ ∃ path, host.fullPath lib fileType (lib.filename filename) = some path ∧
    (host.Openable path ∨ host.Refused path overwrite)

/-- Nothing but one file has been opened, or changed, on the way from one host to another. It composes, so
that it can be shown of a program step by step. -/
structure Touches (path : Path) (host host' : Host) : Prop where
  homeDir : host'.homeDir = host.homeDir
  homeEnv : host'.homeEnv = host.homeEnv
  dirAvailable : host'.dirAvailable = host.dirAvailable
  creatable : host'.creatable = host.creatable
  entry : ∀ other, other ≠ path → host'.entry other = host.entry other
  opened : ∃ n, host'.opened = List.replicate n path ++ host.opened

namespace Touches

variable {path : Path} {host host₁ host₂ : Host}

private theorem refl (path : Path) (host : Host) : Touches path host host :=
  ⟨rfl, rfl, rfl, rfl, fun _ _ => rfl, 0, rfl⟩

private theorem trans (h : Touches path host host₁) (h' : Touches path host₁ host₂) :
    Touches path host host₂ := by
  obtain ⟨n, hn⟩ := h.opened
  obtain ⟨k, hk⟩ := h'.opened
  refine ⟨h'.homeDir.trans h.homeDir, h'.homeEnv.trans h.homeEnv,
    h'.dirAvailable.trans h.dirAvailable, h'.creatable.trans h.creatable,
    fun other hne => (h'.entry other hne).trans (h.entry other hne), k + n, ?_⟩
  rw [hk, hn, ← List.append_assoc, List.replicate_append_replicate]

private theorem openedWith (path : Path) (host : Host) (content : Bytes) :
    Touches path host (host.openedWith path content) :=
  ⟨rfl, rfl, rfl, rfl, fun _ hne => Function.update_of_ne hne _ _, 1, rfl⟩

private theorem written (path : Path) (host : Host) (data : Bytes) :
    Touches path host (host.written path data) :=
  ⟨rfl, rfl, rfl, rfl, fun _ hne => Function.update_of_ne hne _ _, 0, rfl⟩

theorem fullPath_eq (h : Touches path host host₁) (lib : PathLib) (fileType : Datastore)
    (filename : Bytes) : host₁.fullPath lib fileType filename = host.fullPath lib fileType filename := by
  rw [fullPath, fullPath, home, home, h.homeDir, h.homeEnv]

/-- Another file can be opened as before. -/
theorem openable_iff (h : Touches path host host₁) {other : Path} (hne : other ≠ path) :
    host₁.Openable other ↔ host.Openable other := by
  rw [Openable, Openable, h.dirAvailable, h.creatable, h.entry other hne]

end Touches

/-- The data are in the file, which was opened for that. -/
structure Saved (path : Path) (data : Bytes) (host host' : Host) : Prop
    extends Touches path host host' where
  content : host'.entry path = .regular data true
  mem_opened : ∃ n, host'.opened = List.replicate (n + 1) path ++ host.opened

/-- What was done before the data were saved is a part of saving them. -/
theorem Touches.saved {path : Path} {data : Bytes} {host host₁ host₂ : Host}
    (h : Touches path host host₁) (h' : host₁.Saved path data host₂) : host.Saved path data host₂ := by
  obtain ⟨n, hn⟩ := h.opened
  obtain ⟨k, hk⟩ := h'.mem_opened
  refine ⟨h.trans h'.toTouches, h'.content, k + n, ?_⟩
  rw [hk, hn, ← List.append_assoc, List.replicate_append_replicate, Nat.add_right_comm]

end Host

namespace Datastore

variable {lib : PathLib} {fileType : Datastore} {filename data : Bytes} {host : Host} {path : Path}
  {overwrite : Bool}

/-- Writes the data to a file that can be opened, and fails when there is one that cannot. -/
structure Writes (write : Path → Program Exn Host Unit) (data : Bytes) : Prop where
  saved : ∀ (host : Host) (path : Path) (content : Bytes), host.entry path = .regular content true →
    ∃ host', write path host = .ok () host' ∧ host.Saved path data host'
  fails : ∀ (host : Host) (path : Path) (content : Bytes), host.entry path = .regular content false →
    ∃ e, e ≠ .throw .overwriteError ∧ write path host = .error e host

theorem writes_writeString (data : Bytes) : Writes (writeString data) data := by
  constructor
  · intro host path content hentry
    refine ⟨(host.openedWith path []).written path data, ?_, ?_, ?_, 0, rfl⟩
    · simp [writeString, openFile, bind_apply, map_apply, hentry, checkThat_apply]
    · exact (Host.Touches.openedWith path host []).trans (Host.Touches.written path _ data)
    · exact Function.update_self _ _ _
  · intro host path content hentry
    refine ⟨.throw (.invalidArgument "Fail to open file for write: "), by decide, ?_⟩
    simp [writeString, openFile, bind_apply, hentry, checkThat_apply]

theorem writes_writeStringMlocked (data : Bytes) : Writes (writeStringMlocked data) data := by
  constructor
  · intro host path content hentry
    let host₁ := (host.openedWith path []).openedWith path []
    refine ⟨host₁.written path data, ?_, ?_, ?_, 1, rfl⟩
    · simp [host₁, writeStringMlocked, openFile, bind_apply, map_apply, hentry, assertThat_apply,
        Host.openedWith]
    · exact ((Host.Touches.openedWith path host []).trans (Host.Touches.openedWith path _ [])).trans
        (Host.Touches.written path _ data)
    · exact Function.update_self _ _ _
  · intro host path content hentry
    refine ⟨.abort, by decide, ?_⟩
    simp [writeStringMlocked, openFile, bind_apply, hentry, assertThat_apply]

section Attempts

variable {write : Path → Program Exn Host Unit} {failed : Exn} {refused : Program Exn Host Unit}

/-- An attempt with a path succeeds as the writing of the data does. -/
private theorem saveOnce_of_prepare {host₁ : Host} (hname : filename ≠ [])
    (hprepare : preparePathForWrite lib fileType filename overwrite host = .ok path host₁)
    {host₂ : Host} (hwrite : write path host₁ = .ok () host₂) :
    saveOnce lib write failed refused fileType filename overwrite host = .ok () host₂ := by
  rw [saveOnce, bind_of_ok (a := ()) (checkThat_eq_ok_iff.mpr ⟨hname, rfl⟩)]
  exact catching_eq_ok_iff.mpr (.inl ((bind_of_ok hprepare).trans hwrite))

/-- A file that can be opened, and has nothing in it or may be overwritten, gets the data. -/
private theorem saveOnce_of_openable (hwrite : Writes write data) (hname : filename ≠ [])
    (hpath : host.fullPath lib fileType (lib.filename filename) = some path)
    (hopen : host.Openable path)
    (hkeep : ∀ content writable, host.entry path = .regular content writable →
      ¬ (content ≠ [] ∧ overwrite = false)) :
    ∃ host', saveOnce lib write failed refused fileType filename overwrite host = .ok () host' ∧
      host.Saved path data host' := by
  have hprepare := preparePathForWrite_eq overwrite hpath
  obtain ⟨hdir, hentry⟩ := hopen
  rw [if_pos hdir] at hprepare
  -- in both cases the file has been opened before it is written
  have hrest : ∀ content, preparePathForWrite lib fileType filename overwrite host =
      .ok path (host.openedWith path content) → ∃ host',
      saveOnce lib write failed refused fileType filename overwrite host = .ok () host' ∧
        host.Saved path data host' := by
    intro content hprepare
    obtain ⟨host', hrun, hsaved⟩ := hwrite.saved (host.openedWith path content) path content
      (Function.update_self _ _ _)
    exact ⟨host', saveOnce_of_prepare hname hprepare hrun,
      (Host.Touches.openedWith path host content).saved hsaved⟩
  cases hat : host.entry path with
  | absent =>
    rw [hat] at hentry hprepare
    dsimp only at hprepare
    rw [if_pos hentry] at hprepare
    exact hrest [] hprepare
  | regular content writable =>
    rw [hat] at hentry hprepare
    obtain rfl : writable = true := hentry
    dsimp only at hprepare
    rw [if_neg (hkeep content true hat), if_pos rfl] at hprepare
    exact hrest content hprepare
  | other =>
    rw [hat] at hentry
    exact absurd hentry id

/-- A file with something in it is not overwritten before the user is asked. -/
private theorem saveOnce_of_overwrite {content : Bytes} {writable : Bool} (hname : filename ≠ [])
    (hpath : host.fullPath lib fileType (lib.filename filename) = some path)
    (hdir : host.dirAvailable path = true) (hat : host.entry path = .regular content writable)
    (hcontent : content ≠ []) :
    saveOnce lib write failed refused fileType filename false host =
      refused (if writable then host.openedWith path content else host) := by
  have hprepare := preparePathForWrite_eq false hpath
  rw [if_pos hdir, hat] at hprepare
  dsimp only at hprepare
  rw [if_pos ⟨hcontent, rfl⟩] at hprepare
  rw [saveOnce, bind_of_ok (a := ()) (checkThat_eq_ok_iff.mpr ⟨hname, rfl⟩), catching,
    bind_of_error hprepare]
  rfl

/-- An attempt fails as what is done with the path fails. -/
private theorem saveOnce_of_error {e : Fault Exn} (hname : filename ≠ [])
    (hbody : (preparePathForWrite lib fileType filename overwrite >>= write) host = .error e host)
    (he : e ≠ .throw .overwriteError) :
    ∃ e', saveOnce lib write failed refused fileType filename overwrite host = .error e' host := by
  rw [saveOnce, bind_of_ok (a := ()) (checkThat_eq_ok_iff.mpr ⟨hname, rfl⟩), catching]
  simp only [hbody]
  cases e with
  | throw e =>
    have hne : e ≠ .overwriteError := fun heq => he (congrArg Fault.throw heq)
    exact ⟨.throw failed, by simp [hne]⟩
  | abort => exact ⟨.abort, rfl⟩

/-- A file that cannot be opened is left alone, and the attempt fails. -/
private theorem saveOnce_of_not_openable (hwrite : Writes write data) (hname : filename ≠ [])
    (hpath : host.fullPath lib fileType (lib.filename filename) = some path)
    (hopen : ¬ host.Openable path)
    (hkeep : host.dirAvailable path = true → ∀ content writable,
      host.entry path = .regular content writable → ¬ (content ≠ [] ∧ overwrite = false)) :
    ∃ e, saveOnce lib write failed refused fileType filename overwrite host = .error e host := by
  have hprepare := preparePathForWrite_eq overwrite hpath
  by_cases hdir : host.dirAvailable path = true
  · rw [if_pos hdir] at hprepare
    have hentry := not_and.mp hopen hdir
    cases hat : host.entry path with
    | absent =>
      rw [hat] at hentry hprepare
      dsimp only at hprepare
      rw [if_neg hentry] at hprepare
      exact saveOnce_of_error hname (bind_of_error hprepare) (by decide)
    | regular content writable =>
      rw [hat] at hentry hprepare
      obtain rfl : writable = false := Bool.eq_false_iff.mpr hentry
      dsimp only at hprepare
      rw [if_neg (hkeep hdir content false hat), if_neg Bool.false_ne_true] at hprepare
      obtain ⟨e, he, hrun⟩ := hwrite.fails host path content hat
      exact saveOnce_of_error hname ((bind_of_ok hprepare).trans hrun) he
    | other =>
      rw [hat] at hprepare
      exact saveOnce_of_error hname (bind_of_error hprepare) (by decide)
  · rw [if_neg hdir] at hprepare
    exact saveOnce_of_error hname (bind_of_error hprepare) (by decide)

/-! ### Saving, with the question to the user -/

/-- The user is asked, and the file is opened as before. -/
private theorem askUserForpermission_eq (host : Host) : ∃ answers, askUserForpermission host =
    .ok (decide (host.answers.head? = some true)) { host with answers } := by
  unfold askUserForpermission
  cases hanswers : host.answers with
  | nil =>
    cases host
    cases hanswers
    exact ⟨[], rfl⟩
  | cons answer answers => exact ⟨answers, by cases answer <;> simp [bind_apply, map_apply, hanswers]⟩

/-- Without an answer from the user, or with one, the host is the same for saving. -/
private theorem touches_answers (path : Path) (host : Host) (answers : List Bool) :
    Host.Touches path host { host with answers } :=
  ⟨rfl, rfl, rfl, rfl, fun _ _ => rfl, 0, rfl⟩

variable (write failed) in
/-- With something in the file, the user decides. -/
private theorem save_of_overwrite {content : Bytes} {writable : Bool} (hname : filename ≠ [])
    (hpath : host.fullPath lib fileType (lib.filename filename) = some path)
    (hdir : host.dirAvailable path = true) (hat : host.entry path = .regular content writable)
    (hcontent : content ≠ []) :
    ∃ answers, save lib write failed fileType filename false host =
      if host.answers.head? = some true then
        saveOnce lib write failed (pure ()) fileType filename true
          { (if writable then host.openedWith path content else host) with answers }
      else .ok () { (if writable then host.openedWith path content else host) with answers } := by
  obtain ⟨answers, hask⟩ := askUserForpermission_eq
    (if writable then host.openedWith path content else host)
  have hanswers : (if writable then host.openedWith path content else host).answers = host.answers := by
    split <;> rfl
  refine ⟨answers, ?_⟩
  rw [save, saveOnce_of_overwrite hname hpath hdir hat hcontent, bind_of_ok hask, hanswers]
  by_cases hanswer : host.answers.head? = some true <;> simp [hanswer]

/-- Without something in the file, or with the leave to overwrite it, the first attempt decides. -/
private theorem not_keep_of_not_refused {host : Host} {path : Path} {overwrite : Bool}
    (hdir : host.dirAvailable path = true) (hrefused : ¬ host.Refused path overwrite) :
    host.answers.head? = some true ∨ ∀ content writable, host.entry path = .regular content writable →
      ¬ (content ≠ [] ∧ overwrite = false) := by
  by_contra hnot
  simp only [not_or, not_forall, not_not] at hnot
  obtain ⟨hanswer, content, writable, hat, hcontent, hoverwrite⟩ := hnot
  exact hrefused ⟨hdir, hoverwrite, hanswer, content, writable, hat, hcontent⟩

variable (failed) in
/-- A file that can be opened gets the data, unless the user refuses. -/
theorem save_of_openable (hwrite : Writes write data) (hname : filename ≠ [])
    (hpath : host.fullPath lib fileType (lib.filename filename) = some path)
    (hopen : host.Openable path) (hrefused : ¬ host.Refused path overwrite) :
    ∃ host', save lib write failed fileType filename overwrite host = .ok () host' ∧
      host.Saved path data host' := by
  by_cases hkeep : ∀ content writable, host.entry path = .regular content writable →
      ¬ (content ≠ [] ∧ overwrite = false)
  · exact saveOnce_of_openable hwrite hname hpath hopen hkeep
  have hanswer := (not_keep_of_not_refused hopen.1 hrefused).resolve_right hkeep
  simp only [not_forall, not_not] at hkeep
  obtain ⟨content, writable, hat, hcontent, rfl⟩ := hkeep
  obtain rfl : writable = true := by
    have hentry := hopen.2
    rwa [hat] at hentry
  obtain ⟨answers, hsave⟩ := save_of_overwrite write failed hname hpath hopen.1 hat hcontent
  rw [if_pos rfl, if_pos hanswer] at hsave
  -- the second attempt, on the file that is open
  let host₁ : Host := { host.openedWith path content with answers }
  have htouch : Host.Touches path host host₁ :=
    (Host.Touches.openedWith path host content).trans (touches_answers path _ answers)
  have hat₁ : host₁.entry path = .regular content true := Function.update_self _ _ _
  obtain ⟨host', hrun, hsaved⟩ : ∃ host', saveOnce lib write failed (pure ()) fileType filename true
      host₁ = .ok () host' ∧ host₁.Saved path data host' :=
    saveOnce_of_openable hwrite hname ((htouch.fullPath_eq lib fileType _).trans hpath)
      ⟨hopen.1, by rw [hat₁]⟩ (by simp)
  exact ⟨host', hsave.trans hrun, htouch.saved hsaved⟩

variable (write failed) in
/-- A file that the user wants to keep stays as it is. It is opened all the same, if it can be. -/
theorem save_of_refused (hname : filename ≠ [])
    (hpath : host.fullPath lib fileType (lib.filename filename) = some path)
    (hrefused : host.Refused path overwrite) :
    ∃ host', save lib write failed fileType filename overwrite host = .ok () host' ∧
      Host.Touches path host host' ∧ host'.entry path = host.entry path ∧
      (host'.opened = host.opened ↔ ¬ host.Openable path) := by
  obtain ⟨hdir, rfl, hanswer, content, writable, hat, hcontent⟩ := hrefused
  obtain ⟨answers, hsave⟩ := save_of_overwrite write failed hname hpath hdir hat hcontent
  rw [if_neg hanswer] at hsave
  refine ⟨_, hsave, ?_⟩
  rw [Host.Openable, hat]
  cases writable with
  | false =>
    exact ⟨touches_answers path host answers, hat, iff_of_true rfl fun h => by simpa using h.2⟩
  | true =>
    refine ⟨(Host.Touches.openedWith path host content).trans (touches_answers path _ answers),
      Function.update_self _ _ _, iff_of_false ?_ fun h => h ⟨hdir, rfl⟩⟩
    exact List.cons_ne_self _ _

variable (failed) in
/-- When the file cannot be opened, and the user is not the reason, saving fails and opens nothing. -/
private theorem save_of_not_openable (hwrite : Writes write data) (hname : filename ≠ [])
    (hpath : host.fullPath lib fileType (lib.filename filename) = some path)
    (hopen : ¬ host.Openable path) (hrefused : ¬ host.Refused path overwrite) :
    ∃ e host', save lib write failed fileType filename overwrite host = .error e host' ∧
      Host.Touches path host host' ∧ host'.entry = host.entry ∧ host'.opened = host.opened := by
  by_cases hkeep : host.dirAvailable path = true → ∀ content writable,
      host.entry path = .regular content writable → ¬ (content ≠ [] ∧ overwrite = false)
  · obtain ⟨e, hrun⟩ := saveOnce_of_not_openable hwrite hname hpath hopen hkeep
    exact ⟨e, host, hrun, .refl path host, rfl, rfl⟩
  rw [Classical.not_imp] at hkeep
  obtain ⟨hdir, hkeep⟩ := hkeep
  have hanswer := (not_keep_of_not_refused hdir hrefused).resolve_right hkeep
  simp only [not_forall, not_not] at hkeep
  obtain ⟨content, writable, hat, hcontent, rfl⟩ := hkeep
  have hentry := not_and.mp hopen hdir
  rw [hat] at hentry
  obtain rfl : writable = false := Bool.eq_false_iff.mpr hentry
  obtain ⟨answers, hsave⟩ := save_of_overwrite write failed hname hpath hdir hat hcontent
  rw [if_neg Bool.false_ne_true, if_pos hanswer] at hsave
  let host₁ : Host := { host with answers }
  obtain ⟨e, hrun⟩ : ∃ e, saveOnce lib write failed (pure ()) fileType filename true host₁ =
      .error e host₁ := saveOnce_of_not_openable hwrite hname hpath hopen (by simp)
  exact ⟨e, host₁, hsave.trans hrun, touches_answers path host answers, rfl, rfl⟩

/-- Without a name, or without a home directory, nothing happens. -/
theorem save_of_no_path
    (h : filename ≠ [] → host.fullPath lib fileType (lib.filename filename) = none) :
    ∃ e, save lib write failed fileType filename overwrite host = .error e host := by
  by_cases hname : filename = []
  · have hcheck : (checkThat (filename ≠ [])
        (.invalidArgument "Fail to open file for write: empty filename") : Program Exn Host Unit) host =
        .error (.throw (.invalidArgument "Fail to open file for write: empty filename")) host := by
      rw [checkThat_apply, if_neg (not_not.mpr hname)]
    exact ⟨_, bind_of_error hcheck⟩
  · have hpath := getFullPath_eq lib fileType (lib.filename filename) host
    rw [h hname] at hpath
    have hprepare : (preparePathForWrite lib fileType filename overwrite >>= write) host =
        .error (.throw (.runtimeError "We cannot read HOME env")) host :=
      bind_of_error (bind_of_error (bind_of_error hpath))
    exact saveOnce_of_error hname hprepare (by decide)

variable (failed overwrite) in
/-- What saving does, when there is a path: it opens that file if it can, and no other; it returns when
the file can be opened, or the user refuses; and when it returns, the data are there, or the user has
refused. -/
theorem save_spec (hwrite : Writes write data) (hname : filename ≠ [])
    (hpath : host.fullPath lib fileType (lib.filename filename) = some path) :
    ∃ host', finalState (save lib write failed fileType filename overwrite) host = host' ∧
      Host.Touches path host host' ∧ (host'.opened = host.opened ↔ ¬ host.Openable path) ∧
      (¬ host.Openable path → host'.entry = host.entry) ∧
      (save lib write failed fileType filename overwrite host = .ok () host' ↔
        host.Openable path ∨ host.Refused path overwrite) ∧
      (host.Openable path ∨ host.Refused path overwrite →
        host'.entry path = .regular data true ∨
          host.Refused path overwrite ∧ host'.entry path = host.entry path) := by
  by_cases hrefused : host.Refused path overwrite
  · obtain ⟨host', hrun, htouch, hentry, hopened⟩ := save_of_refused write failed hname hpath hrefused
    refine ⟨host', finalState_of_ok hrun, htouch, hopened, fun _ => funext fun other => ?_,
      iff_of_true hrun (.inr hrefused), fun _ => .inr ⟨hrefused, hentry⟩⟩
    by_cases hother : other = path
    · rw [hother, hentry]
    · exact htouch.entry other hother
  by_cases hopen : host.Openable path
  · obtain ⟨host', hrun, hsaved⟩ := save_of_openable failed hwrite hname hpath hopen hrefused
    obtain ⟨n, hn⟩ := hsaved.mem_opened
    refine ⟨host', finalState_of_ok hrun, hsaved.toTouches, iff_of_false ?_ (not_not.mpr hopen),
      fun hnot => absurd hopen hnot, iff_of_true hrun (.inl hopen), fun _ => .inl hsaved.content⟩
    -- A file that was opened has made the log longer.
    intro hsame
    rw [hsame] at hn
    exact absurd (List.self_eq_append_left.mp hn) (by simp)
  · obtain ⟨e, host', hrun, htouch, hentry, hopened⟩ :=
      save_of_not_openable failed hwrite hname hpath hopen hrefused
    have hnot : ¬ (host.Openable path ∨ host.Refused path overwrite) := not_or.mpr ⟨hopen, hrefused⟩
    refine ⟨host', finalState_of_error hrun, htouch, iff_of_true hopened hopen, fun _ => hentry,
      iff_of_false ?_ hnot, fun h => absurd h hnot⟩
    rw [hrun]
    simp

end Attempts

end Datastore

/-! ### Stores -/

namespace Datastore

/-- The three stores of keys and signatures. -/
def OfKeys : Datastore → Prop
  | galaxyWalletPRV => True
  | galaxyPub => True
  | galaxySig => True
  | _ => False

end Datastore

namespace Host

variable {lib : PathLib} {host : Host} {store store' : Datastore} {path : Path}

/-- The path is that of a file in the directory of the store, with its ending. -/
def InStore (host : Host) (store : Datastore) (path : Path) : Prop :=
  ∃ userHome base, host.home = some userHome ∧ IsName base ∧
    path = userHome ++ store.directory ++ base ++ store.extension

/-- The file that is saved is in the store. -/
theorem inStore_of_fullPath (hlib : lib.Lawful) (hstore : store.OfKeys) {filename : Bytes}
    (h : host.fullPath lib store (lib.filename filename) = some path) : host.InStore store path := by
  obtain ⟨userHome, hhome, rfl⟩ := Option.map_eq_some_iff.mp h
  refine ⟨userHome, lib.filename filename, hhome, hlib filename, ?_⟩
  cases store with
  | localPath => exact absurd hstore id
  | _ => rfl

/-- No file is in two of the stores. Their directories have names of one length, which differ. -/
theorem InStore.unique (h : host.InStore store path) (h' : host.InStore store' path)
    (hstore : store.OfKeys) (hstore' : store'.OfKeys) : store = store' := by
  obtain ⟨userHome, base, hhome, -, rfl⟩ := h
  obtain ⟨userHome', base', hhome', -, heq⟩ := h'
  obtain rfl : userHome = userHome' := Option.some.inj (hhome.symm.trans hhome')
  have hlength : ∀ store : Datastore, store.OfKeys →
      store.directory.length = 33 ∧ store.extension.length = 4 := by
    intro store hstore
    cases store <;> first | exact absurd hstore id | decide
  obtain ⟨hrest, hext⟩ := List.append_inj' heq
    ((hlength store hstore).2.trans (hlength store' hstore').2.symm)
  obtain ⟨hdir, -⟩ := List.append_inj
    (List.append_cancel_left ((List.append_assoc ..).symm.trans (hrest.trans (List.append_assoc ..))))
    ((hlength store hstore).1.trans (hlength store' hstore').1.symm)
  cases store <;> cases store' <;>
    first | rfl | exact absurd hstore id | exact absurd hstore' id | exact absurd hdir (by decide) |
      exact absurd hext (by decide)

end Host

end Galaxy42
