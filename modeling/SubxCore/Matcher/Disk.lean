import SubxCore.Common.Path
import SubxCore.Common.Program
import SubxCore.Matcher.Operations
import Mathlib.Logic.Function.Basic
/-!
# The disk

The files as a map from paths to contents, the saved journal, and the
system calls on them. Any call that changes the disk or opens a file can
fail for reasons of its own; which calls do is part of the disk, so a run
is determined by the disk it starts on. A copy that fails leaves what it
has written so far. Directories and links are not modelled: asking whether
a path exists, or for the size of a file, is exact.
-/

namespace SubxCore

open Text Function

/-! ## The journal -/

/-- `JournalOperationType`. -/
inductive JournalOperationType
  | renamed
  | copied
  | moved
  deriving DecidableEq, Repr

/-- `JournalEntryStatus`. -/
inductive JournalEntryStatus
  | pending
  | completed
  deriving DecidableEq, Repr

/-- One recorded operation. -/
structure JournalEntry where
  operationType : JournalOperationType
  source : Path
  destination : Path
  backupPath : Option Path
  status : JournalEntryStatus
  fileSize : ℕ
  deriving DecidableEq, Repr

/-! ## Files and failures -/

/-- The content of a file. -/
abbrev Bytes := List UInt8

/-- The files. -/
abbrev FileSystem := Path → Option Bytes

/-- Why a system call fails. -/
inductive IoError
  | alreadyExists
  | notFound
  | other (message : Text)
  deriving DecidableEq, Repr

/-- The text of the error. -/
def IoError.display : IoError → Text
  | .alreadyExists => "File exists (os error 17)".toList
  | .notFound => "No such file or directory (os error 2)".toList
  | .other message => message

/-- A failure of a call for reasons of its own; a copy has written some bytes
by then. -/
structure Fault where
  message : Text
  written : ℕ
  deriving DecidableEq, Repr

/-- The disk: files, saved journal, and the failures of the calls to come. -/
structure Disk where
  files : FileSystem
  journal : Option (List JournalEntry)
  faults : ℕ → Option Fault

/-- A disk on which no call fails for reasons of its own. -/
def Disk.sound (files : FileSystem) : Disk := ⟨files, none, fun _ => none⟩

/-- A program on the disk. -/
abbrev Io (α : Type) := Program Disk IoError α

/-- A system call: it fails for reasons of its own, leaving `broken`, or acts
on the files, or fails and leaves them. -/
def systemCall {α : Type} (broken : Fault → FileSystem → FileSystem)
    (act : FileSystem → Except IoError (α × FileSystem)) : Io α :=
  Program.step fun disk =>
    let after := fun files => ⟨files, disk.journal, fun n => disk.faults (n + 1)⟩
    match disk.faults 0, act disk.files with
    | some fault, _ => (.error (.other fault.message), after (broken fault disk.files))
    | none, .ok (a, files) => (.ok a, after files)
    | none, .error err => (.error err, after disk.files)

/-- A call that leaves the files as they are when it fails. -/
def fileCall {α : Type} (act : FileSystem → Except IoError (α × FileSystem)) : Io α :=
  systemCall (fun _ files => files) act

/-- `Path::exists`. -/
def fileExists {ε : Type} (p : Path) : Program Disk ε Bool :=
  Program.step fun disk => (.ok (disk.files p).isSome, disk)

/-- `create_dir_all`. -/
def createDirAll (_p : Path) : Io Unit := fileCall fun files => .ok ((), files)

/-- `atomic_create_file`. -/
def atomicCreateFile (p : Path) : Io Unit :=
  fileCall fun files =>
    match files p with
    | some _ => .error .alreadyExists
    | none => .ok ((), update files p (some []))

/-- `File::create`, which truncates. -/
def createFile (p : Path) : Io Unit := fileCall fun files => .ok ((), update files p (some []))

/-- `File::open`. -/
def openFile (p : Path) : Io Unit :=
  fileCall fun files =>
    match files p with
    | some _ => .ok ((), files)
    | none => .error .notFound

/-- `io::copy`, from one open file to another. -/
def ioCopy (source target : Path) : Io Unit :=
  systemCall
    (fun fault files => update files target (some (((files source).getD []).take fault.written)))
    fun files => .ok ((), update files target (some ((files source).getD [])))

/-- `sync_all`. -/
def syncAll : Io Unit := fileCall fun files => .ok ((), files)

/-- `std::fs::rename`. -/
def renameFile (source target : Path) : Io Unit :=
  fileCall fun files =>
    match files source with
    | some content => .ok ((), update (update files source none) target (some content))
    | none => .error .notFound

/-- `std::fs::remove_file`. -/
def removeFile (p : Path) : Io Unit :=
  fileCall fun files =>
    match files p with
    | some _ => .ok ((), update files p none)
    | none => .error .notFound

/-- `validate_write_target`, of a file in its own directory. The empty path
has no canonical form. -/
def validateWriteTarget (parent : Path) : Io Unit :=
  fileCall fun files => if parent = [] then .error .notFound else .ok ((), files)

/-- A path with a file is not one without. -/
theorem ne_of_free {files : FileSystem} {p q : Path} {content : Bytes}
    (hp : files p = some content) (hq : files q = none) : p ≠ q := by
  rintro rfl
  rw [hq] at hp
  cases hp

/-! ## What the calls do -/

variable {α : Type} {disk disk' : Disk} {p q source target : Path} {content : Bytes} {a : α}
variable {u : Unit} {err : IoError} {act : FileSystem → Except IoError (α × FileSystem)}

/-- A call that goes through has acted. -/
theorem fileCall_eq_ok (h : (fileCall act).exec disk = (.ok a, disk')) :
    act disk.files = .ok (a, disk'.files) := by
  unfold fileCall systemCall at h
  rw [Program.exec_step] at h
  dsimp only at h
  split at h
  · cases h
  · next hact =>
    cases h
    exact hact
  · cases h

/-- A call that fails leaves the files. -/
theorem fileCall_eq_error (h : (fileCall act).exec disk = (.error err, disk')) :
    disk'.files = disk.files := by
  unfold fileCall systemCall at h
  rw [Program.exec_step] at h
  dsimp only at h
  split at h
  · cases h
    rfl
  · cases h
  · cases h
    rfl

theorem createDirAll_files (p : Path) (disk : Disk) :
    ((createDirAll p).exec disk).2.files = disk.files := by
  rcases h : (createDirAll p).exec disk with ⟨err | u, disk'⟩
  · exact fileCall_eq_error h
  · exact (Prod.mk.inj (Except.ok.inj (fileCall_eq_ok h))).2.symm

theorem syncAll_files (disk : Disk) : (syncAll.exec disk).2.files = disk.files := by
  rcases h : syncAll.exec disk with ⟨err | u, disk'⟩
  · exact fileCall_eq_error h
  · exact (Prod.mk.inj (Except.ok.inj (fileCall_eq_ok h))).2.symm

theorem validateWriteTarget_files (p : Path) (disk : Disk) :
    ((validateWriteTarget p).exec disk).2.files = disk.files := by
  rcases h : (validateWriteTarget p).exec disk with ⟨err | u, disk'⟩
  · exact fileCall_eq_error h
  · have hact := fileCall_eq_ok h
    split at hact
    · cases hact
    · exact (Prod.mk.inj (Except.ok.inj hact)).2.symm

theorem atomicCreateFile_eq_ok (h : (atomicCreateFile p).exec disk = (.ok u, disk')) :
    disk.files p = none ∧ disk'.files = update disk.files p (some []) := by
  have hact := fileCall_eq_ok h
  split at hact
  · cases hact
  · next hp => exact ⟨hp, (Prod.mk.inj (Except.ok.inj hact)).2.symm⟩

/-- Only a file in the way makes the error that says so. -/
theorem atomicCreateFile_alreadyExists
    (h : (atomicCreateFile p).exec disk = (.error .alreadyExists, disk')) :
    (disk.files p).isSome := by
  unfold atomicCreateFile fileCall systemCall at h
  rw [Program.exec_step] at h
  dsimp only at h
  split at h
  · cases h
  · cases h
  · next hact =>
    split at hact
    · next hp => exact Option.isSome_of_eq_some hp
    · cases hact

theorem createFile_eq_ok (h : (createFile p).exec disk = (.ok u, disk')) :
    disk'.files = update disk.files p (some []) :=
  (Prod.mk.inj (Except.ok.inj (fileCall_eq_ok h))).2.symm

theorem openFile_files (p : Path) (disk : Disk) : ((openFile p).exec disk).2.files = disk.files := by
  rcases h : (openFile p).exec disk with ⟨err | u, disk'⟩
  · exact fileCall_eq_error h
  · have hact := fileCall_eq_ok h
    split at hact
    · exact (Prod.mk.inj (Except.ok.inj hact)).2.symm
    · cases hact

theorem openFile_eq_ok (h : (openFile p).exec disk = (.ok u, disk')) :
    disk'.files = disk.files ∧ ∃ content, disk.files p = some content := by
  have hact := fileCall_eq_ok h
  split at hact
  · next content hp => exact ⟨(Prod.mk.inj (Except.ok.inj hact)).2.symm, content, hp⟩
  · cases hact

theorem ioCopy_eq_ok (h : (ioCopy source target).exec disk = (.ok u, disk')) :
    disk'.files = update disk.files target (some ((disk.files source).getD [])) := by
  unfold ioCopy systemCall at h
  rw [Program.exec_step] at h
  dsimp only at h
  split at h
  · cases h
  · next hact =>
    cases h
    exact (Prod.mk.inj (Except.ok.inj hact)).2.symm
  · cases h

theorem renameFile_eq_ok (h : (renameFile source target).exec disk = (.ok u, disk')) :
    ∃ content, disk.files source = some content ∧
      disk'.files = update (update disk.files source none) target (some content) := by
  have hact := fileCall_eq_ok h
  split at hact
  · next content hsource =>
    exact ⟨content, hsource, (Prod.mk.inj (Except.ok.inj hact)).2.symm⟩
  · cases hact

theorem removeFile_eq_ok (h : (removeFile p).exec disk = (.ok u, disk')) :
    disk'.files = update disk.files p none := by
  have hact := fileCall_eq_ok h
  split at hact
  · exact (Prod.mk.inj (Except.ok.inj hact)).2.symm
  · cases hact

/-! ## On a healthy disk -/

/-- A disk with a journal, on which no call fails for reasons of its own. -/
def Disk.healthy (files : FileSystem) (journal : Option (List JournalEntry)) : Disk :=
  ⟨files, journal, fun _ => none⟩

variable {files : FileSystem} {journal : Option (List JournalEntry)}

/-- A disk without failures to come is one. -/
theorem Disk.eq_healthy (h : ∀ n, disk.faults n = none) (hjournal : disk.journal = journal) :
    disk = .healthy disk.files journal := by
  obtain ⟨files, journal', faults⟩ := disk
  obtain rfl : faults = fun _ => none := funext h
  obtain rfl : journal' = journal := hjournal
  rfl

/-- **A call on a healthy disk acts**, or fails for a reason that the files give. -/
theorem fileCall_healthy : (fileCall act).exec (.healthy files journal) =
    match act files with
    | .ok (a, files') => (.ok a, .healthy files' journal)
    | .error err => (.error err, .healthy files journal) := by
  unfold fileCall systemCall Disk.healthy
  rw [Program.exec_step]
  dsimp only
  rcases act files with err | ⟨a, files'⟩ <;> rfl

theorem fileExists_healthy {ε : Type} (files : FileSystem) (journal : Option (List JournalEntry))
    (p : Path) : (fileExists p : Program Disk ε Bool).exec (.healthy files journal) =
      (.ok (files p).isSome, .healthy files journal) := rfl

theorem createDirAll_healthy (files : FileSystem) (journal : Option (List JournalEntry)) (p : Path) :
    (createDirAll p).exec (.healthy files journal) = (.ok (), .healthy files journal) :=
  fileCall_healthy

theorem createFile_healthy (files : FileSystem) (journal : Option (List JournalEntry)) (p : Path) :
    (createFile p).exec (.healthy files journal) =
      (.ok (), .healthy (update files p (some [])) journal) := fileCall_healthy

theorem ioCopy_healthy (files : FileSystem) (journal : Option (List JournalEntry))
    (source target : Path) :
    (ioCopy source target).exec (.healthy files journal) =
      (.ok (), .healthy (update files target (some ((files source).getD []))) journal) := rfl

theorem openFile_healthy (h : files p = some content) :
    (openFile p).exec (.healthy files journal) = (.ok (), .healthy files journal) := by
  rw [openFile, fileCall_healthy, h]

theorem atomicCreateFile_healthy (p : Path) :
    (atomicCreateFile p).exec (.healthy files journal) =
      match files p with
      | some _ => (.error .alreadyExists, .healthy files journal)
      | none => (.ok (), .healthy (update files p (some [])) journal) := by
  rw [atomicCreateFile, fileCall_healthy]
  rcases files p with - | content <;> rfl

theorem removeFile_healthy (h : files p = some content) :
    (removeFile p).exec (.healthy files journal) =
      (.ok (), .healthy (update files p none) journal) := by
  rw [removeFile, fileCall_healthy, h]

theorem renameFile_healthy (h : files source = some content) :
    (renameFile source target).exec (.healthy files journal) =
      (.ok (), .healthy (update (update files source none) target (some content)) journal) := by
  rw [renameFile, fileCall_healthy, h]

theorem validateWriteTarget_healthy (parent : Path) :
    (validateWriteTarget parent).exec (.healthy files journal) =
      if parent = [] then (.error .notFound, .healthy files journal)
      else (.ok (), .healthy files journal) := by
  rw [validateWriteTarget, fileCall_healthy]
  by_cases hparent : parent = []
  · rw [if_pos hparent, if_pos hparent]
  · rw [if_neg hparent, if_neg hparent]

end SubxCore
