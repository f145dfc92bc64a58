import SubxCore.Common.Run
import SubxCore.Common.Triple
import SubxCore.Links.LinkedStorage
import SubxCore.Matcher.NumberedPaths
/-!
# File tasks on a volume with links

The tasks that copy, back up, move and rename a subtitle, as in `Task`, on a volume where
a path may lead elsewhere. The files they open are handles: what is opened stays open,
wherever its path leads by then. Of the calls that change nothing it is said so.
-/

namespace SubxCore

/-- Where an operation takes its file from. -/
def ProcessingOperation.source : ProcessingOperation → Path
  | .copyToVideoFolder source _ | .moveToVideoFolder source _ | .copyWithRename source _
  | .createBackup source _ | .renameFile source _ => source

/-- Where it takes it to. -/
def ProcessingOperation.target : ProcessingOperation → Path
  | .copyToVideoFolder _ target | .moveToVideoFolder _ target | .copyWithRename _ target
  | .createBackup _ target | .renameFile _ target => target

namespace Links

open LinkTree Function Program
open Archive (Location steps)

/-! ## The tasks -/

/-- The first of some paths that can be created, with the file. -/
def createFirst : List Path → Call (Path × Opened)
  | [] => throw (.other "Could not resolve filename conflict".toList)
  | p :: ps => do
    match ← Program.attempt (atomicCreateFile p) with
    | .ok file => return (p, file)
    | .error .alreadyExists => createFirst ps
    | .error err => throw err

/-- `resolve_filename_conflict`. -/
def resolveFilenameConflict (target : Path) : Call (Path × Opened) :=
  createFirst (numberedPaths target)

/-- A call on the parent directory, if there is one. -/
def withParent (p : Path) (f : Path → Call Unit) : Call Unit :=
  match p.parent with
  | some parent => f parent
  | none => pure ()

/-- A file streamed into a new one. -/
def streamInto (source target : Path) : Call Unit := do
  let (finalTarget, file) ← resolveFilenameConflict target
  withParent finalTarget (validateWriteTarget finalTarget)
  let src ← openFile source
  ioCopy src file

/-- A file copied to a new one. -/
def copyInto (source target : Path) : Call Unit := do
  withParent target createDirAll
  streamInto source target

/-- A file renamed, if nothing is in the way; whether that went through. -/
def renameIfFree (source target : Path) : Call Bool := do
  if ← look (·.pathExists target) then return false
  else
    match ← Program.attempt (renameFile source target) with
    | .ok () => return true
    -- another file system, or any other reason: the file is copied instead
    | .error _ => return false

/-- A file moved to a new one: renamed, or else copied and removed. -/
def moveInto (source target : Path) : Call Unit := do
  withParent target createDirAll
  if ← renameIfFree source target then return ()
  else
    streamInto source target
    syncAll
    removeFile source

/-- `execute_copy_operation`. -/
def executeCopyOperation (source target : Path) : Call Unit := copyInto source target

/-- `execute_create_backup_operation`. -/
def executeCreateBackupOperation (source backup : Path) : Call Unit := copyInto source backup

/-- `execute_move_operation`. -/
def executeMoveOperation (source target : Path) : Call Unit := moveInto source target

/-- `execute_rename_file_operation`. -/
def executeRenameFileOperation (source target : Path) : Call Unit := moveInto source target

/-- `copy_file_cifs_safe`. -/
def copyFileCifsSafe (source destination : Path) : Call Unit := do
  let src ← openFile source
  -- the one call of the tasks that writes through a link
  let dst ← createFile destination
  ioCopy src dst

/-- `execute_copy_with_rename_operation`. -/
def executeCopyWithRenameOperation (source target : Path) : Call Unit := do
  withParent target createDirAll
  copyFileCifsSafe source target

/-- `FileProcessingTask::execute`; the error is the message of a failed task. -/
def execute : ProcessingOperation → Program Storage Text Unit
  | .copyToVideoFolder source target =>
    (executeCopyOperation source target).mapError fun err => "Copy failed: ".toList ++ err.display
  | .moveToVideoFolder source target =>
    (executeMoveOperation source target).mapError fun err => "Move failed: ".toList ++ err.display
  | .copyWithRename source target =>
    (executeCopyWithRenameOperation source target).mapError fun err =>
      "Copy failed: ".toList ++ err.display
  | .createBackup source backup =>
    (executeCreateBackupOperation source backup).mapError fun err =>
      "Backup failed: ".toList ++ err.display
  | .renameFile source target =>
    (executeRenameFileOperation source target).mapError fun err =>
      "Rename failed: ".toList ++ err.display

/-! ## What calls do -/

/-- A property of the contents, as one of the storage. -/
def On (P : Contents → Prop) (s : Storage) : Prop := P s.contents

variable {α : Type} {P : Contents → Prop} {Q : α → Contents → Prop} {E : IoError → Contents → Prop}
variable {act : Contents → Except IoError (α × Contents)} {c c' : Contents}
variable {faults : ℕ → Option Fault} {a : α} {p : Path} {l : Location}

/-- **A call** fails for reasons of its own, or acts, or fails and changes nothing. -/
theorem triple_call {broken : Fault → Contents → Contents}
    (hbroken : ∀ fault c, P c → E (.other fault.message) (broken fault c))
    (hok : ∀ c a c', P c → act c = .ok (a, c') → Q a c')
    (herror : ∀ c err, P c → act c = .error err → E err c) :
    Triple (On P) (call broken act) (fun a => On (Q a)) fun err => On (E err) := by
  intro s hs
  rw [call, exec_step]
  rcases s.faults 0 with - | fault
  · rcases hact : act s.contents with err | ⟨a, c'⟩
    · exact herror _ err hs hact
    · exact hok _ a c' hs hact
  · exact hbroken fault _ hs

/-- A call that changes nothing when it fails. -/
theorem triple_plainCall (hok : ∀ c a c', P c → act c = .ok (a, c') → Q a c') :
    Triple (On P) (plainCall act) (fun a => On (Q a)) fun _ => On P :=
  triple_call (fun _ _ h => h) hok fun _ _ h _ => h

theorem exec_plainCall_of_ok (hfaults : faults 0 = none) (hact : act c = .ok (a, c')) :
    (plainCall act).exec ⟨c, faults⟩ = (.ok a, ⟨c', fun n => faults (n + 1)⟩) := by
  rw [plainCall, call, exec_step]
  dsimp only
  rw [hfaults, hact]

theorem exec_plainCall_of_error {err : IoError} (hact : act c = .error err) :
    ∃ err', (err' = err ∨ ∃ message, err' = .other message) ∧
      (plainCall act).exec ⟨c, faults⟩ = (.error err', ⟨c, fun n => faults (n + 1)⟩) := by
  rw [plainCall, call, exec_step]
  dsimp only
  rcases faults 0 with - | fault
  · rw [hact]
    exact ⟨err, .inl rfl, rfl⟩
  · exact ⟨.other fault.message, .inr ⟨_, rfl⟩, rfl⟩

/-! ## Calls that change nothing -/

/-- What a path that can be opened for reading leads to. -/
def Contents.Opens (c : Contents) (p : Path) (l : Location) : Prop :=
  c.locate true p = .ok l ∧ c.tree l ≠ none

theorem triple_openFile :
    Triple (On P) (openFile p) (fun l => On fun c => P c ∧ c.Opens p l) fun _ => On P := by
  refine triple_plainCall fun c l c' hc h => ?_
  obtain ⟨l', hl, h⟩ := Run.bind_eq_ok.1 h
  split at h
  · next node hnode =>
    cases h
    exact ⟨hc, hl, by rw [hnode]; exact Option.some_ne_none node⟩
  · cases h

theorem triple_syncAll : Triple (On P) syncAll (fun _ => On P) fun _ => On P := by
  refine triple_plainCall fun c a c' hc h => ?_
  cases h
  exact hc

theorem triple_canonicalize : Triple (On P) (canonicalize p) (fun _ => On P) fun _ => On P := by
  refine triple_plainCall fun c a c' hc h => ?_
  obtain ⟨l, -, h⟩ := Run.bind_eq_ok.1 h
  split at h
  · cases h
    exact hc
  · cases h

theorem triple_isSymlink : Triple (On P) (isSymlink p) (fun _ => On P) fun _ => On P := by
  refine triple_plainCall fun c a c' hc h => ?_
  obtain ⟨l, -, h⟩ := Run.bind_eq_ok.1 h
  split at h
  · cases h
  · cases h
    exact hc
  · cases h
    exact hc

theorem triple_look {β : Type} {f : Contents → β} :
    Triple (On P) (look f) (fun b => On fun c => P c ∧ b = f c) fun _ => On P :=
  fun _ hs => ⟨hs, rfl⟩

/-- **Validating a target** changes nothing. -/
theorem triple_validateWriteTarget {expectedParent : Path} :
    Triple (On P) (validateWriteTarget p expectedParent) (fun _ => On P) fun _ => On P := by
  unfold validateWriteTarget
  split
  · exact .throw fun _ hs => hs
  refine .bind triple_canonicalize fun canonParent =>
    .bind triple_canonicalize fun canonExpected => ?_
  split
  · exact .throw fun _ hs => hs
  refine .bind (Q := fun _ => On P) (.attempt triple_isSymlink) fun r => ?_
  split
  · exact .throw fun _ hs => hs
  · exact .pure fun _ hs => hs
  · exact .pure fun _ hs => hs
  · exact .throw fun _ hs => hs

theorem triple_withParent {f : Path → Call Unit}
    (h : ∀ parent, p.parent = some parent →
      Triple (On P) (f parent) (fun _ => On P) fun _ => On P) :
    Triple (On P) (withParent p f) (fun _ => On P) fun _ => On P := by
  unfold withParent
  split
  · next parent hparent => exact h parent hparent
  · exact .pure fun _ hs => hs

end Links

end SubxCore
