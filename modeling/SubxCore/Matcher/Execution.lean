import SubxCore.Matcher.Task
/-!
# Carrying out operations

The part of the match engine that executes a batch of operations. Each
operation plans a task, which may make a backup first, executes it, and is
entered in the journal; the journal is saved after every operation. The
plain batch ends at the first failure, the audited one goes on. An
operation is recorded with the disk before it, when its own task starts,
and after it, which is what the entries of the journal are about.
-/

namespace SubxCore

open Text

/-- Why the engine stops: it returns an error, or does not return. -/
inductive Stop
  | failed (error : SubXError)
  | panicked (panic : Panic)
  deriving DecidableEq, Repr

/-- The part of `MatchConfig` that execution looks at. -/
structure MatchConfig where
  backupEnabled : Bool
  relocationMode : FileRelocationMode
  conflictResolution : ConflictResolution
  deriving DecidableEq, Repr

/-- A program of the engine. -/
abbrev Engine (α : Type) := Program Disk Stop α

/-- `unwrap` of a result. -/
def unwrap {α : Type} (x : Engine α) : Engine α :=
  x.mapError fun
    | .failed error => .panicked (.unwrapErr error)
    | .panicked panic => .panicked panic

/-! ## Planning a task -/

/-- The first of some paths that can be created; the file is removed again,
if that goes through. -/
def probeFirst : List Path → Program Disk SubXError Path
  | [] => throw (.fileOperationFailed "Could not resolve filename conflict".toList)
  | p :: ps => do
    match ← Program.attempt (atomicCreateFile p) with
    | .ok () =>
      let _ ← Program.attempt (removeFile p)
      return p
    | .error .alreadyExists => probeFirst ps
    | .error err => throw (.io err.display)

/-- `resolve_filename_conflict`, of the engine. The prompt calls the function
again on the same target. -/
def resolveTargetConflict (policy : ConflictResolution) (target : Path) : Engine Path := do
  if ← fileExists target then
    match policy with
    | .skip => return target
    | .autoRename => (probeFirst (numberedPaths target)).mapError Stop.failed
    | .prompt => throw (.panicked .stackOverflow)
  else return target

/-- `create_copy_task`. -/
def createCopyTask (config : MatchConfig) (op : MatchOperation) : Engine ProcessingOperation :=
  match op.relocationTargetPath with
  | none => throw (.panicked .unwrapNone)
  | some base => do
    let target ← unwrap (resolveTargetConflict config.conflictResolution base)
    return .copyWithRename op.source target

/-- `create_backup_task`. -/
def createBackupTask (source : Path) (ext : Text) : Engine ProcessingOperation :=
  if '/' ∈ ext then throw (.panicked .extensionSeparator)
  else return .createBackup source (source.withExtension (ext ++ ".backup".toList))

/-- `create_rename_task`. -/
def createRenameTask (config : MatchConfig) (op : MatchOperation) : Engine ProcessingOperation :=
  match op.requiresRelocation, op.relocationTargetPath with
  | true, some base => do
    let target ← unwrap (resolveTargetConflict config.conflictResolution base)
    return .renameFile op.source target
  | _, _ => return .renameFile op.source (op.source.withFileName op.newSubtitleName)

/-! ## One operation -/

/-- An operation that was carried out: its backup as planned, its task, and the
disk before it, at the start of the task and after it. -/
structure AppliedOperation where
  operation : MatchOperation
  backupPath : Option Path
  task : ProcessingOperation
  before : Disk
  planned : Disk
  after : Disk

/-- Source, destination and type of the journal entry for a task. -/
def journalFields (op : MatchOperation) : ProcessingOperation → Path × Path × JournalOperationType
  | .copyWithRename source target | .copyToVideoFolder source target => (source, target, .copied)
  | .moveToVideoFolder source target => (source, target, .moved)
  | .renameFile source target =>
    (source, target, if op.relocationMode = .move then .moved else .renamed)
  | .createBackup _ _ =>
    (op.source, op.relocationTargetPath.getD (op.source.withFileName op.newSubtitleName), .renamed)

/-- The journal entry of an operation. -/
def AppliedOperation.entry (a : AppliedOperation) : JournalEntry :=
  let fields := journalFields a.operation a.task
  { operationType := fields.2.2
    source := fields.1
    destination := fields.2.1
    backupPath := a.backupPath
    status := .completed
    fileSize :=
      ((a.after.files fields.2.1).map List.length).getD
        (((a.planned.files fields.1).map List.length).getD 0) }

/-- The disk as it is. -/
def currentDisk {ε : Type} : Program Disk ε Disk := Program.step fun disk => (.ok disk, disk)

/-- A task executed for the engine. -/
def runTask (task : ProcessingOperation) : Engine Unit :=
  task.execute.mapError fun message => .failed (.fileOperationFailed message)

/-- The backup of an operation, if it makes one; its path as planned. -/
def makeBackup (config : MatchConfig) (op : MatchOperation) : Engine (Option Path) :=
  if op.relocationMode = .move ∧ config.backupEnabled then do
    let task ← createBackupTask op.source op.subtitleFile.extension
    runTask task
    return match task with
      | .createBackup _ backup => some backup
      | _ => none
  else return none

/-- The task of an operation. -/
def planTask (config : MatchConfig) (op : MatchOperation) : Engine ProcessingOperation :=
  if op.relocationMode = .copy then createCopyTask config op else createRenameTask config op

/-- The body of the two loops, up to the journal. -/
def applyOperation (config : MatchConfig) (op : MatchOperation) : Engine AppliedOperation := do
  let before ← currentDisk
  let backupPath ← makeBackup config op
  let task ← planTask config op
  let planned ← currentDisk
  runTask task
  let after ← currentDisk
  return ⟨op, backupPath, task, before, planned, after⟩

/-! ## Batches -/

/-- `JournalData::save`, which replaces the journal or leaves it. -/
def saveJournal (entries : List JournalEntry) : Engine Unit :=
  Program.step fun disk =>
    match disk.faults 0 with
    | some fault =>
      (.error (.failed (.io fault.message)),
        { disk with faults := fun n => disk.faults (n + 1) })
    | none => (.ok (), ⟨disk.files, some entries, fun n => disk.faults (n + 1)⟩)

/-- The journal saved, if it has a path. -/
def persist (hasJournal : Bool) (applied : List AppliedOperation) : Engine Unit :=
  if hasJournal then saveJournal (applied.map AppliedOperation.entry) else return ()

/-- What a batch comes to: the outcome, the operations carried out, and the
disk. -/
structure Batch (α : Type) where
  outcome : Except Stop α
  applied : List AppliedOperation
  disk : Disk

/-- The loop of `execute_operations`. -/
def executeFrom (config : MatchConfig) (hasJournal : Bool) :
    List MatchOperation → List AppliedOperation → Disk → Batch Unit
  | [], applied, disk => ⟨.ok (), applied, disk⟩
  | op :: ops, applied, disk =>
    match (applyOperation config op).exec disk with
    | (.error stop, disk) => ⟨.error stop, applied, disk⟩
    | (.ok done, disk) =>
      match (persist hasJournal (applied ++ [done])).exec disk with
      | (.error stop, disk) => ⟨.error stop, applied ++ [done], disk⟩
      | (.ok (), disk) => executeFrom config hasJournal ops (applied ++ [done]) disk

/-- `execute_operations`. -/
def executeOperations (config : MatchConfig) (hasJournal : Bool) (ops : List MatchOperation)
    (dryRun : Bool) (disk : Disk) : Batch Unit :=
  if dryRun then ⟨.ok (), [], disk⟩ else executeFrom config hasJournal ops [] disk

/-- An error as it is reported. -/
structure OperationError where
  category : Text
  code : Text
  message : Text
  deriving DecidableEq, Repr

/-- `operation_error_from`. -/
def operationErrorFrom (err : SubXError) : OperationError :=
  ⟨err.category, err.machineCode, err.display⟩

/-- What is reported of an operation. -/
structure OperationOutcome where
  applied : Bool
  error : Option OperationError
  deriving DecidableEq, Repr

/-- The loop of `execute_operations_audit`; the user may cancel it before any
operation. -/
def executeAuditFrom (config : MatchConfig) (hasJournal : Bool) (cancelled : ℕ → Bool) :
    List MatchOperation → List OperationOutcome → List AppliedOperation → Disk →
      Batch (List OperationOutcome)
  | [], outcomes, applied, disk => ⟨.ok outcomes, applied, disk⟩
  | op :: ops, outcomes, applied, disk =>
    if cancelled outcomes.length then
      ⟨.ok (outcomes ++ List.replicate (op :: ops).length ⟨false, none⟩), applied, disk⟩
    else
      match (applyOperation config op).exec disk with
      | (.error (.failed err), disk) =>
        executeAuditFrom config hasJournal cancelled ops
          (outcomes ++ [⟨false, some (operationErrorFrom err)⟩]) applied disk
      | (.error (.panicked panic), disk) => ⟨.error (.panicked panic), applied, disk⟩
      | (.ok done, disk) =>
        match (persist hasJournal (applied ++ [done])).exec disk with
        | (.error stop, disk) => ⟨.error stop, applied ++ [done], disk⟩
        | (.ok (), disk) =>
          executeAuditFrom config hasJournal cancelled ops (outcomes ++ [⟨true, none⟩])
            (applied ++ [done]) disk

/-- `execute_operations_audit`. -/
def executeOperationsAudit (config : MatchConfig) (hasJournal : Bool) (cancelled : ℕ → Bool)
    (ops : List MatchOperation) (dryRun : Bool) (disk : Disk) : Batch (List OperationOutcome) :=
  if dryRun then ⟨.ok (ops.map fun _ => ⟨false, none⟩), [], disk⟩
  else executeAuditFrom config hasJournal cancelled ops [] [] disk

/-! ## Properties of the tasks -/

/-- A property of programs on the disk that is a matter of the calls. -/
structure CallClosed (P : ∀ ε α : Type, Program Disk ε α → Prop) : Prop
    extends Program.Closed P where
  call : ∀ {α : Type} (broken : Fault → FileSystem → FileSystem)
    (act : FileSystem → Except IoError (α × FileSystem)), P IoError α (systemCall broken act)
  exist : ∀ {ε : Type} (p : Path), P ε Bool (fileExists p)

namespace CallClosed

variable {P : ∀ ε α : Type, Program Disk ε α → Prop}

theorem fileCall {α : Type} (h : CallClosed P)
    (act : FileSystem → Except IoError (α × FileSystem)) : P _ _ (fileCall act) := h.call _ _

theorem withParent {call : Path → Io Unit} (h : CallClosed P) (hcall : ∀ p, P _ _ (call p))
    (p : Path) : P _ _ (withParent p call) := by
  unfold SubxCore.withParent
  split
  · exact hcall _
  · exact h.pure _

theorem createFirst (h : CallClosed P) : ∀ ps, P _ _ (createFirst ps)
  | [] => h.throw _
  | p :: ps => by
    refine h.bind (h.attempt (h.fileCall _)) fun r => ?_
    rcases r with err | u
    · rcases err with - | - | message
      · exact h.createFirst ps
      · exact h.throw _
      · exact h.throw _
    · exact h.pure _

theorem probeFirst (h : CallClosed P) : ∀ ps, P _ _ (probeFirst ps)
  | [] => h.throw _
  | p :: ps => by
    refine h.bind (h.attempt (h.fileCall _)) fun r => ?_
    rcases r with err | u
    · rcases err with - | - | message
      · exact h.probeFirst ps
      · exact h.throw _
      · exact h.throw _
    · exact h.bind (h.attempt (h.fileCall _)) fun _ => h.pure _

theorem streamInto (h : CallClosed P) (source target : Path) : P _ _ (streamInto source target) :=
  h.bind (h.createFirst _) fun _ => h.bind (h.withParent (fun _ => h.fileCall _) _) fun _ =>
    h.bind (h.fileCall _) fun _ => h.call _ _

theorem copyInto (h : CallClosed P) (source target : Path) : P _ _ (copyInto source target) :=
  h.bind (h.withParent (fun _ => h.fileCall _) _) fun _ => h.streamInto _ _

theorem moveInto (h : CallClosed P) (source target : Path) : P _ _ (moveInto source target) := by
  refine h.bind (h.withParent (fun _ => h.fileCall _) _) fun _ => h.bind ?_ fun moved => ?_
  · refine h.bind (h.exist _) fun occupied => ?_
    split
    · exact h.pure _
    refine h.bind (h.attempt (h.fileCall _)) fun r => ?_
    rcases r with err | u
    · exact h.pure _
    · exact h.pure _
  · split
    · exact h.pure _
    · exact h.bind (h.streamInto _ _) fun _ => h.bind (h.fileCall _) fun _ => h.fileCall _

theorem runTask (h : CallClosed P) (task : ProcessingOperation) : P _ _ (runTask task) := by
  refine h.mapError ?_
  cases task with
  | copyToVideoFolder source target => exact h.mapError (h.copyInto _ _)
  | moveToVideoFolder source target => exact h.mapError (h.moveInto _ _)
  | copyWithRename source target =>
    exact h.mapError (h.bind (h.withParent (fun _ => h.fileCall _) _) fun _ =>
      h.bind (h.fileCall _) fun _ => h.bind (h.fileCall _) fun _ => h.call _ _)
  | createBackup source backup => exact h.mapError (h.copyInto _ _)
  | renameFile source target => exact h.mapError (h.moveInto _ _)

theorem makeBackup (h : CallClosed P) (config : MatchConfig) (op : MatchOperation) :
    P _ _ (makeBackup config op) := by
  unfold SubxCore.makeBackup createBackupTask
  split
  · refine h.bind ?_ fun task => h.bind (h.runTask task) fun _ => h.pure _
    split
    · exact h.throw _
    · exact h.pure _
  · exact h.pure _

theorem resolveTargetConflict (h : CallClosed P) (policy : ConflictResolution) (target : Path) :
    P _ _ (resolveTargetConflict policy target) := by
  refine h.bind (h.exist _) fun occupied => ?_
  split
  · rcases policy with - | - | -
    · exact h.pure _
    · exact h.mapError (h.probeFirst _)
    · exact h.throw _
  · exact h.pure _

theorem planTask (h : CallClosed P) (config : MatchConfig) (op : MatchOperation) :
    P _ _ (planTask config op) := by
  unfold SubxCore.planTask createCopyTask createRenameTask
  split
  · split
    · exact h.throw _
    · exact h.bind (h.mapError (h.resolveTargetConflict _ _)) fun _ => h.pure _
  · split
    · exact h.bind (h.mapError (h.resolveTargetConflict _ _)) fun _ => h.pure _
    · exact h.pure _

end CallClosed

/-! ## What every call keeps -/

section Calls

variable {R : Disk → Disk → Prop} [Std.Refl R] [IsTrans Disk R]

/-- The disks that a call can leave. -/
def CallKeeps (R : Disk → Disk → Prop) : Prop :=
  ∀ (disk : Disk) (files : FileSystem), R disk ⟨files, disk.journal, fun n => disk.faults (n + 1)⟩

theorem CallKeeps.closed (hcall : CallKeeps R) :
    CallClosed fun (_ _ : Type) x => Program.Keeps R x where
  toClosed := Program.Keeps.closed R
  call broken act := by
    intro disk
    unfold systemCall
    rw [Program.exec_step]
    dsimp only
    split
    · exact hcall disk _
    · exact hcall disk _
    · exact hcall disk _
  exist _ := fun disk => refl_of R disk

/-- **An operation keeps what every call keeps.** -/
theorem applyOperation_keeps (hcall : CallKeeps R) (config : MatchConfig) (op : MatchOperation) :
    Program.Keeps R (applyOperation config op) := by
  have hcurrent : Program.Keeps R (currentDisk : Engine Disk) := fun disk => refl_of R disk
  exact .bind hcurrent fun _ => .bind (hcall.closed.makeBackup _ _) fun _ =>
    .bind (hcall.closed.planTask _ _) fun _ => .bind hcurrent fun _ =>
      .bind (hcall.closed.runTask _) fun _ => .bind hcurrent fun _ => .pure _

end Calls

/-- The saved journal is the same. -/
def SameJournal (disk disk' : Disk) : Prop := disk'.journal = disk.journal

instance : Std.Refl SameJournal := ⟨fun _ => rfl⟩

instance : IsTrans Disk SameJournal := ⟨fun _ _ _ h h' => h'.trans h⟩

theorem callKeeps_sameJournal : CallKeeps SameJournal := fun _ _ => rfl

/-- **An operation does not touch the journal.** -/
theorem applyOperation_journal (config : MatchConfig) (op : MatchOperation) (disk : Disk) :
    ((applyOperation config op).exec disk).2.journal = disk.journal :=
  applyOperation_keeps callKeeps_sameJournal config op disk

/-- Where no call fails for reasons of its own, none does later. -/
def KeepsSound (disk disk' : Disk) : Prop :=
  (∀ n, disk.faults n = none) → ∀ n, disk'.faults n = none

instance : Std.Refl KeepsSound := ⟨fun _ h => h⟩

instance : IsTrans Disk KeepsSound := ⟨fun _ _ _ h h' hsound => h' (h hsound)⟩

theorem callKeeps_keepsSound : CallKeeps KeepsSound := fun _ _ hsound n => hsound (n + 1)

theorem applyOperation_sound (config : MatchConfig) (op : MatchOperation) {disk : Disk}
    (h : ∀ n, disk.faults n = none) (n : ℕ) :
    ((applyOperation config op).exec disk).2.faults n = none :=
  applyOperation_keeps callKeeps_keepsSound config op disk h n

end SubxCore
