import SubxCore.Matcher.Audit
import Mathlib.Logic.Equiv.List
import Mathlib.Logic.Relation
import Mathlib.Tactic.DeriveEncodable
/-!
# Crashes

The plain batch step by step: every task is a step, and so is every call
that a save of the journal makes. The journal is written to a temporary
file, in any number of pieces, and renamed into place. A batch can be cut
off between any two steps; the journal is then what it was before the
batch, while there was nothing to save, or that of the operations carried
out so far, but for the last (`journal_intact_of_reaches`). A batch that
is not cut off is the batch as it is executed (`remaining_eq_of_reaches`).
-/

namespace SubxCore

open Text Function

/-- `JournalData`. -/
structure JournalData where
  batchId : Text
  createdAt : ℕ
  entries : List JournalEntry
  deriving DecidableEq, Repr

/-! ## Steps -/

/-- Where a save is: the call that comes next, and what is still to be
written. -/
inductive SavePoint
  | createDir
  | createTemporary
  | write (left : Bytes)
  | sync
  | rename
  deriving DecidableEq, Repr

/-- Where a batch is. -/
inductive BatchPhase
  /-- Before the next operation. -/
  | next (rest : List MatchOperation)
  /-- After the backup of an operation, before its own task. -/
  | task (op : MatchOperation) (rest : List MatchOperation) (before : Disk)
      (backupPath : Option Path)
  /-- While the journal is saved. -/
  | save (point : SavePoint) (rest : List MatchOperation)
  /-- At the end. -/
  | ended (outcome : Except Stop Unit)

/-- A batch between two steps, with the contents of the journal and of the
temporary file. -/
structure BatchState where
  phase : BatchPhase
  completed : List AppliedOperation
  disk : Disk
  journal : Option Bytes
  temporary : Option Bytes

/-- An operation after its backup. -/
def finishOperation (config : MatchConfig) (op : MatchOperation) (before : Disk)
    (backupPath : Option Path) : Engine AppliedOperation := do
  let task ← planTask config op
  let planned ← currentDisk
  runTask task
  let after ← currentDisk
  return ⟨op, backupPath, task, before, planned, after⟩

/-- What a batch is run with: its configuration, how a journal is written as a
file, and what it says of the batch. -/
structure BatchSetup where
  config : MatchConfig
  encode : JournalData → Bytes
  batchId : Text
  createdAt : ℕ

/-- The journal of some operations of a batch. -/
def BatchSetup.journalOf (setup : BatchSetup) (completed : List AppliedOperation) : JournalData :=
  ⟨setup.batchId, setup.createdAt, completed.map AppliedOperation.entry⟩

/-- **One step of a batch.** Which saves fail is a matter of the disk, at which
call is not. -/
inductive BatchStep (setup : BatchSetup) : BatchState → BatchState → Prop
  /-- No operation is left. -/
  | done {completed disk journal temporary} :
      BatchStep setup ⟨.next [], completed, disk, journal, temporary⟩
        ⟨.ended (.ok ()), completed, disk, journal, temporary⟩
  /-- The backup of an operation, if it makes one. -/
  | backup {op rest completed disk disk' backupPath journal temporary} :
      (makeBackup setup.config op).exec disk = (.ok backupPath, disk') →
      BatchStep setup ⟨.next (op :: rest), completed, disk, journal, temporary⟩
        ⟨.task op rest disk backupPath, completed, disk', journal, temporary⟩
  | backupFails {op rest completed disk disk' stop journal temporary} :
      (makeBackup setup.config op).exec disk = (.error stop, disk') →
      BatchStep setup ⟨.next (op :: rest), completed, disk, journal, temporary⟩
        ⟨.ended (.error stop), completed, disk', journal, temporary⟩
  /-- Its task. -/
  | task {op rest before backupPath completed disk disk' applied journal temporary} :
      (finishOperation setup.config op before backupPath).exec disk = (.ok applied, disk') →
      BatchStep setup ⟨.task op rest before backupPath, completed, disk, journal, temporary⟩
        ⟨.save .createDir rest, completed ++ [applied], disk', journal, temporary⟩
  | taskFails {op rest before backupPath completed disk disk' stop journal temporary} :
      (finishOperation setup.config op before backupPath).exec disk = (.error stop, disk') →
      BatchStep setup ⟨.task op rest before backupPath, completed, disk, journal, temporary⟩
        ⟨.ended (.error stop), completed, disk', journal, temporary⟩
  /-- The calls of a save. -/
  | createDir {rest completed disk journal temporary} :
      BatchStep setup ⟨.save .createDir rest, completed, disk, journal, temporary⟩
        ⟨.save .createTemporary rest, completed, disk, journal, temporary⟩
  | createTemporary {rest completed disk journal temporary} :
      BatchStep setup ⟨.save .createTemporary rest, completed, disk, journal, temporary⟩
        ⟨.save (.write (setup.encode (setup.journalOf completed))) rest, completed, disk, journal,
          some []⟩
  | write {chunk left rest completed disk journal written} : chunk ≠ [] →
      BatchStep setup ⟨.save (.write (chunk ++ left)) rest, completed, disk, journal, some written⟩
        ⟨.save (.write left) rest, completed, disk, journal, some (written ++ chunk)⟩
  | written {rest completed disk journal temporary} :
      BatchStep setup ⟨.save (.write []) rest, completed, disk, journal, temporary⟩
        ⟨.save .sync rest, completed, disk, journal, temporary⟩
  | sync {rest completed disk journal temporary} :
      BatchStep setup ⟨.save .sync rest, completed, disk, journal, temporary⟩
        ⟨.save .rename rest, completed, disk, journal, temporary⟩
  | rename {rest completed disk disk' journal temporary} :
      (persist true completed).exec disk = (.ok (), disk') →
      BatchStep setup ⟨.save .rename rest, completed, disk, journal, temporary⟩
        ⟨.next rest, completed, disk', temporary, none⟩
  /-- A call of a save that fails. -/
  | saveFails {point rest completed disk disk' stop journal temporary} :
      (persist true completed).exec disk = (.error stop, disk') →
      BatchStep setup ⟨.save point rest, completed, disk, journal, temporary⟩
        ⟨.ended (.error stop), completed, disk', journal, temporary⟩

/-- A batch before its first step. -/
def BatchState.start (ops : List MatchOperation) (disk : Disk) (journal temporary : Option Bytes) :
    BatchState := ⟨.next ops, [], disk, journal, temporary⟩

/-- **Where a batch can be cut off.** -/
def BatchReaches (setup : BatchSetup) : BatchState → BatchState → Prop :=
  Relation.ReflTransGen (BatchStep setup)

variable {setup : BatchSetup} {config : MatchConfig} {op : MatchOperation} {disk disk' : Disk}
variable {s s' : BatchState} {saved : Option Bytes} {completed : List AppliedOperation}

/-! ## The batch as it is executed -/

theorem applyOperation_of_backup {backupPath : Option Path}
    (h : (makeBackup config op).exec disk = (.ok backupPath, disk')) :
    (applyOperation config op).exec disk =
      (finishOperation config op disk backupPath).exec disk' :=
  applyOperation_of_makeBackup h

theorem applyOperation_of_backup_eq_error {stop : Stop}
    (h : (makeBackup config op).exec disk = (.error stop, disk')) :
    (applyOperation config op).exec disk = (.error stop, disk') := by
  unfold applyOperation
  rw [Program.exec_bind_of_ok (show currentDisk.exec disk = (.ok disk, disk) from rfl),
    Program.exec_bind_of_error h]

/-- What is left of a batch after a save. -/
def afterSave (config : MatchConfig) (rest : List MatchOperation)
    (completed : List AppliedOperation) (disk : Disk) : Batch Unit :=
  match (persist true completed).exec disk with
  | (.error stop, disk) => ⟨.error stop, completed, disk⟩
  | (.ok (), disk) => executeFrom config true rest completed disk

/-- What a batch comes to from some point on, if nothing cuts it off. -/
def BatchState.remaining (config : MatchConfig) (s : BatchState) : Batch Unit :=
  match s.phase with
  | .next rest => executeFrom config true rest s.completed s.disk
  | .task op rest before backupPath =>
    match (finishOperation config op before backupPath).exec s.disk with
    | (.error stop, disk) => ⟨.error stop, s.completed, disk⟩
    | (.ok done, disk) => afterSave config rest (s.completed ++ [done]) disk
  | .save _ rest => afterSave config rest s.completed s.disk
  | .ended outcome => ⟨outcome, s.completed, s.disk⟩

/-- A step leaves what the batch comes to. -/
theorem remaining_eq_of_step (h : BatchStep setup s s') :
    s'.remaining setup.config = s.remaining setup.config := by
  cases h with
  | done => rfl
  | @backup op rest completed disk disk' backupPath journal temporary hbackup =>
    unfold BatchState.remaining
    dsimp only
    rw [executeFrom, applyOperation_of_backup hbackup]
    rfl
  | @backupFails op rest completed disk disk' stop journal temporary hbackup =>
    unfold BatchState.remaining
    dsimp only
    rw [executeFrom, applyOperation_of_backup_eq_error hbackup]
  | task htask =>
    unfold BatchState.remaining
    dsimp only
    rw [htask]
  | taskFails htask =>
    unfold BatchState.remaining
    dsimp only
    rw [htask]
  | createDir => rfl
  | createTemporary => rfl
  | write _ => rfl
  | written => rfl
  | sync => rfl
  | rename hpersist =>
    unfold BatchState.remaining
    dsimp only
    rw [afterSave, hpersist]
  | saveFails hpersist =>
    unfold BatchState.remaining
    dsimp only
    rw [afterSave, hpersist]

/-- **Steps refine the loop**: a batch that ends, step by step, ends as
`execute_operations` does. -/
theorem remaining_eq_of_reaches (h : BatchReaches setup s s') :
    s'.remaining setup.config = s.remaining setup.config := by
  induction h with
  | refl => rfl
  | tail _ hstep ih => rw [remaining_eq_of_step hstep, ih]

theorem executeOperations_eq_of_ended {ops : List MatchOperation} {outcome : Except Stop Unit}
    {journal temporary journal' temporary' : Option Bytes}
    (h : BatchReaches setup (.start ops disk journal temporary)
      ⟨.ended outcome, completed, disk', journal', temporary'⟩) :
    executeOperations setup.config true ops false disk = ⟨outcome, completed, disk'⟩ :=
  (remaining_eq_of_reaches h).symm

/-! ## The journal -/

/-- The journal file is that of the operations completed, or what was there
before if there are none. -/
def UpToDate (setup : BatchSetup) (saved : Option Bytes) (completed : List AppliedOperation)
    (journal : Option Bytes) : Prop :=
  (completed = [] ∧ journal = saved) ∨ journal = some (setup.encode (setup.journalOf completed))

/-- The temporary file as far as it is written. -/
def Written (setup : BatchSetup) (completed : List AppliedOperation) (temporary : Option Bytes) :
    SavePoint → Prop
  | .createDir | .createTemporary => True
  | .write left => ∃ written, temporary = some written ∧
      written ++ left = setup.encode (setup.journalOf completed)
  | .sync | .rename => temporary = some (setup.encode (setup.journalOf completed))

/-- **The journal is one entry behind at most.** -/
def JournalIntact (setup : BatchSetup) (saved : Option Bytes) (s : BatchState) : Prop :=
  (s.completed.length ≤ 1 ∧ s.journal = saved) ∨
    ∃ j, (j = s.completed.length ∨ j + 1 = s.completed.length) ∧
      s.journal = some (setup.encode (setup.journalOf (s.completed.take j)))

/-- What holds between two steps: outside a save the journal is up to date,
in a save it is without the last operation, and the temporary file is on its
way to hold it. -/
def CrashInvariant (setup : BatchSetup) (saved : Option Bytes) (s : BatchState) : Prop :=
  match s.phase with
  | .next _ | .task _ _ _ _ => UpToDate setup saved s.completed s.journal
  | .save point _ => (∃ before last, s.completed = before ++ [last] ∧
      UpToDate setup saved before s.journal) ∧ Written setup s.completed s.temporary point
  | .ended _ => JournalIntact setup saved s

theorem UpToDate.intact (h : UpToDate setup saved s.completed s.journal) :
    JournalIntact setup saved s := by
  rcases h with ⟨hnil, hjournal⟩ | hjournal
  · exact Or.inl ⟨by rw [hnil]; exact Nat.zero_le 1, hjournal⟩
  · exact Or.inr ⟨s.completed.length, Or.inl rfl, by rw [List.take_length, hjournal]⟩

theorem UpToDate.intact_concat {before : List AppliedOperation} {last : AppliedOperation}
    (hcompleted : s.completed = before ++ [last])
    (h : UpToDate setup saved before s.journal) : JournalIntact setup saved s := by
  rcases h with ⟨rfl, hjournal⟩ | hjournal
  · exact Or.inl ⟨by rw [hcompleted]; exact le_rfl, hjournal⟩
  · refine Or.inr ⟨before.length, Or.inr ?_, ?_⟩
    · rw [hcompleted, List.length_append, List.length_singleton]
    · rw [hcompleted, List.take_left, hjournal]

theorem CrashInvariant.intact (h : CrashInvariant setup saved s) : JournalIntact setup saved s := by
  unfold CrashInvariant at h
  split at h
  · exact h.intact
  · exact h.intact
  · obtain ⟨⟨before, last, hcompleted, hbefore⟩, -⟩ := h
    exact hbefore.intact_concat hcompleted
  · exact h

/-- **Every step keeps the invariant.** Only a renaming touches the journal. -/
theorem invariant_of_step (hinv : CrashInvariant setup saved s) (h : BatchStep setup s s') :
    CrashInvariant setup saved s' := by
  cases h with
  | done => exact UpToDate.intact hinv
  | backup _ => exact hinv
  | backupFails _ => exact UpToDate.intact hinv
  | @task _ _ _ _ completed _ _ applied =>
    exact ⟨⟨completed, applied, rfl, hinv⟩, trivial⟩
  | taskFails _ => exact UpToDate.intact hinv
  | createDir => exact hinv
  | createTemporary => exact ⟨hinv.1, [], rfl, rfl⟩
  | @write chunk left _ _ _ _ written _ =>
    obtain ⟨hbefore, written', hwritten, hencode⟩ := hinv
    cases hwritten
    exact ⟨hbefore, written ++ chunk, rfl, by rw [List.append_assoc, hencode]⟩
  | written =>
    obtain ⟨hbefore, written, hwritten, hencode⟩ := hinv
    rw [List.append_nil] at hencode
    exact ⟨hbefore, hwritten.trans (congrArg some hencode)⟩
  | sync => exact hinv
  | rename _ =>
    obtain ⟨-, hwritten⟩ := hinv
    exact Or.inr hwritten
  | saveFails _ =>
    obtain ⟨⟨before, last, hcompleted, hbefore⟩, -⟩ := hinv
    exact hbefore.intact_concat hcompleted

theorem invariant_of_reaches (hinv : CrashInvariant setup saved s) (h : BatchReaches setup s s') :
    CrashInvariant setup saved s' := by
  induction h with
  | refl => exact hinv
  | tail _ hstep ih => exact invariant_of_step ih hstep

/-- **A crash leaves a complete journal**, wherever it cuts the batch off and
whichever tasks and saves fail: the one from before the batch, while at most
one operation is completed, or one that loads as that of the operations
completed, the last aside at most. -/
theorem journal_intact_of_reaches (setup : BatchSetup) (load : Bytes → Option JournalData)
    (hload : ∀ data, load (setup.encode data) = some data) (ops : List MatchOperation)
    (disk : Disk) (saved temporary : Option Bytes) (s : BatchState)
    (h : BatchReaches setup (.start ops disk saved temporary) s) :
    (s.completed.length ≤ 1 ∧ s.journal = saved) ∨
      ∃ content j, s.journal = some content ∧
        (j = s.completed.length ∨ j + 1 = s.completed.length) ∧
        load content = some ⟨setup.batchId, setup.createdAt,
          (s.completed.take j).map AppliedOperation.entry⟩ := by
  have hstart : CrashInvariant setup saved (.start ops disk saved temporary) := Or.inl ⟨rfl, rfl⟩
  rcases (invariant_of_reaches hstart h).intact with hbefore | ⟨j, hj, hjournal⟩
  · exact Or.inl hbefore
  · exact Or.inr ⟨_, j, hjournal, hj, hload _⟩

/-! ## A batch cut off -/

instance instEncodableChar : Encodable Char :=
  Encodable.ofLeftInverse Char.toNat Char.ofNat Char.ofNat_toNat

instance : Encodable FileName :=
  Encodable.ofLeftInjection FileName.text (fun s => if h : IsFileName s then some ⟨s, h⟩ else none)
    fun name => dif_pos name.isFileName

deriving instance Encodable for Component, JournalOperationType, JournalEntryStatus

deriving instance Encodable for JournalEntry

deriving instance Encodable for JournalData

/-- A copy of one subtitle, with a journal of as many bytes as its code says. -/
def unarySetup : BatchSetup where
  config := ⟨false, .copy, .autoRename⟩
  encode data := List.replicate (Encodable.encode data) 0
  batchId := "b".toList
  createdAt := 0

/-- Cut off while the first journal is written, the batch leaves the old one. -/
theorem journal_intact_of_reaches_unarySetup :
    ∃ s, BatchReaches unarySetup (.start [copyOperation "/subs/a.srt".toList "/films/movie.srt".toList]
        (.sound occupiedTarget) none none) s ∧ s.completed.length = 1 ∧ s.temporary = some [] ∧
      ((s.completed.length ≤ 1 ∧ s.journal = none) ∨
        ∃ content j, s.journal = some content ∧
          (j = s.completed.length ∨ j + 1 = s.completed.length) ∧
          (Encodable.decode content.length : Option JournalData) =
            some ⟨unarySetup.batchId, unarySetup.createdAt,
              (s.completed.take j).map AppliedOperation.entry⟩) := by
  have hok : ((finishOperation unarySetup.config
      (copyOperation "/subs/a.srt".toList "/films/movie.srt".toList) (.sound occupiedTarget)
      none).exec (.sound occupiedTarget)).1.isOk = true := by decide +kernel
  rcases hfinish : (finishOperation unarySetup.config
      (copyOperation "/subs/a.srt".toList "/films/movie.srt".toList) (.sound occupiedTarget)
      none).exec (.sound occupiedTarget) with ⟨stop | applied, disk⟩
  · rw [hfinish] at hok
    cases hok
  have hreach : BatchReaches unarySetup
      (.start [copyOperation "/subs/a.srt".toList "/films/movie.srt".toList]
        (.sound occupiedTarget) none none)
      ⟨.save (.write (unarySetup.encode (unarySetup.journalOf [applied]))) [], [applied], disk,
        none, some []⟩ :=
    .tail (.tail (.tail (.tail .refl (.backup rfl)) (.task hfinish)) .createDir) .createTemporary
  refine ⟨_, hreach, rfl, rfl, ?_⟩
  exact journal_intact_of_reaches unarySetup (fun content => Encodable.decode content.length)
    (fun data => by
      show Encodable.decode (List.replicate _ _).length = some data
      rw [List.length_replicate, Encodable.encodek]) _ _ none none _ hreach

end SubxCore
