import SubxCore.Matcher.Disk
import Mathlib.Data.Finset.Card
/-!
# The file manager

`FileManager` records the files that are created and removed through it and
undoes them in reverse. A removed file is not backed up, so undoing a removal
warns and does nothing; the list of operations is drained before the first is
undone. What a rollback does is said once, for every list of operations:
the created files that still stand are removed, one call each, up to the
first call that fails.
-/

namespace SubxCore

open Function

/-- `FileOperation`. -/
inductive FileOperation
  | created (path : Path)
  | removed (path : Path)
  deriving DecidableEq, Repr

/-- `FileManager`, with what its reporter was told. -/
structure FileManager where
  operations : List FileOperation
  reported : List Text
  deriving DecidableEq, Repr

/-- A manager and the disk it works on. -/
structure Managed where
  manager : FileManager
  disk : Disk

namespace FileManager

/-- A program of the manager. -/
abbrev Managing (α : Type) := Program Managed SubXError α

/-- `FileManager::new`. -/
def new : FileManager := ⟨[], []⟩

/-- A system call, with its error wrapped. -/
def onDisk {α : Type} (x : Io α) : Managing α :=
  Program.step fun s =>
    let (result, disk) := x.exec s.disk
    (result.mapError fun err => .fileOperationFailed err.display, { s with disk })

/-- A change of the manager. -/
def modify {α : Type} (f : FileManager → α × FileManager) : Managing α :=
  Program.step fun s => (.ok (f s.manager).1, { s with manager := (f s.manager).2 })

/-- An operation is recorded. -/
def push (op : FileOperation) : Managing Unit :=
  modify fun m => ((), { m with operations := m.operations ++ [op] })

/-- `FileManager::record_creation`. -/
def recordCreation (path : Path) : Managing Unit := push (.created path)

/-- `FileManager::remove_file`. -/
def removeFile (path : Path) : Managing Unit := do
  if ← onDisk (fileExists path) then
    onDisk (SubxCore.removeFile path)
    push (.removed path)
  else throw (.fileNotFound path.display)

/-- `Reporter::warn`. -/
def warn (message : Text) : Managing Unit :=
  modify fun m => ((), { m with reported := m.reported ++ [message] })

/-- The body of the loop of `rollback`. -/
def undo : FileOperation → Managing Unit
  | .created path => do
    if ← onDisk (fileExists path) then onDisk (SubxCore.removeFile path)
  | .removed _ => warn "Warning: Cannot restore removed file (backup not implemented)".toList

/-- The loop of `rollback`. -/
def undoAll : List FileOperation → Managing Unit
  | [] => pure ()
  | op :: ops => do
    undo op
    undoAll ops

/-- `FileManager::rollback`. The operations are drained, also when one of them
cannot be undone. -/
def rollback : Managing Unit := do
  let operations ← modify fun m => (m.operations, { m with operations := [] })
  undoAll operations.reverse

/-! ## The steps -/

open Program

variable {s s' : Managed} {path p : Path} {content : Bytes} {fault : Fault}
variable {op : FileOperation} {ops : List FileOperation} {files : FileSystem}

theorem exec_fileExists : (onDisk (fileExists path)).exec s =
    (.ok (s.disk.files path).isSome, s) := rfl

/-- A session after a removal that was not undone. -/
def warned (s : Managed) : Managed :=
  { s with manager := { s.manager with reported := s.manager.reported ++
    ["Warning: Cannot restore removed file (backup not implemented)".toList] } }

theorem exec_undo_removed : (undo (.removed path)).exec s = (.ok (), warned s) := rfl

theorem exec_undo_created_of_none (h : s.disk.files path = none) :
    (undo (.created path)).exec s = (.ok (), s) := by
  rw [undo, exec_bind_of_ok exec_fileExists, h]
  rfl

theorem exec_undo_created_of_some (h : s.disk.files path = some content) :
    (undo (.created path)).exec s = (onDisk (SubxCore.removeFile path)).exec s := by
  rw [undo, exec_bind_of_ok exec_fileExists, h]
  rfl

/-- Removing a file that is there. -/
theorem exec_removeFile_of_sound (hfile : s.disk.files path = some content)
    (hsound : s.disk.faults 0 = none) :
    (onDisk (SubxCore.removeFile path)).exec s =
      (.ok (), { s with disk := ⟨update s.disk.files path none, s.disk.journal,
        fun n => s.disk.faults (n + 1)⟩ }) := by
  unfold onDisk SubxCore.removeFile fileCall systemCall
  rw [exec_step, exec_step, hsound]
  dsimp only
  rw [hfile]
  rfl

theorem exec_removeFile_of_fault (hfault : s.disk.faults 0 = some fault) :
    (onDisk (SubxCore.removeFile path)).exec s =
      (.error (.fileOperationFailed fault.message), { s with disk := ⟨s.disk.files, s.disk.journal,
        fun n => s.disk.faults (n + 1)⟩ }) := by
  unfold onDisk SubxCore.removeFile fileCall systemCall
  rw [exec_step, exec_step, hfault]
  rfl

/-- **A removal that went through** took a file that was there, for good. -/
theorem removeFile_eq_ok (h : (removeFile path).exec s = (.ok (), s')) :
    (s.disk.files path).isSome ∧ s'.disk.files = update s.disk.files path none ∧
      s'.manager.operations = s.manager.operations ++ [.removed path] := by
  rw [removeFile, exec_bind_of_ok exec_fileExists] at h
  cases hfile : s.disk.files path with
  | none =>
    rw [hfile] at h
    cases h
  | some content =>
    rw [hfile, Option.isSome_some, if_pos rfl] at h
    refine ⟨rfl, ?_⟩
    cases hfault : s.disk.faults 0 with
    | some fault =>
      rw [exec_bind_of_error (exec_removeFile_of_fault hfault)] at h
      cases h
    | none =>
      rw [exec_bind_of_ok (exec_removeFile_of_sound hfile hfault)] at h
      cases h
      exact ⟨rfl, rfl⟩

/-! ## What a rollback does -/

/-- The path of a creation. -/
def createdPath : FileOperation → Option Path
  | .created path => some path
  | .removed _ => none

/-- The files created that are still there. -/
def standing (ops : List FileOperation) (files : FileSystem) : Finset Path :=
  (ops.filterMap createdPath).toFinset.filter fun p => (files p).isSome

theorem mem_standing : p ∈ standing ops files ↔ .created p ∈ ops ∧ (files p).isSome := by
  rw [standing, Finset.mem_filter, List.mem_toFinset, List.mem_filterMap]
  refine and_congr_left fun _ => ⟨?_, fun h => ⟨_, h, rfl⟩⟩
  rintro ⟨op, hop, heq⟩
  cases op with
  | created q =>
    cases heq
    exact hop
  | removed q => cases heq

theorem standing_removed : standing (.removed path :: ops) files = standing ops files := by
  ext p
  simp [mem_standing]

theorem standing_created_of_none (h : files path = none) :
    standing (.created path :: ops) files = standing ops files := by
  ext p
  rw [mem_standing, mem_standing, List.mem_cons]
  refine and_congr_left fun hp => or_iff_right ?_
  rintro ⟨⟩
  rw [h] at hp
  cases hp

/-- Undoing a creation leaves one file less. -/
theorem card_standing_created_of_some (h : files path = some content) :
    (standing (.created path :: ops) files).card =
      (standing ops (update files path none)).card + 1 := by
  have hnot : path ∉ standing ops (update files path none) := by
    rw [mem_standing, update_self]
    exact fun h => Bool.false_ne_true h.2
  rw [← Finset.card_insert_of_notMem hnot]
  congr 1
  ext p
  rw [mem_standing, Finset.mem_insert, mem_standing, List.mem_cons, FileOperation.created.injEq]
  by_cases hp : p = path
  · subst hp
    simp [h]
  · simp [hp]

/-- **Undoing goes through** when no call fails, and removes what was created. -/
theorem undoAll_eq_ok (ops : List FileOperation)
    (h : ∀ i < (standing ops s.disk.files).card, s.disk.faults i = none) :
    ∃ s', (undoAll ops).exec s = (.ok (), s') ∧
      ∀ p, s'.disk.files p = if .created p ∈ ops then none else s.disk.files p := by
  induction ops generalizing s with
  | nil => exact ⟨s, rfl, fun p => rfl⟩
  | cons op ops ih =>
    rw [undoAll]
    cases op with
    | removed path =>
      rw [standing_removed] at h
      obtain ⟨s', hrun, hfiles⟩ := ih (s := warned s) h
      refine ⟨s', (exec_bind_of_ok exec_undo_removed).trans hrun, fun p => ?_⟩
      rw [hfiles p, warned]
      simp
    | created path =>
      cases hfile : s.disk.files path with
      | none =>
        have hundo := exec_undo_created_of_none hfile
        rw [standing_created_of_none hfile] at h
        obtain ⟨s', hrun, hfiles⟩ := ih h
        refine ⟨s', (exec_bind_of_ok hundo).trans hrun, fun p => ?_⟩
        rw [hfiles p]
        by_cases hp : p = path
        · subst hp
          simp [hfile]
        · simp [hp]
      | some content =>
        rw [card_standing_created_of_some hfile] at h
        have hundo := (exec_undo_created_of_some hfile).trans
          (exec_removeFile_of_sound hfile (h 0 (Nat.succ_pos _)))
        obtain ⟨s', hrun, hfiles⟩ := ih (s := { s with disk :=
          ⟨update s.disk.files path none, s.disk.journal, fun n => s.disk.faults (n + 1)⟩ })
          fun i hi => h (i + 1) (Nat.succ_lt_succ hi)
        refine ⟨s', (exec_bind_of_ok hundo).trans hrun, fun p => ?_⟩
        rw [hfiles p]
        by_cases hp : p = path
        · subst hp
          simp
        · simp [hp]

/-- **Undoing fails** when a call does, at a file created that still stands. -/
theorem undoAll_eq_error (ops : List FileOperation)
    (h : ∃ i < (standing ops s.disk.files).card, (s.disk.faults i).isSome) :
    ∃ err s' p, (undoAll ops).exec s = (.error err, s') ∧ .created p ∈ ops ∧
      (s'.disk.files p).isSome ∧ s'.manager.operations = s.manager.operations := by
  induction ops generalizing s with
  | nil =>
    obtain ⟨i, hi, -⟩ := h
    exact absurd hi (Nat.not_lt_zero i)
  | cons op ops ih =>
    rw [undoAll]
    cases op with
    | removed path =>
      rw [standing_removed] at h
      obtain ⟨err, s', p, hrun, hp, hfile, hops⟩ := ih (s := warned s) h
      exact ⟨err, s', p, (exec_bind_of_ok exec_undo_removed).trans hrun,
        List.mem_cons_of_mem _ hp, hfile, hops⟩
    | created path =>
      cases hfile : s.disk.files path with
      | none =>
        have hundo := exec_undo_created_of_none hfile
        rw [standing_created_of_none hfile] at h
        obtain ⟨err, s', p, hrun, hp, hstill, hops⟩ := ih h
        exact ⟨err, s', p, (exec_bind_of_ok hundo).trans hrun, List.mem_cons_of_mem _ hp, hstill,
          hops⟩
      | some content =>
        rw [card_standing_created_of_some hfile] at h
        cases hfault : s.disk.faults 0 with
        | some fault =>
          have hundo := (exec_undo_created_of_some hfile).trans (exec_removeFile_of_fault hfault)
          exact ⟨_, _, path, exec_bind_of_error hundo, List.mem_cons_self .., by simp [hfile], rfl⟩
        | none =>
          have hundo := (exec_undo_created_of_some hfile).trans
            (exec_removeFile_of_sound hfile hfault)
          obtain ⟨err, s', p, hrun, hp, hstill, hops⟩ := ih (s := { s with disk :=
            ⟨update s.disk.files path none, s.disk.journal, fun n => s.disk.faults (n + 1)⟩ }) <| by
              obtain ⟨i, hi, hsome⟩ := h
              cases i with
              | zero =>
                rw [hfault] at hsome
                cases hsome
              | succ i => exact ⟨i, Nat.lt_of_succ_lt_succ hi, hsome⟩
          exact ⟨err, s', p, (exec_bind_of_ok hundo).trans hrun, List.mem_cons_of_mem _ hp, hstill,
            hops⟩

end FileManager

end SubxCore
