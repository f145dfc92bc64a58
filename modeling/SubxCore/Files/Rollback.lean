import SubxCore.Files.FileManager
/-!
# Rolling back

Files created and removed under a manager, in any order and any number, and
what a rollback then makes of them. It gives the first state back exactly when
no file that was there at first has been removed, and no removal of the
rollback itself fails: a removal is not undone, and a rollback that fails has
forgotten what it did not undo.
-/

namespace SubxCore

namespace FileManager

open Function Program

variable {start s s' : Managed} {path p : Path} {content : Bytes}

/-! ## Histories -/

/-- What is done under a manager. -/
inductive Action
  | create (path : Path) (content : Bytes)
  | remove (path : Path)
  deriving DecidableEq, Repr

/-- **A history**: the caller creates files that were not there and has each
recorded at once, and files are removed through the manager. -/
inductive History (start : Managed) : List Action → Managed → Prop
  | nil : History start [] start
  | created {actions : List Action} {s s' : Managed} {disk : Disk} {path : Path}
      {content : Bytes} : History start actions s → s.disk.files path = none →
      disk.files = update s.disk.files path (some content) →
      (recordCreation path).exec { s with disk } = (.ok (), s') →
      History start (actions ++ [.create path content]) s'
  | removed {actions : List Action} {s s' : Managed} {path : Path} : History start actions s →
      (removeFile path).exec s = (.ok (), s') → History start (actions ++ [.remove path]) s'

variable {actions : List Action}

/-- An operation has been undone: what was created is gone, what was removed is
back. -/
def Undone (files : FileSystem) : FileOperation → Prop
  | .created path => files path = none
  | .removed path => (files path).isSome

/-- **What a rollback should do**: give the files back as they were, or remember
every operation that it has not undone. -/
def Restores (initial : FileSystem) (s : Managed) : Prop :=
  match rollback.exec s with
  | (.ok _, s') => s'.disk.files = initial
  | (.error _, s') =>
    ∀ op ∈ s.manager.operations, op ∈ s'.manager.operations ∨ Undone s'.disk.files op

/-! ## What a history leaves -/

/-- The record of an action. -/
def Action.operation : Action → FileOperation
  | .create path _ => .created path
  | .remove path => .removed path

/-- The files after a history, against those at the start. -/
structure Tracked (start : Managed) (actions : List Action) (s : Managed) : Prop where
  operations : s.manager.operations = actions.map Action.operation
  untouched : ∀ p, .created p ∉ s.manager.operations → .removed p ∉ s.manager.operations →
    s.disk.files p = start.disk.files p
  gone : ∀ p, .created p ∉ s.manager.operations → .removed p ∈ s.manager.operations →
    s.disk.files p = none
  missing : ∀ p, (start.disk.files p).isSome → s.disk.files p = none →
    .removed p ∈ s.manager.operations
  replaced : ∀ p, (start.disk.files p).isSome → .created p ∈ s.manager.operations →
    .removed p ∈ s.manager.operations

theorem Tracked.nil (h : start.manager.operations = []) : Tracked start [] start := by
  refine ⟨h, fun _ _ _ => rfl, fun p _ hp => ?_, fun p hsome hnone => ?_, fun p _ hp => ?_⟩
  · rw [h] at hp
    cases hp
  · rw [hnone] at hsome
    cases hsome
  · rw [h] at hp
    cases hp

/-- Creating a file that was not there. -/
theorem Tracked.created (h : Tracked start actions s) (hnone : s.disk.files path = none)
    (hfiles : s'.disk.files = update s.disk.files path (some content))
    (hops : s'.manager.operations = s.manager.operations ++ [.created path]) :
    Tracked start (actions ++ [.create path content]) s' := by
  refine ⟨?_, fun p hc hr => ?_, fun p hc hr => ?_, fun p hsome hp => ?_, fun p hsome hc => ?_⟩
  · rw [hops, h.operations, List.map_append]
    rfl
  all_goals simp only [hops, List.mem_append, List.mem_singleton, FileOperation.created.injEq,
    reduceCtorEq, or_false, not_or] at *
  · rw [hfiles, update_of_ne hc.2]
    exact h.untouched p hc.1 hr
  · rw [hfiles, update_of_ne hc.2]
    exact h.gone p hc.1 hr
  · by_cases heq : p = path
    · subst heq
      exact h.missing p hsome hnone
    · rw [hfiles, update_of_ne heq] at hp
      exact h.missing p hsome hp
  · rcases hc with hc | rfl
    · exact h.replaced p hsome hc
    · exact h.missing p hsome hnone

/-- Removing a file that was there. -/
theorem Tracked.removed (h : Tracked start actions s)
    (hfiles : s'.disk.files = update s.disk.files path none)
    (hops : s'.manager.operations = s.manager.operations ++ [.removed path]) :
    Tracked start (actions ++ [.remove path]) s' := by
  refine ⟨?_, fun p hc hr => ?_, fun p hc hr => ?_, fun p hsome hp => ?_, fun p hsome hc => ?_⟩
  · rw [hops, h.operations, List.map_append]
    rfl
  all_goals simp only [hops, List.mem_append, List.mem_singleton, FileOperation.removed.injEq,
    reduceCtorEq, or_false, not_or] at *
  · rw [hfiles, update_of_ne hr.2]
    exact h.untouched p hc hr.1
  · by_cases heq : p = path
    · rw [hfiles, heq, update_self]
    · rw [hfiles, update_of_ne heq]
      exact h.gone p hc (hr.resolve_right heq)
  · by_cases heq : p = path
    · exact .inr heq
    · rw [hfiles, update_of_ne heq] at hp
      exact .inl (h.missing p hsome hp)
  · exact .inl (h.replaced p hsome hc)

/-- **Every history is tracked.** -/
theorem History.tracked (h : History start actions s) (hstart : start.manager.operations = []) :
    Tracked start actions s := by
  induction h with
  | nil => exact .nil hstart
  | created _ hnone hfiles hrecord ih =>
    cases hrecord
    exact ih.created hnone hfiles rfl
  | removed _ hremove ih =>
    obtain ⟨-, hfiles, hops⟩ := removeFile_eq_ok hremove
    exact ih.removed hfiles hops

theorem Tracked.removed_mem_iff (h : Tracked start actions s) :
    .removed p ∈ s.manager.operations ↔ .remove p ∈ actions := by
  rw [h.operations, List.mem_map]
  refine ⟨?_, fun hp => ⟨_, hp, rfl⟩⟩
  rintro ⟨action, haction, heq⟩
  cases action with
  | create q content => cases heq
  | remove q =>
    cases heq
    exact haction

/-! ## Rolling a history back -/

/-- No call that removes a file created, and still there, fails. -/
def Undoable (s : Managed) : Prop :=
  ∀ i < (standing s.manager.operations s.disk.files).card, s.disk.faults i = none

theorem exec_rollback : rollback.exec s = (undoAll s.manager.operations.reverse).exec
    { s with manager := { s.manager with operations := [] } } := rfl

theorem standing_reverse (ops : List FileOperation) (files : FileSystem) :
    standing ops.reverse files = standing ops files := by
  ext p
  rw [mem_standing, mem_standing, List.mem_reverse]

/-- A rollback whose calls go through removes what was created. -/
theorem rollback_eq_ok (h : Undoable s) :
    ∃ s', rollback.exec s = (.ok (), s') ∧ ∀ p, s'.disk.files p =
      if .created p ∈ s.manager.operations then none else s.disk.files p := by
  obtain ⟨s', hrun, hfiles⟩ := undoAll_eq_ok s.manager.operations.reverse
    (s := { s with manager := { s.manager with operations := [] } })
    (by rw [standing_reverse]; exact h)
  refine ⟨s', exec_rollback.trans hrun, fun p => ?_⟩
  rw [hfiles p]
  simp only [List.mem_reverse]

/-- A rollback one of whose calls fails has forgotten a file that still stands. -/
theorem not_restores_of_not_undoable {initial : FileSystem} (h : ¬ Undoable s) :
    ¬ Restores initial s := by
  unfold Undoable at h
  push Not at h
  obtain ⟨i, hi, hfault⟩ := h
  obtain ⟨err, s', p, hrun, hp, hstill, hops⟩ := undoAll_eq_error
    s.manager.operations.reverse (s := { s with manager := { s.manager with operations := [] } })
    ⟨i, by rw [standing_reverse]; exact hi, Option.isSome_iff_ne_none.2 hfault⟩
  rw [Restores, exec_rollback, hrun]
  intro hrestores
  rcases hrestores _ (List.mem_reverse.1 hp) with hmem | hundone
  · rw [hops] at hmem
    cases hmem
  · rw [Undone] at hundone
    rw [hundone] at hstill
    cases hstill

/-- **A rollback restores exactly when** no file that was there at the start has
been removed, and no call that removes a created file fails. -/
theorem restores_iff (h : History start actions s) (hstart : start.manager.operations = []) :
    Restores start.disk.files s ↔
      (∀ p, .remove p ∈ actions → start.disk.files p = none) ∧ Undoable s := by
  have htracked := h.tracked hstart
  by_cases hundoable : Undoable s
  · obtain ⟨s', hrun, hfiles⟩ := rollback_eq_ok hundoable
    rw [and_iff_left hundoable, Restores, hrun]
    constructor
    · intro heq p hp
      have hp := htracked.removed_mem_iff.2 hp
      have hgone : s'.disk.files p = none := by
        rw [hfiles p]
        split
        · rfl
        · next hc => exact htracked.gone p hc hp
      rw [← congrFun heq p]
      exact hgone
    · intro hlost
      funext p
      have hremoved : .removed p ∈ s.manager.operations → start.disk.files p = none :=
        fun hp => hlost p (htracked.removed_mem_iff.1 hp)
      rw [hfiles p]
      split
      · next hc =>
        by_contra hne
        have hsome := Option.isSome_iff_ne_none.2 (Ne.symm hne)
        exact hne (hremoved (htracked.replaced p hsome hc)).symm
      · next hc =>
        by_cases hr : .removed p ∈ s.manager.operations
        · rw [htracked.gone p hc hr, hremoved hr]
        · exact htracked.untouched p hc hr
  · refine iff_of_false (not_restores_of_not_undoable hundoable) fun h => hundoable h.2

/-- The path of a file. -/
def samplePath : Path := [.normal ⟨['a'], by decide⟩]

/-- A disk with that file, or without it. -/
def sampleFiles (content : Option Bytes) : FileSystem := fun p =>
  if p = samplePath then content else none

/-- A new manager. -/
def managing (content : Option Bytes) : Managed := ⟨.new, .sound (sampleFiles content)⟩

/-- A file created, removed and created again is gone after the rollback. -/
theorem restores_iff_recreated :
    ∃ s, History (managing none)
        [.create samplePath [0], .remove samplePath, .create samplePath [1]] s ∧
      Restores (managing none).disk.files s := by
  let first : Managed :=
    ⟨⟨[.created samplePath], []⟩, .sound (update (sampleFiles none) samplePath (some [0]))⟩
  have hfirst : History (managing none) [.create samplePath [0]] first := by
    refine .created .nil rfl ?_ rfl
    rfl
  have hsecond : History (managing none) [.create samplePath [0], .remove samplePath]
      ((removeFile samplePath).exec first).2 := .removed hfirst rfl
  let third : Managed := ⟨⟨[.created samplePath, .removed samplePath, .created samplePath], []⟩,
    .sound (update ((removeFile samplePath).exec first).2.disk.files samplePath (some [1]))⟩
  have hthird : History (managing none)
      [.create samplePath [0], .remove samplePath, .create samplePath [1]] third := by
    refine .created hsecond rfl ?_ rfl
    rfl
  exact ⟨third, hthird, (restores_iff hthird rfl).2 ⟨fun _ _ => ite_self _, fun _ _ => rfl⟩⟩

/-- A file that was there and is removed does not come back, and a file created
that cannot be removed is forgotten. -/
theorem removal_not_undone :
    (∃ s, History (managing (some [0])) [.remove samplePath] s ∧
        ¬ Restores (managing (some [0])).disk.files s) ∧
      ∃ s, History (managing none) [.create samplePath [0]] s ∧
        ¬ Restores (managing none).disk.files s := by
  refine ⟨⟨_, .removed .nil rfl, fun h => absurd (congrFun h samplePath) (by decide)⟩, ?_⟩
  let stuck : Managed := ⟨⟨[.created samplePath], []⟩,
    ⟨update (sampleFiles none) samplePath (some [0]), none, fun _ => some ⟨[], 0⟩⟩⟩
  have hstuck : History (managing none) [.create samplePath [0]] stuck := by
    refine .created .nil rfl ?_ rfl
    rfl
  exact ⟨stuck, hstuck, not_restores_of_not_undoable fun h =>
    Option.some_ne_none _ (h 0 (by decide))⟩

end FileManager

end SubxCore
