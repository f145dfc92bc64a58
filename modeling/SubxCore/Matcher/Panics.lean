import SubxCore.Matcher.Execution
/-!
# Where the engine panics

Planning a task unwraps: the target of a copy, and the resolution of a
target that is in the way. Executing a task does not. So whether an
operation panics is a matter of the disk its planning starts on, and
`Plannable` says when it does not.
-/

namespace SubxCore

open Text

variable {config : MatchConfig} {op : MatchOperation} {disk disk' : Disk} {base q : Path}
variable {policy : ConflictResolution} {stop : Stop}

/-- The path whose conflict is resolved when the task of an operation is
planned. -/
def conflictBase (op : MatchOperation) : Option Path :=
  if op.relocationMode = .copy ∨ op.requiresRelocation = true then op.relocationTargetPath else none

/-- The conflict at a path can be resolved, if there is one: not by a prompt,
and by a number only if some numbered file can be created. -/
def Resolvable (policy : ConflictResolution) (base : Path) (disk : Disk) : Prop :=
  (disk.files base).isSome → policy ≠ .prompt ∧ (policy = .autoRename →
    ∃ q disk', (probeFirst (numberedPaths base)).exec disk = (.ok q, disk'))

/-- **An operation that does not panic.** -/
structure Plannable (config : MatchConfig) (op : MatchOperation) (disk : Disk) : Prop where
  /-- A copy has a target. -/
  copyTarget : op.relocationMode = .copy → op.relocationTargetPath.isSome
  /-- A backup has an extension without separators. -/
  extension : op.relocationMode = .move → config.backupEnabled = true →
    '/' ∉ op.subtitleFile.extension
  /-- Once the backup is there, the conflict can be resolved. -/
  resolvable : ∀ backup disk', (makeBackup config op).exec disk = (.ok backup, disk') →
    ∀ base, conflictBase op = some base → Resolvable config.conflictResolution base disk'

/-! ## Resolving -/

theorem resolvable_of_resolve_eq_ok
    (h : (unwrap (resolveTargetConflict policy base)).exec disk = (.ok q, disk')) :
    Resolvable policy base disk := by
  intro hexists
  unfold unwrap resolveTargetConflict at h
  rw [Program.exec_mapError, Program.exec_bind] at h
  unfold fileExists at h
  rw [Program.exec_step] at h
  dsimp only at h
  rw [if_pos hexists] at h
  rcases policy with - | - | -
  · exact ⟨by decide, fun hpolicy => by cases hpolicy⟩
  · refine ⟨by decide, fun _ => ?_⟩
    rcases hprobe : (probeFirst (numberedPaths base)).exec disk with ⟨err | q', disk₁⟩
    · dsimp only at h
      rw [Program.exec_mapError, hprobe] at h
      cases h
    · exact ⟨q', disk₁, rfl⟩
  · cases h

/-- A conflict that cannot be resolved is a panic, and which one depends on
the policy. -/
theorem resolve_eq_error
    (h : (unwrap (resolveTargetConflict policy base)).exec disk = (.error stop, disk')) :
    ¬ Resolvable policy base disk ∧
      ((policy = .prompt ∧ stop = .panicked .stackOverflow) ∨
        (policy = .autoRename ∧ ∃ err, stop = .panicked (.unwrapErr err))) := by
  unfold unwrap resolveTargetConflict at h
  rw [Program.exec_mapError, Program.exec_bind] at h
  unfold fileExists at h
  rw [Program.exec_step] at h
  dsimp only at h
  split at h
  · next hexists =>
    rcases policy with - | - | -
    · cases h
    · dsimp only at h
      rw [Program.exec_mapError] at h
      rcases hprobe : (probeFirst (numberedPaths base)).exec disk with ⟨err | q', disk₁⟩
      · rw [hprobe] at h
        cases h
        refine ⟨fun hres => ?_, Or.inr ⟨rfl, err, rfl⟩⟩
        obtain ⟨q, disk₂, hq⟩ := (hres hexists).2 rfl
        rw [hprobe] at hq
        cases hq
      · rw [hprobe] at h
        cases h
    · cases h
      exact ⟨fun hres => (hres hexists).1 rfl, Or.inl ⟨rfl, rfl⟩⟩
  · cases h

/-! ## Planning a task -/

/-- What can go wrong when a task is planned. -/
theorem planTask_eq_error (h : (planTask config op).exec disk = (.error stop, disk')) :
    (op.relocationMode = .copy ∧ op.relocationTargetPath = none ∧
      stop = .panicked .unwrapNone) ∨
    (∃ base, conflictBase op = some base ∧ ¬ Resolvable config.conflictResolution base disk ∧
      ((config.conflictResolution = .prompt ∧ stop = .panicked .stackOverflow) ∨
        (config.conflictResolution = .autoRename ∧ ∃ err, stop = .panicked (.unwrapErr err)))) := by
  unfold planTask at h
  split at h
  · next hcopy =>
    unfold createCopyTask at h
    split at h
    · next hnone =>
      cases h
      exact Or.inl ⟨hcopy, hnone, rfl⟩
    · next base hbase =>
      rw [Program.exec_bind] at h
      rcases hresolve : (unwrap (resolveTargetConflict config.conflictResolution base)).exec disk
        with ⟨stop' | target, disk₁⟩
      · rw [hresolve] at h
        cases h
        exact Or.inr ⟨base, by rw [conflictBase, if_pos (Or.inl hcopy), hbase],
          resolve_eq_error hresolve⟩
      · rw [hresolve] at h
        cases h
  · unfold createRenameTask at h
    split at h
    · next base hrelocate hbase =>
      rw [Program.exec_bind] at h
      rcases hresolve : (unwrap (resolveTargetConflict config.conflictResolution base)).exec disk
        with ⟨stop' | target, disk₁⟩
      · rw [hresolve] at h
        cases h
        exact Or.inr ⟨base, by rw [conflictBase, if_pos (Or.inr hrelocate), hbase],
          resolve_eq_error hresolve⟩
      · rw [hresolve] at h
        cases h
    · cases h

/-- A task that was planned. -/
theorem planTask_eq_ok {task : ProcessingOperation}
    (h : (planTask config op).exec disk = (.ok task, disk')) :
    (op.relocationMode = .copy → op.relocationTargetPath.isSome) ∧
      ∀ base, conflictBase op = some base → Resolvable config.conflictResolution base disk := by
  unfold planTask at h
  split at h
  · next hcopy =>
    unfold createCopyTask at h
    split at h
    · cases h
    · next base hbase =>
      refine ⟨fun _ => by rw [hbase]; rfl, fun base' hbase' => ?_⟩
      rw [conflictBase, if_pos (Or.inl hcopy), hbase] at hbase'
      cases hbase'
      obtain ⟨target, disk₁, hresolve, -⟩ := Program.bind_eq_ok.1 h
      exact resolvable_of_resolve_eq_ok hresolve
  · next hcopy =>
    refine ⟨fun hmode => absurd hmode hcopy, fun base' hbase' => ?_⟩
    unfold createRenameTask at h
    unfold conflictBase at hbase'
    split at hbase'
    · next hrelocate =>
      rw [Or.resolve_left hrelocate hcopy, hbase'] at h
      obtain ⟨target, disk₁, hresolve, -⟩ := Program.bind_eq_ok.1 h
      exact resolvable_of_resolve_eq_ok hresolve
    · cases hbase'

/-! ## Backup and task -/

/-- A task that is executed fails, if it does, with an error. -/
theorem runTask_eq_error {task : ProcessingOperation}
    (h : (runTask task).exec disk = (.error stop, disk')) :
    ∃ message, stop = .failed (.fileOperationFailed message) := by
  unfold runTask at h
  rw [Program.exec_mapError] at h
  rcases hrun : task.execute.exec disk with ⟨message | u, disk₁⟩
  · rw [hrun] at h
    cases h
    exact ⟨message, rfl⟩
  · rw [hrun] at h
    cases h

/-- Only an operation that moves makes a backup. -/
theorem makeBackup_eq_error (h : (makeBackup config op).exec disk = (.error stop, disk')) :
    op.relocationMode = .move ∧ config.backupEnabled = true ∧
      (('/' ∈ op.subtitleFile.extension ∧ stop = .panicked .extensionSeparator) ∨
        ('/' ∉ op.subtitleFile.extension ∧
          ∃ message, stop = .failed (.fileOperationFailed message))) := by
  unfold makeBackup at h
  split at h
  · next hmove =>
    refine ⟨hmove.1, hmove.2, ?_⟩
    unfold createBackupTask at h
    split at h
    · next hext =>
      cases h
      exact Or.inl ⟨hext, rfl⟩
    · next hext =>
      refine Or.inr ⟨hext, ?_⟩
      rw [Program.exec_bind, Program.exec_pure] at h
      dsimp only at h
      rw [Program.exec_bind] at h
      rcases hrun : (runTask (.createBackup op.source (op.source.withExtension
        (op.subtitleFile.extension ++ ".backup".toList)))).exec disk with ⟨stop' | u, disk₁⟩
      · rw [hrun] at h
        cases h
        exact runTask_eq_error hrun
      · rw [hrun] at h
        cases h
  · cases h

theorem makeBackup_eq_ok {backup : Option Path}
    (h : (makeBackup config op).exec disk = (.ok backup, disk')) :
    op.relocationMode = .move → config.backupEnabled = true → '/' ∉ op.subtitleFile.extension := by
  intro hmove henabled
  unfold makeBackup at h
  rw [if_pos ⟨hmove, henabled⟩] at h
  unfold createBackupTask at h
  split at h
  · cases h
  · assumption

/-! ## One operation -/

/-- The operation once its backup is made. -/
theorem applyOperation_of_makeBackup {backup : Option Path}
    (hbackup : (makeBackup config op).exec disk = (.ok backup, disk')) :
    (applyOperation config op).exec disk =
      (do
        let task ← planTask config op
        let planned ← currentDisk
        runTask task
        let after ← currentDisk
        return (⟨op, backup, task, disk, planned, after⟩ : AppliedOperation) :
          Engine AppliedOperation).exec disk' := by
  unfold applyOperation
  rw [Program.exec_bind_of_ok (show currentDisk.exec disk = (.ok disk, disk) from rfl),
    Program.exec_bind_of_ok hbackup]

/-- **What stops an operation**: a backup or a task that fails, or a panic of
the planning. -/
theorem applyOperation_eq_error (h : (applyOperation config op).exec disk = (.error stop, disk')) :
    (∃ message, stop = .failed (.fileOperationFailed message) ∧ Plannable config op disk) ∨
      (∃ panic, stop = .panicked panic ∧ ¬ Plannable config op disk) := by
  rcases hbackup : (makeBackup config op).exec disk with ⟨stop' | backup, disk₁⟩
  · unfold applyOperation at h
    rw [Program.exec_bind_of_ok (show currentDisk.exec disk = (.ok disk, disk) from rfl),
      Program.exec_bind_of_error hbackup] at h
    cases h
    obtain ⟨hmove, henabled, ⟨hext, rfl⟩ | ⟨hext, message, rfl⟩⟩ := makeBackup_eq_error hbackup
    · exact Or.inr ⟨_, rfl, fun hplan => hplan.extension hmove henabled hext⟩
    · refine Or.inl ⟨message, rfl, fun hcopy => ?_, fun _ _ => hext, fun backup disk₂ hok => ?_⟩
      · rw [hcopy] at hmove
        cases hmove
      · rw [hbackup] at hok
        cases hok
  rw [applyOperation_of_makeBackup hbackup, Program.exec_bind] at h
  rcases hplan : (planTask config op).exec disk₁ with ⟨stop' | task, disk₂⟩
  · rw [hplan] at h
    cases h
    right
    rcases planTask_eq_error hplan with ⟨hcopy, hnone, rfl⟩ |
      ⟨base, hbase, hres, ⟨-, rfl⟩ | ⟨-, err, rfl⟩⟩
    · refine ⟨_, rfl, fun hp => ?_⟩
      have hsome := hp.copyTarget hcopy
      rw [hnone] at hsome
      cases hsome
    · exact ⟨_, rfl, fun hp => hres (hp.resolvable _ _ hbackup base hbase)⟩
    · exact ⟨_, rfl, fun hp => hres (hp.resolvable _ _ hbackup base hbase)⟩
  · rw [hplan] at h
    dsimp only at h
    rw [Program.exec_bind_of_ok (show currentDisk.exec disk₂ = (.ok disk₂, disk₂) from rfl),
      Program.exec_bind] at h
    rcases hrun : (runTask task).exec disk₂ with ⟨stop' | u, disk₃⟩
    · rw [hrun] at h
      cases h
      obtain ⟨message, rfl⟩ := runTask_eq_error hrun
      obtain ⟨hcopy, hres⟩ := planTask_eq_ok hplan
      refine Or.inl ⟨message, rfl, hcopy, makeBackup_eq_ok hbackup, fun backup' disk₄ hok => ?_⟩
      rw [hbackup] at hok
      cases hok
      exact hres
    · rw [hrun] at h
      cases h

/-- An operation that is carried out was planned. -/
theorem plannable_of_applyOperation_eq_ok {done : AppliedOperation}
    (h : (applyOperation config op).exec disk = (.ok done, disk')) : Plannable config op disk := by
  unfold applyOperation at h
  rw [Program.exec_bind_of_ok (show currentDisk.exec disk = (.ok disk, disk) from rfl)] at h
  obtain ⟨backup, disk₁, hbackup, h⟩ := Program.bind_eq_ok.1 h
  obtain ⟨task, disk₂, hplan, -⟩ := Program.bind_eq_ok.1 h
  obtain ⟨hcopy, hres⟩ := planTask_eq_ok hplan
  refine ⟨hcopy, makeBackup_eq_ok hbackup, fun backup' disk₄ hok => ?_⟩
  rw [hbackup] at hok
  cases hok
  exact hres

end SubxCore
