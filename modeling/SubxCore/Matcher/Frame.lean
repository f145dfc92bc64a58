import SubxCore.Matcher.Execution
/-!
# What a batch keeps

A batch of operations may lose the subtitle files it moves, and one kind of
file it should not: under the skip policy a copy goes to its target even
when a file is there, and the copy truncates what it finds. Every other
path through the engine creates its files only where none is. So a file
that is no source of a move or rename, and no target of a copy under the
skip policy, is kept by every batch, whichever calls fail on the way.
-/

namespace SubxCore

open Text Function

variable {lost : Path → Prop} {disk disk' : Disk} {p q : Path} {ps : List Path}
variable {config : MatchConfig} {op : MatchOperation} {ops : List MatchOperation}
variable {policy : ConflictResolution} {task : ProcessingOperation}

/-! ## Planning -/

/-- Probing for a free path loses nothing. -/
theorem probeFirst_spec (lost : Path → Prop) :
    ∀ {ps : List Path} {disk : Disk} {r : Except SubXError Path},
    (probeFirst ps).exec disk = (r, disk') →
      FilesKept lost disk disk' ∧ ∀ q, r = .ok q → FirstFree disk.files ps q
  | [], _, _, h => by
    cases h
    exact ⟨.of_eq rfl, fun q h => by cases h⟩
  | p :: ps, disk, r, h => by
    rw [probeFirst, Program.exec_bind, Program.exec_attempt] at h
    rcases hcreate : (atomicCreateFile p).exec disk with ⟨err | u, disk₁⟩
    · rw [hcreate] at h
      have hfiles := fileCall_eq_error hcreate
      rcases err with - | - | message
      · obtain ⟨hkept, hfree⟩ := probeFirst_spec lost h
        refine ⟨fun q content hq => hkept q content (hfiles ▸ hq), fun q hr => ?_⟩
        obtain ⟨before, after, rfl, hbefore, hq⟩ := hfree q hr
        rw [hfiles] at hbefore hq
        refine ⟨p :: before, after, rfl, fun s hs => ?_, hq⟩
        rcases List.mem_cons.1 hs with rfl | hs
        · exact atomicCreateFile_alreadyExists hcreate
        · exact hbefore s hs
      · cases h
        exact ⟨.of_eq hfiles, fun q h => by cases h⟩
      · cases h
        exact ⟨.of_eq hfiles, fun q h => by cases h⟩
    · rw [hcreate] at h
      obtain ⟨hp, hfiles₁⟩ := atomicCreateFile_eq_ok hcreate
      dsimp only at h
      rw [Program.exec_bind, Program.exec_attempt] at h
      cases h
      refine ⟨?_, fun q h => ?_⟩
      · -- the file is gone again, or stays behind where none was
        rcases hremove : (removeFile p).exec disk₁ with ⟨err | u, disk₂⟩
        · exact .of_update_new hp ((fileCall_eq_error hremove).trans hfiles₁)
        · have hfiles₂ : disk₂.files = update disk.files p none := by
            rw [removeFile_eq_ok hremove, hfiles₁, update_idem]
          exact .of_update_new hp hfiles₂
      · cases h
        exact ⟨[], ps, rfl, fun r hr => (List.not_mem_nil hr).elim, hp⟩

/-- **Planning a target** loses nothing, and ends at a path without a file
unless the policy is to skip. -/
theorem resolveTargetConflict_spec (lost : Path → Prop) {target : Path} {r : Except Stop Path}
    (h : (unwrap (resolveTargetConflict policy target)).exec disk = (r, disk')) :
    FilesKept lost disk disk' ∧
      ∀ q, r = .ok q → (disk.files q = none ∧ q ∈ numberedPaths target) ∨
        (policy = .skip ∧ q = target) := by
  unfold unwrap resolveTargetConflict at h
  rw [Program.exec_mapError, Program.exec_bind] at h
  unfold fileExists at h
  rw [Program.exec_step] at h
  dsimp only at h
  split at h
  · rcases policy with - | - | -
    · cases h
      refine ⟨.of_eq rfl, fun q h => ?_⟩
      cases h
      exact Or.inr ⟨rfl, rfl⟩
    · dsimp only at h
      rw [Program.exec_mapError] at h
      rcases hprobe : (probeFirst (numberedPaths target)).exec disk with ⟨r', disk₁⟩
      obtain ⟨hkept, hfree⟩ := probeFirst_spec lost hprobe
      rw [hprobe] at h
      cases h
      refine ⟨hkept, fun q h => ?_⟩
      rcases r' with err | q'
      · cases h
      · cases h
        exact Or.inl ⟨(hfree q rfl).free, (hfree q rfl).mem⟩
    · cases h
      exact ⟨.of_eq rfl, fun q h => by cases h⟩
  · next hexists =>
    cases h
    refine ⟨.of_eq rfl, fun q h => ?_⟩
    cases h
    rw [Bool.not_eq_true, Option.isSome_eq_false_iff, Option.isNone_iff_eq_none] at hexists
    exact Or.inl ⟨hexists, List.mem_cons_self⟩

/-- What a task of an operation can be. -/
inductive Planned (config : MatchConfig) (op : MatchOperation) (disk : Disk) :
    ProcessingOperation → Prop
  /-- A copy to a path without a file, or over its target under the skip
  policy. -/
  | copy {target : Path} : op.relocationMode = .copy →
      (disk.files target = none ∨
        config.conflictResolution = .skip ∧ op.relocationTargetPath = some target) →
      Planned config op disk (.copyWithRename op.source target)
  /-- A rename. -/
  | rename {target : Path} : op.relocationMode ≠ .copy →
      Planned config op disk (.renameFile op.source target)

/-- **Planning a task** loses nothing. -/
theorem planTask_spec (lost : Path → Prop) {r : Except Stop ProcessingOperation}
    (h : (planTask config op).exec disk = (r, disk')) :
    FilesKept lost disk disk' ∧ ∀ task, r = .ok task → Planned config op disk task := by
  unfold planTask at h
  split at h
  · next hcopy =>
    unfold createCopyTask at h
    split at h
    · cases h
      exact ⟨.of_eq rfl, fun task h => by cases h⟩
    · next base hbase =>
      rw [Program.exec_bind] at h
      rcases hresolve : (unwrap (resolveTargetConflict config.conflictResolution base)).exec disk
        with ⟨stop | target, disk₁⟩
      · rw [hresolve] at h
        cases h
        exact ⟨(resolveTargetConflict_spec lost hresolve).1, fun task h => by cases h⟩
      · rw [hresolve] at h
        cases h
        obtain ⟨hkept, htarget⟩ := resolveTargetConflict_spec lost hresolve
        refine ⟨hkept, fun task h => ?_⟩
        cases h
        refine .copy hcopy ?_
        rcases htarget target rfl with ⟨hfree, -⟩ | ⟨hskip, rfl⟩
        · exact Or.inl hfree
        · exact Or.inr ⟨hskip, hbase⟩
  · next hcopy =>
    unfold createRenameTask at h
    split at h
    · next base _ hbase =>
      rw [Program.exec_bind] at h
      rcases hresolve : (unwrap (resolveTargetConflict config.conflictResolution base)).exec disk
        with ⟨stop | target, disk₁⟩
      · rw [hresolve] at h
        cases h
        exact ⟨(resolveTargetConflict_spec lost hresolve).1, fun task h => by cases h⟩
      · rw [hresolve] at h
        cases h
        refine ⟨(resolveTargetConflict_spec lost hresolve).1, fun task h => ?_⟩
        cases h
        exact .rename hcopy
    · cases h
      refine ⟨.of_eq rfl, fun task h => ?_⟩
      cases h
      exact .rename hcopy

/-- Making a backup loses nothing. -/
theorem makeBackup_kept (config : MatchConfig) (op : MatchOperation) (disk : Disk) :
    FilesKept lost disk ((makeBackup config op).exec disk).2 := by
  unfold makeBackup
  split
  · unfold createBackupTask
    split
    · exact .of_eq rfl
    · have hkeeps : Program.Keeps (FilesKept lost)
          (runTask (.createBackup op.source
            (op.source.withExtension (op.subtitleFile.extension ++ ".backup".toList)))) :=
        .mapError (.mapError (copyInto_kept _ _))
      exact (hkeeps.bind fun _ => .pure _) disk
  · exact .of_eq rfl

/-! ## One operation -/

/-- What an operation may lose: the subtitle it moves, and the target it
copies over. -/
def MayLose (config : MatchConfig) (op : MatchOperation) (p : Path) : Prop :=
  (op.relocationMode ≠ .copy ∧ p = op.source) ∨
    (config.conflictResolution = .skip ∧ op.relocationMode = .copy ∧
      op.relocationTargetPath = some p)

/-- A planned task loses no more than its operation may. The disk is the one
the planning started on. -/
theorem runTask_kept {disk₁ : Disk} (hplanned : Planned config op disk task)
    (hkept : FilesKept (MayLose config op) disk disk₁) :
    FilesKept (MayLose config op) disk ((runTask task).exec disk₁).2 := by
  cases hplanned with
  | @copy target hcopy htarget =>
    have hrun : FilesKept (· = target) disk₁
        ((runTask (.copyWithRename op.source target)).exec disk₁).2 :=
      executeCopyWithRenameOperation_kept op.source target disk₁
    intro p content hp hlost
    refine hrun p content (hkept p content hp hlost) fun heq => ?_
    subst heq
    rcases htarget with hfree | ⟨hskip, htarget⟩
    · rw [hfree] at hp
      cases hp
    · exact hlost (Or.inr ⟨hskip, hcopy, htarget⟩)
  | @rename target hcopy =>
    have hrun : FilesKept (· = op.source) disk₁
        ((runTask (.renameFile op.source target)).exec disk₁).2 :=
      moveInto_kept op.source target disk₁
    exact hkept.trans (hrun.mono fun p hp => Or.inl ⟨hcopy, hp⟩)

/-- **An operation loses no more than it may.** -/
theorem applyOperation_kept (config : MatchConfig) (op : MatchOperation) (disk : Disk) :
    FilesKept (MayLose config op) disk ((applyOperation config op).exec disk).2 := by
  rcases h : (applyOperation config op).exec disk with ⟨r, disk'⟩
  unfold applyOperation at h
  rw [Program.exec_bind_of_ok (show currentDisk.exec disk = (.ok disk, disk) from rfl),
    Program.exec_bind] at h
  have hbackup : FilesKept (MayLose config op) disk _ := makeBackup_kept config op disk
  rcases hmake : (makeBackup config op).exec disk with ⟨stop | backupPath, disk₁⟩
  · rw [hmake] at h hbackup
    cases h
    exact hbackup
  rw [hmake] at h hbackup
  dsimp only at h
  rw [Program.exec_bind] at h
  rcases hplan : (planTask config op).exec disk₁ with ⟨stop | task, disk₂⟩
  · rw [hplan] at h
    cases h
    exact hbackup.trans (planTask_spec _ hplan).1
  rw [hplan] at h
  dsimp only at h
  obtain ⟨hkept, hplanned⟩ := planTask_spec (MayLose config op) hplan
  have hrun := runTask_kept (hplanned task rfl) hkept
  rw [Program.exec_bind_of_ok (show currentDisk.exec disk₂ = (.ok disk₂, disk₂) from rfl),
    Program.exec_bind] at h
  rcases hexec : (runTask task).exec disk₂ with ⟨stop | u, disk₃⟩
  · rw [hexec] at h hrun
    cases h
    exact hbackup.trans hrun
  · rw [hexec] at h hrun
    cases h
    exact hbackup.trans hrun

theorem persist_files (hasJournal : Bool) (applied : List AppliedOperation) (disk : Disk) :
    ((persist hasJournal applied).exec disk).2.files = disk.files := by
  unfold persist
  split
  · unfold saveJournal
    rw [Program.exec_step]
    split <;> rfl
  · rfl

/-! ## Batches -/

/-- What some operations may lose. -/
def BatchMayLose (config : MatchConfig) (ops : List MatchOperation) (p : Path) : Prop :=
  ∃ op ∈ ops, MayLose config op p

theorem executeFrom_kept (config : MatchConfig) (hasJournal : Bool) :
    ∀ (ops : List MatchOperation) (applied : List AppliedOperation) (disk : Disk),
      FilesKept (BatchMayLose config ops) disk (executeFrom config hasJournal ops applied disk).disk
  | [], _, _ => .of_eq rfl
  | op :: ops, applied, disk => by
    have hfirst : FilesKept (BatchMayLose config (op :: ops)) disk _ :=
      (applyOperation_kept config op disk).mono fun p hp => ⟨op, List.mem_cons_self, hp⟩
    unfold executeFrom
    rcases happly : (applyOperation config op).exec disk with ⟨stop | done, disk₁⟩
    · rw [happly] at hfirst
      exact hfirst
    rw [happly] at hfirst
    dsimp only
    have hfiles := persist_files hasJournal (applied ++ [done]) disk₁
    rcases hpersist : (persist hasJournal (applied ++ [done])).exec disk₁ with ⟨stop | u, disk₂⟩
    · rw [hpersist] at hfiles
      exact hfirst.trans (.of_eq hfiles)
    · rw [hpersist] at hfiles
      refine (hfirst.trans (.of_eq hfiles)).trans ?_
      exact (executeFrom_kept config hasJournal ops (applied ++ [done]) disk₂).mono
        fun p ⟨op', hop, hp⟩ => ⟨op', List.mem_cons_of_mem _ hop, hp⟩

theorem executeAuditFrom_kept (config : MatchConfig) (hasJournal : Bool) (cancelled : ℕ → Bool) :
    ∀ (ops : List MatchOperation) (outcomes : List OperationOutcome)
      (applied : List AppliedOperation) (disk : Disk),
      FilesKept (BatchMayLose config ops) disk
        (executeAuditFrom config hasJournal cancelled ops outcomes applied disk).disk
  | [], _, _, _ => .of_eq rfl
  | op :: ops, outcomes, applied, disk => by
    have hrest : ∀ p, BatchMayLose config ops p → BatchMayLose config (op :: ops) p :=
      fun p ⟨op', hop, hp⟩ => ⟨op', List.mem_cons_of_mem _ hop, hp⟩
    have hfirst : FilesKept (BatchMayLose config (op :: ops)) disk _ :=
      (applyOperation_kept config op disk).mono fun p hp => ⟨op, List.mem_cons_self, hp⟩
    unfold executeAuditFrom
    split
    · exact .of_eq rfl
    rcases happly : (applyOperation config op).exec disk with ⟨(err | panic) | done, disk₁⟩
    · rw [happly] at hfirst
      exact hfirst.trans
        ((executeAuditFrom_kept config hasJournal cancelled ops _ applied disk₁).mono hrest)
    · rw [happly] at hfirst
      exact hfirst
    rw [happly] at hfirst
    dsimp only
    have hfiles := persist_files hasJournal (applied ++ [done]) disk₁
    rcases hpersist : (persist hasJournal (applied ++ [done])).exec disk₁ with ⟨stop | u, disk₂⟩
    · rw [hpersist] at hfiles
      exact hfirst.trans (.of_eq hfiles)
    · rw [hpersist] at hfiles
      exact (hfirst.trans (.of_eq hfiles)).trans
        ((executeAuditFrom_kept config hasJournal cancelled ops _ _ disk₂).mono hrest)

theorem executeOperations_kept (config : MatchConfig) (hasJournal : Bool)
    (ops : List MatchOperation) (dryRun : Bool) (disk : Disk) :
    FilesKept (BatchMayLose config ops) disk
      (executeOperations config hasJournal ops dryRun disk).disk := by
  unfold executeOperations
  split
  · exact .of_eq rfl
  · exact executeFrom_kept config hasJournal ops [] disk

theorem executeOperationsAudit_kept (config : MatchConfig) (hasJournal : Bool)
    (cancelled : ℕ → Bool) (ops : List MatchOperation) (dryRun : Bool) (disk : Disk) :
    FilesKept (BatchMayLose config ops) disk
      (executeOperationsAudit config hasJournal cancelled ops dryRun disk).disk := by
  unfold executeOperationsAudit
  split
  · exact .of_eq rfl
  · exact executeAuditFrom_kept config hasJournal cancelled ops [] [] disk

/-- **A batch keeps every file it does not move**, and the sources of its
copies, unless the file is where the skip policy lets a copy go: whichever
calls fail, however the batch ends, and whether it is audited or not. -/
theorem execute_keeps_file (config : MatchConfig) (hasJournal : Bool) (cancelled : ℕ → Bool)
    (ops : List MatchOperation) (disk : Disk) (p : Path) (content : Bytes)
    (hp : disk.files p = some content)
    (hsource : ∀ op ∈ ops, op.source = p → op.relocationMode = .copy)
    (hskip : config.conflictResolution = .skip → ∀ op ∈ ops, op.relocationMode = .copy →
      op.relocationTargetPath ≠ some p) :
    (executeOperations config hasJournal ops false disk).disk.files p = some content ∧
      (executeOperationsAudit config hasJournal cancelled ops false disk).disk.files p =
        some content := by
  have hlost : ¬ BatchMayLose config ops p := by
    rintro ⟨op, hop, ⟨hmode, rfl⟩ | ⟨hpolicy, hmode, htarget⟩⟩
    · exact hmode (hsource op hop rfl)
    · exact hskip hpolicy op hop hmode htarget
  exact ⟨executeOperations_kept config hasJournal ops false disk p content hp hlost,
    executeOperationsAudit_kept config hasJournal cancelled ops false disk p content hp hlost⟩

/-- A copy of a subtitle next to its video. -/
def copyOperation (source target : Text) : MatchOperation where
  videoFile :=
    ⟨"v".toList, Path.ofText "/films/movie.mkv".toList, .video, 9, "movie.mkv".toList,
      "mkv".toList, "movie.mkv".toList⟩
  subtitleFile := ⟨"s".toList, Path.ofText source, .subtitle, 2, source, "srt".toList, source⟩
  newSubtitleName := "movie.srt".toList
  confidence := 1
  reasoning := []
  relocationMode := .copy
  relocationTargetPath := some (Path.ofText target)
  requiresRelocation := true

/-- A subtitle to be copied, and one that is where the copy is to go. -/
def occupiedTarget : FileSystem :=
  update (update (fun _ => none) (Path.ofText "/subs/a.srt".toList) (some [1, 2]))
    (Path.ofText "/films/movie.srt".toList) (some [3])

/-- Under automatic renaming the file in the way stays. -/
theorem execute_keeps_file_occupiedTarget :
    (executeOperations ⟨false, .copy, .autoRename⟩ true
        [copyOperation "/subs/a.srt".toList "/films/movie.srt".toList] false
        (.sound occupiedTarget)).disk.files (Path.ofText "/films/movie.srt".toList) =
      some [3] ∧
    (executeOperationsAudit ⟨false, .copy, .autoRename⟩ true (fun _ => false)
        [copyOperation "/subs/a.srt".toList "/films/movie.srt".toList] false
        (.sound occupiedTarget)).disk.files (Path.ofText "/films/movie.srt".toList) =
      some [3] :=
  execute_keeps_file ⟨false, .copy, .autoRename⟩ true (fun _ => false)
    [copyOperation "/subs/a.srt".toList "/films/movie.srt".toList] (.sound occupiedTarget) _ [3]
    (by decide +kernel) (by decide +kernel) (fun h => by cases h)

/-- **The skip policy does not keep the file in the way**: the copy goes over
it. -/
theorem execute_overwrites_occupiedTarget :
    ¬ ∀ (config : MatchConfig) (hasJournal : Bool) (cancelled : ℕ → Bool)
      (ops : List MatchOperation) (disk : Disk) (p : Path) (content : Bytes),
      disk.files p = some content → (∀ op ∈ ops, op.source ≠ p) →
        (executeOperations config hasJournal ops false disk).disk.files p = some content ∧
          (executeOperationsAudit config hasJournal cancelled ops false disk).disk.files p =
            some content := by
  intro h
  have hrun : (executeOperations ⟨false, .copy, .skip⟩ true
      [copyOperation "/subs/a.srt".toList "/films/movie.srt".toList] false
      (.sound occupiedTarget)).disk.files (Path.ofText "/films/movie.srt".toList) =
        some [1, 2] := by
    decide +kernel
  have hkept := (h ⟨false, .copy, .skip⟩ true (fun _ => false)
    [copyOperation "/subs/a.srt".toList "/films/movie.srt".toList] (.sound occupiedTarget)
    (Path.ofText "/films/movie.srt".toList) [3] (by decide +kernel) (by decide +kernel)).1
  rw [hrun] at hkept
  cases hkept

end SubxCore
