import SubxCore.Common.Moves
import SubxCore.Matcher.JournalTruth
import SubxCore.Matcher.NumberedPaths
import SubxCore.Matcher.SharedCache
/-!
# From the plan to what happens

A plan says of every subtitle where it goes, and the executor decides that
once more when it gets there: a target that is in the way sends the subtitle
to a numbered name. So a plan that moves or renames happens as planned when
its moves do not get in each other's way and there is room for the backups
(`Unhindered`). A subtitle that has its new name already is in its own way:
the planner does not count it, the executor does.
-/

namespace SubxCore

open Text Function MatchOperation

variable {config : MatchConfig} {plan : PlanConfig} {op : MatchOperation}
variable {ops : List MatchOperation} {initial files : FileSystem} {content : Bytes}
variable {journal : Option (List JournalEntry)} {disk disk' : Disk} {p q : Path} {ps : List Path}

/-! ## Operations of a plan -/

/-- Where an operation takes its subtitle, as planned. -/
def MatchOperation.move (op : MatchOperation) : Path × Path := (op.source, op.finalTarget)

/-- Where the backup of a subtitle goes. -/
def MatchOperation.backupTarget (op : MatchOperation) : Path :=
  op.source.withExtension (op.subtitleFile.extension ++ ".backup".toList)

/-- A file with the extension of a media file is no backup. -/
theorem not_isBackup_of_mem {ext : Text} (hext : p.extension = some ext)
    (hmem : toLowercase ext ∈ videoExtensions ++ subtitleExtensions) : ¬ IsBackup p := by
  intro hbackup
  rw [IsBackup, hext] at hbackup
  rw [Option.some.inj hbackup] at hmem
  exact absurd hmem (by decide)

/-- A subtitle is no backup. -/
theorem IsPlanned.source_visible (h : IsPlanned plan initial op) : ¬ IsBackup op.source := by
  have hmem := mem_extensions h.subtitle.fileType
  rw [h.subtitle.extension] at hmem
  rcases hext : op.source.extension with - | ext
  · intro hbackup
    rw [IsBackup, hext] at hbackup
    cases hbackup
  · refine not_isBackup_of_mem hext ?_
    rwa [show op.subtitleFile.path.extension = some ext from hext, Option.getD_some] at hmem

/-- Nor is any path tried for it. -/
theorem IsPlanned.target_visible (h : IsPlanned plan initial op)
    (hq : q ∈ numberedPaths op.finalTarget) : ¬ IsBackup q := by
  obtain ⟨base, hbase, ext, hmem, hname⟩ := h.subtitleName
  have hdots : ∀ e ∈ subtitleExtensions, '.' ∉ e ∧ e ≠ [] := by decide
  have hlower : ∀ e ∈ subtitleExtensions,
      toLowercase e ∈ videoExtensions ++ subtitleExtensions := by decide
  have hext : op.finalTarget.extension = some ext := by
    rw [Path.extension, h.fileName_finalTarget, Option.bind_some]
    dsimp only
    rw [hname, splitExtension_append hbase (hdots ext hmem).1]
  exact not_isBackup_of_mem (extension_of_mem_numberedPaths hext (hdots ext hmem).2 hq)
    (hlower ext hmem)

/-- The backup of a subtitle lies beside it. -/
theorem IsPlanned.backupTarget (h : IsPlanned plan initial op) :
    op.backupTarget.fileName.isSome ∧ op.backupTarget.parent = op.source.parent ∧
      IsBackup op.backupTarget := by
  obtain ⟨dir, name, hpath, -⟩ := h.subtitle.exists_name
  have hslash : '/' ∉ op.subtitleFile.extension := by
    have hextensions : ∀ e ∈ videoExtensions ++ subtitleExtensions, '/' ∉ e := by decide
    exact hextensions _ (mem_extensions h.subtitle.fileType)
  obtain ⟨name', htarget, hbackup⟩ := withExtension_backup dir name hslash
  have hsource : op.source = dir ++ [.normal name] := hpath
  have hbackupTarget : op.backupTarget = dir ++ [.normal name'] := by
    rw [MatchOperation.backupTarget, hsource, htarget]
  rw [hbackupTarget, hsource, Path.fileName_concat, Path.parent_concat, Path.parent_concat]
  exact ⟨rfl, rfl, hbackup⟩

/-- An operation that stays in its directory is renamed to its target. -/
theorem IsPlanned.withFileName (h : IsPlanned plan initial op)
    (hnone : op.relocationTargetPath = none) :
    op.source.withFileName op.newSubtitleName = op.finalTarget := by
  obtain ⟨dir, name, hpath, -⟩ := h.subtitle.exists_name
  have hsource : op.source = dir ++ [.normal name] := hpath
  rw [finalTarget, hnone]
  dsimp only
  rw [hsource, Path.parent_concat, Option.getD_some]
  rw [Path.withFileName_concat h.newSubtitleName, Path.join_of_isFileName dir h.newSubtitleName]

/-! ## The engine on a healthy disk -/

/-- **Probing** finds the first free path and leaves the files. -/
theorem probeFirst_healthy : ∀ ps, (probeFirst ps).exec (.healthy files journal) =
    match firstFree files ps with
    | some q => (.ok q, .healthy files journal)
    | none => (.error (.fileOperationFailed "Could not resolve filename conflict".toList),
        .healthy files journal)
  | [] => rfl
  | p :: ps => by
    rw [probeFirst, Program.exec_bind, Program.exec_attempt, atomicCreateFile_healthy]
    rcases hp : files p with - | content
    · have hgone : update (update files p (some [])) p none = files := by
        rw [update_idem, ← hp, update_eq_self]
      rw [firstFree_cons_of_free hp]
      dsimp only
      rw [Program.exec_bind, Program.exec_attempt, removeFile_healthy (update_self ..), hgone]
      rfl
    · rw [firstFree_cons_of_taken hp]
      exact probeFirst_healthy ps

/-- A target that is free is settled on. -/
theorem resolveTargetConflict_of_free {policy : ConflictResolution} (hp : files p = none) :
    (unwrap (resolveTargetConflict policy p)).exec (.healthy files journal) =
      (.ok p, .healthy files journal) := by
  have hexists : (fileExists p : Engine Bool).exec (.healthy files journal) =
      (.ok false, .healthy files journal) := by
    rw [fileExists_healthy, hp]
    rfl
  unfold unwrap resolveTargetConflict
  rw [Program.exec_mapError, Program.exec_bind_of_ok hexists, if_neg Bool.false_ne_true]
  rfl

/-- One that is not is numbered. -/
theorem resolveTargetConflict_of_taken (hp : files p = some content)
    (h : (unwrap (resolveTargetConflict .autoRename p)).exec (.healthy files journal) =
      (.ok q, disk')) :
    disk' = .healthy files journal ∧ firstFree files (numberedPaths p) = some q := by
  have hexists : (fileExists p : Engine Bool).exec (.healthy files journal) =
      (.ok true, .healthy files journal) := by
    rw [fileExists_healthy, hp]
    rfl
  unfold unwrap resolveTargetConflict at h
  rw [Program.exec_mapError, Program.exec_bind_of_ok hexists, if_pos rfl, Program.exec_mapError,
    probeFirst_healthy] at h
  rcases hfree : firstFree files (numberedPaths p) with - | q'
  · rw [hfree] at h
    cases h
  · rw [hfree] at h
    cases h
    exact ⟨rfl, rfl⟩

/-- The task of an operation whose target is free. -/
theorem planTask_of_free (h : IsPlanned plan initial op) (hmode : op.relocationMode ≠ .copy)
    (hfree : files op.finalTarget = none) :
    (planTask config op).exec (.healthy files journal) =
      (.ok (.renameFile op.source op.finalTarget), .healthy files journal) := by
  rw [planTask, if_neg hmode, createRenameTask]
  rcases h.relocationTargetPath_eq with ⟨hfalse, hnone⟩ | ⟨dir, name, -, htrue, hsome⟩
  · rw [hfalse, hnone]
    dsimp only
    rw [h.withFileName hnone]
    rfl
  · have htarget : op.finalTarget = dir.join op.newSubtitleName := by rw [finalTarget, hsome]
    rw [htrue, hsome]
    dsimp only
    rw [← htarget, Program.exec_bind_of_ok (resolveTargetConflict_of_free hfree)]
    rfl

/-- **The task of an operation** is to rename its subtitle, to its target or one
of the numbered paths of that. -/
theorem planTask_eq_ok_healthy {task : ProcessingOperation} (h : IsPlanned plan initial op)
    (hmode : op.relocationMode ≠ .copy) (hpolicy : config.conflictResolution = .autoRename)
    (hplan : (planTask config op).exec (.healthy files journal) = (.ok task, disk')) :
    disk' = .healthy files journal ∧ ∃ r, task = .renameFile op.source r ∧
      (r = op.finalTarget ∨ r ∈ numberedPaths op.finalTarget ∧ files r = none) ∧
      (files op.finalTarget = none → r = op.finalTarget) := by
  rcases htarget : files op.finalTarget with - | content
  · rw [planTask_of_free h hmode htarget] at hplan
    cases hplan
    exact ⟨rfl, _, rfl, Or.inl rfl, fun _ => rfl⟩
  rw [planTask, if_neg hmode, createRenameTask] at hplan
  rcases h.relocationTargetPath_eq with ⟨hfalse, hnone⟩ | ⟨dir, name, -, htrue, hsome⟩
  · rw [hfalse, hnone] at hplan
    dsimp only at hplan
    rw [h.withFileName hnone] at hplan
    cases hplan
    exact ⟨rfl, _, rfl, Or.inl rfl, fun _ => rfl⟩
  · have hbase : op.finalTarget = dir.join op.newSubtitleName := by rw [finalTarget, hsome]
    rw [htrue, hsome] at hplan
    dsimp only at hplan
    rw [← hbase, hpolicy] at hplan
    obtain ⟨r, disk₁, hresolve, hplan⟩ := Program.bind_eq_ok.1 hplan
    obtain ⟨rfl, hfirst⟩ := resolveTargetConflict_of_taken htarget hresolve
    cases hplan
    exact ⟨rfl, r, rfl, Or.inr (firstFree_eq_some hfirst), fun hnone => by cases hnone⟩

/-! ## Backups -/

/-- Whether backups are made. -/
def MatchConfig.MakesBackups (config : MatchConfig) : Prop :=
  config.relocationMode = .move ∧ config.backupEnabled = true

instance (config : MatchConfig) : Decidable config.MakesBackups :=
  inferInstanceAs (Decidable (_ ∧ _))

theorem makeBackup_of_not (h : ¬ (op.relocationMode = .move ∧ config.backupEnabled = true)) :
    (makeBackup config op).exec disk = (.ok none, disk) := by
  rw [makeBackup, if_neg h]
  rfl

/-- Making a backup is streaming the subtitle into it. -/
theorem makeBackup_of_moves (h : IsPlanned plan initial op)
    (hwants : op.relocationMode = .move ∧ config.backupEnabled = true) :
    (makeBackup config op).exec (.healthy files journal) =
      match (streamInto op.source op.backupTarget).exec (.healthy files journal) with
      | (.ok (), disk) => (.ok (some op.backupTarget), disk)
      | (.error err, disk) => (.error (.failed (.fileOperationFailed
          ("Backup failed: ".toList ++ err.display))), disk) := by
  have hslash : '/' ∉ op.subtitleFile.extension := by
    have hextensions : ∀ e ∈ videoExtensions ++ subtitleExtensions, '/' ∉ e := by decide
    exact hextensions _ (mem_extensions h.subtitle.fileType)
  have htask : (createBackupTask op.source op.subtitleFile.extension).exec
      (.healthy files journal) = (.ok (.createBackup op.source op.backupTarget),
        .healthy files journal) := by
    rw [createBackupTask, if_neg hslash]
    rfl
  rw [makeBackup, if_pos hwants, Program.exec_bind_of_ok htask, Program.exec_bind, runTask,
    Program.exec_mapError, ProcessingOperation.execute, Program.exec_mapError,
    executeCreateBackupOperation, copyInto_healthy]
  rcases (streamInto op.source op.backupTarget).exec (.healthy files journal) with
    ⟨err | u, disk₁⟩ <;> rfl

/-- **A backup that is made** takes a free path, and a subtitle to be copied. -/
theorem makeBackup_eq_ok_healthy {backup : Option Path} (h : IsPlanned plan initial op)
    (hbackup : (makeBackup config op).exec (.healthy files journal) = (.ok backup, disk')) :
    ∃ files', disk' = .healthy files' journal ∧ (∀ p, ¬ IsBackup p → files' p = files p) := by
  have hkeeps := callKeeps_keepsSound.closed.makeBackup config op (.healthy files journal)
    fun _ => rfl
  have hjournal := callKeeps_sameJournal.closed.makeBackup config op (.healthy files journal)
  rw [hbackup] at hkeeps hjournal
  refine ⟨disk'.files, Disk.eq_healthy hkeeps hjournal, fun p hp => ?_⟩
  by_cases hwants : op.relocationMode = .move ∧ config.backupEnabled = true
  · rw [makeBackup_of_moves h hwants] at hbackup
    split at hbackup
    · next disk₁ hstream =>
      cases hbackup
      obtain ⟨q, content, hfree, hfiles, -⟩ := streamInto_eq_ok_cases hstream
      have hne : p ≠ q := by
        rintro rfl
        exact hp (isBackup_of_mem_numberedPaths h.backupTarget.2.2 hfree.mem)
      rw [hfiles, update_of_ne hne]
      rfl
    · cases hbackup
  · rw [makeBackup_of_not hwants] at hbackup
    cases hbackup
    rfl

/-- A backup with a free path in a directory is made. -/
theorem makeBackup_of_room (journal : Option (List JournalEntry)) (h : IsPlanned plan initial op)
    (hwants : op.relocationMode = .move ∧ config.backupEnabled = true)
    (hsource : files op.source = some content) (hparent : op.source.parent ≠ some [])
    (hq : firstFree files (numberedPaths op.backupTarget) = some q) :
    (makeBackup config op).exec (.healthy files journal) =
      (.ok (some op.backupTarget), .healthy (update files q (some content)) journal) := by
  obtain ⟨hname, hbeside, -⟩ := h.backupTarget
  have hqparent : q.parent ≠ some [] := by
    rw [parent_of_mem_numberedPaths hname (firstFree_eq_some hq).1, hbeside]
    exact hparent
  rw [makeBackup_of_moves h hwants, streamInto_healthy hsource hq hqparent]

/-- And no other. -/
theorem room_of_makeBackup {backup : Option Path} (h : IsPlanned plan initial op)
    (hwants : op.relocationMode = .move ∧ config.backupEnabled = true)
    (hbackup : (makeBackup config op).exec (.healthy files journal) = (.ok backup, disk')) :
    op.source.parent ≠ some [] ∧
      ∃ q, firstFree files (numberedPaths op.backupTarget) = some q := by
  obtain ⟨hname, hbeside, -⟩ := h.backupTarget
  rw [makeBackup_of_moves h hwants] at hbackup
  split at hbackup
  · next disk₁ hstream =>
    obtain ⟨q, hq, hqparent⟩ := firstFree_of_streamInto hstream
    rw [parent_of_mem_numberedPaths hname (firstFree_eq_some hq).1, hbeside] at hqparent
    exact ⟨hqparent, q, hq⟩
  · cases hbackup

/-- The free paths for the backup of an operation. -/
def backupSlots (files : FileSystem) (op : MatchOperation) : List Path :=
  (numberedPaths op.backupTarget).filter fun p => (files p).isNone

/-- **There is room for the backups**, if any are made: the subtitles lie in
directories, and each backup finds a path that is free and not taken by one
before it. -/
def BackupsFit (config : MatchConfig) (files : FileSystem) (ops : List MatchOperation)
    (taken : List Path) : Prop :=
  config.MakesBackups → (∀ op ∈ ops, op.source.parent ≠ some []) ∧
    (FirstFit.serve (ops.map (backupSlots files)) taken).isSome

instance (config : MatchConfig) (files : FileSystem) (ops : List MatchOperation)
    (taken : List Path) : Decidable (BackupsFit config files ops taken) := by
  unfold BackupsFit
  infer_instance

theorem backupsFit_cons {taken : List Path} (hmakes : config.MakesBackups) :
    BackupsFit config files (op :: ops) taken ↔ op.source.parent ≠ some [] ∧
      ∃ slot, FirstFit.pick (backupSlots files op) taken = some slot ∧
        BackupsFit config files ops (slot :: taken) := by
  unfold BackupsFit
  rw [List.forall_mem_cons, List.map_cons, FirstFit.serve_cons_isSome]
  constructor
  · intro h
    obtain ⟨⟨hparent, hparents⟩, slot, hpick, hserve⟩ := h hmakes
    exact ⟨hparent, slot, hpick, fun _ => ⟨hparents, hserve⟩⟩
  · rintro ⟨hparent, slot, hpick, hrest⟩ _
    obtain ⟨hparents, hserve⟩ := hrest hmakes
    exact ⟨⟨hparent, hparents⟩, slot, hpick, hserve⟩

/-- The backups made so far. -/
def BackupsTaken (initial files : FileSystem) (taken : List Path) : Prop :=
  ∀ p, IsBackup p → (files p = none ↔ initial p = none ∧ p ∉ taken)

/-- The first free path is then what the operation picks. -/
theorem BackupsTaken.pick {before : FileSystem} {taken : List Path} (h : IsPlanned plan initial op)
    (htaken : BackupsTaken before files taken) :
    FirstFit.pick (backupSlots before op) taken = firstFree files (numberedPaths op.backupTarget) := by
  refine FirstFit.pick_filter fun p hp => ?_
  rw [Option.isNone_iff_eq_none, Option.isNone_iff_eq_none]
  exact htaken p (isBackup_of_mem_numberedPaths h.backupTarget.2.2 hp)

theorem BackupsTaken.cons {taken : List Path} (h : BackupsTaken initial files taken) :
    BackupsTaken initial (update files q (some content)) (q :: taken) := by
  intro p hp
  by_cases hpq : p = q
  · subst hpq
    rw [update_self]
    simp
  · rw [update_of_ne hpq, h p hp]
    simp [hpq]

/-! ## One operation -/

/-- **An operation that goes through makes its move**, the backups aside. -/
theorem step_of_applyOperation {done : AppliedOperation} (h : IsPlanned plan initial op)
    (hmode : op.relocationMode ≠ .copy) (hpolicy : config.conflictResolution = .autoRename)
    (happly : (applyOperation config op).exec (.healthy files journal) = (.ok done, disk')) :
    ∃ files', disk' = .healthy files' journal ∧ Moves.Step IsBackup files op.move files' := by
  have hjournal := applyOperation_journal config op (.healthy files journal)
  have hsound : ∀ n, ((applyOperation config op).exec (.healthy files journal)).2.faults n = none :=
    applyOperation_sound config op fun _ => rfl
  rw [happly] at hjournal hsound
  refine ⟨disk'.files, Disk.eq_healthy hsound hjournal, ?_⟩
  obtain ⟨-, -, -, disk₁, hbackup, hplan, hrun⟩ := applyOperation_eq_ok happly
  obtain ⟨files₁, rfl, hsame⟩ := makeBackup_eq_ok_healthy h hbackup
  obtain ⟨hplanned, r, htask, hr, htarget⟩ := planTask_eq_ok_healthy h hmode hpolicy hplan
  rw [hplanned, htask] at hrun
  have hmove : (moveInto op.source r).exec (.healthy files₁ journal) = (.ok (), disk') :=
    mapError_eq_ok (mapError_eq_ok hrun)
  have hvisible : ¬ IsBackup op.finalTarget := h.target_visible List.mem_cons_self
  rcases hsource : files op.source with - | content
  · refine .idle hsource fun p hp => ?_
    have hsource₁ : files₁ op.source = none := (hsame _ h.source_visible).trans hsource
    rw [moveInto_eq_ok_of_none hsource₁ hmove]
    exact hsame p hp
  have hsource₁ : files₁ op.source = some content := (hsame _ h.source_visible).trans hsource
  obtain ⟨q, hfree, hfiles⟩ := moveInto_eq_ok hsource₁ hmove
  have hqfree : files₁ q = none := hfree.free
  -- the path the task was planned for is free, or the target itself
  have hq : q ∈ numberedPaths op.finalTarget := by
    rcases hr with rfl | ⟨hmem, hrfree⟩
    · exact hfree.mem
    · rw [hfree.eq_head hrfree]
      exact hmem
  have hqvisible := h.target_visible hq
  refine .moved q (Option.isSome_of_eq_some hsource) hqvisible
    ((hsame q hqvisible).symm.trans hqfree) (fun hnone => ?_) fun p hp => ?_
  · have hnone₁ : files₁ op.finalTarget = none := (hsame _ hvisible).trans hnone
    obtain rfl := htarget hnone₁
    exact hfree.eq_head hnone₁
  · change disk'.files p = update (update files op.source none) q (files op.source) p
    rw [hfiles, hsource]
    by_cases hpq : p = q
    · rw [hpq, update_self, update_self]
    rw [update_of_ne hpq, update_of_ne hpq]
    by_cases hps : p = op.source
    · rw [hps, update_self, update_self]
    · rw [update_of_ne hps, update_of_ne hps]
      exact hsame p hp

/-- **An operation with its backup made and its target free goes through.** -/
theorem applyOperation_of_free {backup : Option Path} {files₁ : FileSystem}
    (h : IsPlanned plan initial op) (hmode : op.relocationMode ≠ .copy)
    (hbackup : (makeBackup config op).exec (.healthy files journal) =
      (.ok backup, .healthy files₁ journal))
    (hsource : files₁ op.source = some content) (hfree : files₁ op.finalTarget = none) :
    ∃ done, (applyOperation config op).exec (.healthy files journal) = (.ok done,
      .healthy (update (update files₁ op.source none) op.finalTarget (some content)) journal) := by
  have hrun : (runTask (.renameFile op.source op.finalTarget)).exec (.healthy files₁ journal) =
      (.ok (), .healthy (update (update files₁ op.source none) op.finalTarget (some content))
        journal) := by
    unfold runTask ProcessingOperation.execute executeRenameFileOperation
    rw [Program.exec_mapError, Program.exec_mapError, moveInto_healthy hsource hfree]
    rfl
  have hcurrent : ∀ disk : Disk, (currentDisk : Engine Disk).exec disk = (.ok disk, disk) :=
    fun _ => rfl
  rw [applyOperation_of_makeBackup hbackup, Program.exec_bind_of_ok (planTask_of_free h hmode hfree),
    Program.exec_bind_of_ok (hcurrent _), Program.exec_bind_of_ok hrun,
    Program.exec_bind_of_ok (hcurrent _)]
  exact ⟨_, rfl⟩

/-- The first of some orderly moves, once its backup is made. -/
theorem applyOperation_of_orderly {backup : Option Path} {files₁ : FileSystem}
    {ms : List (Path × Path)} (h : IsPlanned plan initial op) (hmode : op.relocationMode ≠ .copy)
    (hpolicy : config.conflictResolution = .autoRename) (horderly : Moves.Orderly files (op.move :: ms))
    (hbackup : (makeBackup config op).exec (.healthy files journal) =
      (.ok backup, .healthy files₁ journal)) :
    ∃ done files', (applyOperation config op).exec (.healthy files journal) =
        (.ok done, .healthy files' journal) ∧
      Moves.Step IsBackup files op.move files' ∧ ∀ p, IsBackup p → files' p = files₁ p := by
  obtain ⟨content, hsource⟩ :=
    Option.isSome_iff_exists.1 (horderly.present op.move List.mem_cons_self)
  have hvisible : ¬ IsBackup op.finalTarget := h.target_visible List.mem_cons_self
  obtain ⟨files₂, heq, hsame⟩ := makeBackup_eq_ok_healthy h hbackup
  obtain rfl : files₁ = files₂ := congrArg Disk.files heq
  obtain ⟨done, happly⟩ := applyOperation_of_free h hmode hbackup
    ((hsame _ h.source_visible).trans hsource) ((hsame _ hvisible).trans horderly.vacated.1)
  obtain ⟨files', hfiles', hstep⟩ := step_of_applyOperation h hmode hpolicy happly
  refine ⟨done, files', hfiles' ▸ happly, hstep, fun p hp => ?_⟩
  have hps : p ≠ op.source := fun heq => h.source_visible (heq ▸ hp)
  have hpt : p ≠ op.finalTarget := fun heq => hvisible (heq ▸ hp)
  have hfiles : files' = update (update files₁ op.source none) op.finalTarget (some content) :=
    congrArg Disk.files hfiles'.symm
  rw [hfiles, update_of_ne hpt, update_of_ne hps]

/-! ## The batch -/

theorem persist_healthy (hasJournal : Bool) (applied : List AppliedOperation)
    (files : FileSystem) (journal : Option (List JournalEntry)) :
    ∃ journal', (persist hasJournal applied).exec (.healthy files journal) =
      (.ok (), .healthy files journal') := by
  rcases hasJournal with - | -
  · exact ⟨journal, rfl⟩
  · exact ⟨some (applied.map AppliedOperation.entry), rfl⟩

/-- The rest of a batch after an operation that went through. -/
theorem executeFrom_cons (hasJournal : Bool) (ops : List MatchOperation)
    (applied : List AppliedOperation) {done : AppliedOperation} {files' : FileSystem}
    (h : (applyOperation config op).exec (.healthy files journal) =
      (.ok done, .healthy files' journal)) :
    ∃ journal', executeFrom config hasJournal (op :: ops) applied (.healthy files journal) =
      executeFrom config hasJournal ops (applied ++ [done]) (.healthy files' journal') := by
  obtain ⟨journal', hpersist⟩ :=
    persist_healthy hasJournal (applied ++ [done]) files' journal
  refine ⟨journal', ?_⟩
  rw [executeFrom, h]
  dsimp only
  rw [hpersist]

/-- And of a batch that returned. -/
theorem exists_of_executeFrom_cons {hasJournal : Bool} {applied : List AppliedOperation}
    (h : (executeFrom config hasJournal (op :: ops) applied disk).outcome = .ok ()) :
    ∃ done disk', (applyOperation config op).exec disk = (.ok done, disk') := by
  rw [executeFrom] at h
  rcases happly : (applyOperation config op).exec disk with ⟨stop | done, disk'⟩
  · rw [happly] at h
    cases h
  · exact ⟨done, disk', rfl⟩

/-- **A batch that returns is a run of the moves of its operations.** -/
theorem run_of_executeFrom {hasJournal : Bool} (hmode : plan.relocationMode ≠ .copy)
    (hpolicy : plan.conflictResolution = .autoRename) :
    ∀ {ops : List MatchOperation} {applied : List AppliedOperation} {files : FileSystem}
      {journal : Option (List JournalEntry)}, (∀ op ∈ ops, IsPlanned plan initial op) →
      (executeFrom plan.toMatchConfig hasJournal ops applied (.healthy files journal)).outcome =
        .ok () →
      Moves.Run IsBackup files (ops.map MatchOperation.move)
        (executeFrom plan.toMatchConfig hasJournal ops applied (.healthy files journal)).disk.files
  | [], _, _, _, _, _ => .nil
  | op :: ops, applied, files, journal, hops, hok => by
    have hplanned := hops op List.mem_cons_self
    obtain ⟨done, disk', happly⟩ := exists_of_executeFrom_cons hok
    obtain ⟨files', rfl, hstep⟩ :=
      step_of_applyOperation hplanned (hplanned.relocationMode ▸ hmode) hpolicy happly
    obtain ⟨journal', hrest⟩ := executeFrom_cons hasJournal ops applied happly
    rw [hrest] at hok ⊢
    exact .cons hstep (run_of_executeFrom hmode hpolicy
      (fun op' hop' => hops op' (List.mem_cons_of_mem op hop')) hok)

/-- **Orderly moves go through as far as there is room for the backups.** -/
theorem executeFrom_ok_iff {hasJournal : Bool} {before : FileSystem}
    (hmode : plan.relocationMode ≠ .copy) (hpolicy : plan.conflictResolution = .autoRename) :
    ∀ {ops : List MatchOperation} {applied : List AppliedOperation} {files : FileSystem}
      {journal : Option (List JournalEntry)} {taken : List Path},
      (∀ op ∈ ops, IsPlanned plan initial op) →
      Moves.Orderly files (ops.map MatchOperation.move) → BackupsTaken before files taken →
      ((executeFrom plan.toMatchConfig hasJournal ops applied
          (.healthy files journal)).outcome = .ok () ↔
        BackupsFit plan.toMatchConfig before ops taken)
  | [], _, _, _, _, _, _, _ => by
    refine iff_of_true rfl fun _ => ⟨fun op hop => ?_, rfl⟩
    cases hop
  | op :: ops, applied, files, journal, taken, hops, horderly, htaken => by
    have hplanned := hops op List.mem_cons_self
    have hops' : ∀ op' ∈ ops, IsPlanned plan initial op' := fun op' hop' =>
      hops op' (List.mem_cons_of_mem op hop')
    have hopmode : op.relocationMode ≠ .copy := hplanned.relocationMode ▸ hmode
    have hvisible : ∀ m ∈ (op :: ops).map MatchOperation.move, ¬ IsBackup m.1 ∧ ¬ IsBackup m.2 := by
      intro m hm
      obtain ⟨op', hop', rfl⟩ := List.mem_map.1 hm
      exact ⟨(hops op' hop').source_visible, (hops op' hop').target_visible List.mem_cons_self⟩
    -- once the backup is made, the operation goes through and leaves the rest
    have hrest : ∀ {backup : Option Path} {files₁ : FileSystem} {taken' : List Path},
        (makeBackup plan.toMatchConfig op).exec (.healthy files journal) =
          (.ok backup, .healthy files₁ journal) → BackupsTaken before files₁ taken' →
        ((executeFrom plan.toMatchConfig hasJournal (op :: ops) applied
            (.healthy files journal)).outcome = .ok () ↔
          BackupsFit plan.toMatchConfig before ops taken') := by
      intro backup files₁ taken' hbackup htaken'
      obtain ⟨done, files', happly, hstep, hbackups⟩ :=
        applyOperation_of_orderly hplanned hopmode hpolicy horderly hbackup
      obtain ⟨journal', heq⟩ := executeFrom_cons hasJournal ops applied happly
      rw [heq]
      refine executeFrom_ok_iff hmode hpolicy hops' (horderly.tail hstep hvisible).1 fun p hp => ?_
      rw [hbackups p hp]
      exact htaken' p hp
    by_cases hmakes : plan.toMatchConfig.MakesBackups
    · have hwants : op.relocationMode = .move ∧ plan.backupEnabled = true :=
        ⟨hplanned.relocationMode.trans hmakes.1, hmakes.2⟩
      obtain ⟨content, hsource⟩ :=
        Option.isSome_iff_exists.1 (horderly.present op.move List.mem_cons_self)
      rw [backupsFit_cons hmakes, htaken.pick hplanned]
      constructor
      · intro hok
        obtain ⟨done, disk', happly⟩ := exists_of_executeFrom_cons hok
        obtain ⟨-, -, -, disk₁, hbackup, -⟩ := applyOperation_eq_ok happly
        obtain ⟨hparent, q, hq⟩ := room_of_makeBackup hplanned hwants hbackup
        have hmade := makeBackup_of_room journal hplanned hwants hsource hparent hq
        exact ⟨hparent, q, hq, (hrest hmade htaken.cons).1 hok⟩
      · rintro ⟨hparent, q, hq, hfit⟩
        have hmade := makeBackup_of_room journal hplanned hwants hsource hparent hq
        exact (hrest hmade htaken.cons).2 hfit
    · have hwants : ¬ (op.relocationMode = .move ∧ plan.backupEnabled = true) := fun h =>
        hmakes ⟨hplanned.relocationMode.symm.trans h.1, h.2⟩
      rw [hrest (makeBackup_of_not hwants) htaken]
      exact ⟨fun _ h => absurd h hmakes, fun _ h => absurd h hmakes⟩

/-! ## The plan that happens -/

/-- **Nothing hinders a plan**: no subtitle and no target is in two operations,
every target is free once the subtitles before it have gone, and there is
room for the backups. -/
structure Unhindered (config : MatchConfig) (files : FileSystem) (ops : List MatchOperation) :
    Prop where
  moves : Moves.Orderly files (ops.map MatchOperation.move)
  backups : BackupsFit config files ops []

instance (config : MatchConfig) (files : FileSystem) (ops : List MatchOperation) :
    Decidable (Unhindered config files ops) :=
  decidable_of_iff (Moves.Orderly files (ops.map MatchOperation.move) ∧
      BackupsFit config files ops [])
    ⟨fun ⟨hm, hb⟩ => ⟨hm, hb⟩, fun h => ⟨h.moves, h.backups⟩⟩

/-- **A plan happens**: its execution returns, and every subtitle is then at its
target. -/
def PlanHappens (config : MatchConfig) (hasJournal : Bool) (ops : List MatchOperation)
    (disk : Disk) : Prop :=
  (executeOperations config hasJournal ops false disk).outcome = .ok () ∧
    ∀ op ∈ ops, ∃ content, disk.files op.source = some content ∧
      (executeOperations config hasJournal ops false disk).disk.files op.finalTarget = some content

/-- The files tell which of them is at a target: the targets are distinct, and
no other file has the content of a subtitle. -/
structure Traceable (files : FileSystem) (ops : List MatchOperation) : Prop where
  targets : (ops.map finalTarget).Nodup
  contents : ∀ op ∈ ops, ∀ p, files p = files op.source → p = op.source

/-- The places of a plan are no backups. -/
theorem moves_visible (hops : ∀ op ∈ ops, IsPlanned plan initial op) :
    ∀ m ∈ ops.map MatchOperation.move, ¬ IsBackup m.1 ∧ ¬ IsBackup m.2 := by
  intro m hm
  obtain ⟨op, hop, rfl⟩ := List.mem_map.1 hm
  exact ⟨(hops op hop).source_visible, (hops op hop).target_visible List.mem_cons_self⟩

/-- **A plan that nothing hinders happens.** -/
theorem planHappens_of_unhindered {hasJournal : Bool} (hmode : plan.relocationMode ≠ .copy)
    (hpolicy : plan.conflictResolution = .autoRename)
    (hops : ∀ op ∈ ops, IsPlanned plan initial op)
    (h : Unhindered plan.toMatchConfig files ops) :
    PlanHappens plan.toMatchConfig hasJournal ops (.healthy files journal) := by
  have htaken : BackupsTaken files files [] := fun p _ => by simp
  have hok : (executeFrom plan.toMatchConfig hasJournal ops [] (.healthy files journal)).outcome =
      .ok () := (executeFrom_ok_iff hmode hpolicy hops h.moves htaken).2 h.backups
  have hplaced := (run_of_executeFrom hmode hpolicy hops hok).placed h.moves (moves_visible hops)
  refine ⟨hok, fun op hop => ?_⟩
  have hmem : op.move ∈ ops.map MatchOperation.move := List.mem_map_of_mem hop
  obtain ⟨content, hcontent⟩ := Option.isSome_iff_exists.1 (h.moves.present op.move hmem)
  exact ⟨content, hcontent, (hplaced op.move hmem).trans hcontent⟩

/-- **And a plan that happens is unhindered**, as far as the files tell. -/
theorem unhindered_of_planHappens {hasJournal : Bool} (hmode : plan.relocationMode ≠ .copy)
    (hpolicy : plan.conflictResolution = .autoRename)
    (hops : ∀ op ∈ ops, IsPlanned plan initial op) (htraceable : Traceable files ops)
    (h : PlanHappens plan.toMatchConfig hasJournal ops (.healthy files journal)) :
    Unhindered plan.toMatchConfig files ops := by
  obtain ⟨hok, hthere⟩ := h
  have hmoves : Moves.Orderly files (ops.map MatchOperation.move) := by
    refine (run_of_executeFrom hmode hpolicy hops hok).orderly (moves_visible hops)
      (fun m hm => ?_) (fun m hm content hcontent p p' _ _ hp hp' => ?_) ?_ fun m hm => ?_
    · obtain ⟨op, hop, rfl⟩ := List.mem_map.1 hm
      obtain ⟨content, hcontent, -⟩ := hthere op hop
      exact Option.isSome_of_eq_some hcontent
    · obtain ⟨op, hop, rfl⟩ := List.mem_map.1 hm
      have hone := htraceable.contents op hop
      exact (hone p (hp.trans hcontent.symm)).trans (hone p' (hp'.trans hcontent.symm)).symm
    · rw [List.map_map]
      exact htraceable.targets
    · obtain ⟨op, hop, rfl⟩ := List.mem_map.1 hm
      obtain ⟨content, hcontent, hplaced⟩ := hthere op hop
      exact hplaced.trans hcontent.symm
  have htaken : BackupsTaken files files [] := fun p _ => by simp
  exact ⟨hmoves, (executeFrom_ok_iff hmode hpolicy hops hmoves htaken).1 hok⟩

/-- **When the plan that is previewed is the plan that happens.** An engine that
moves or renames, and numbers conflicts, carries out what it has matched as
planned when nothing hinders the plan, whether the plan is new or out of a
cache that calls have left; and where the files tell, only then. -/
theorem matched_plan_happens (hasher : Hasher) (shared : SharedCache) (call : Call)
    (audit : MatchAudit) (session' : Session) (hasJournal : Bool)
    (journal : Option (List JournalEntry)) (hreached : CacheReached hasher shared)
    (hmode : call.config.relocationMode ≠ .copy)
    (hpolicy : call.config.conflictResolution = .autoRename)
    (h : (matchFileListWithAudit hasher call).exec ⟨shared.cache, []⟩ = (.ok audit, session')) :
    (Unhindered call.config.toMatchConfig call.world.files audit.operations →
      PlanHappens call.config.toMatchConfig hasJournal audit.operations
        (.healthy call.world.files journal)) ∧
    (Traceable call.world.files audit.operations →
      (PlanHappens call.config.toMatchConfig hasJournal audit.operations
          (.healthy call.world.files journal) ↔
        Unhindered call.config.toMatchConfig call.world.files audit.operations)) := by
  obtain ⟨plan, hplan, hops⟩ := isPlanned_of_matched hreached h
  rw [← hplan] at hmode hpolicy ⊢
  exact ⟨planHappens_of_unhindered hmode hpolicy hops, fun htraceable =>
    ⟨unhindered_of_planHappens hmode hpolicy hops htraceable,
      planHappens_of_unhindered hmode hpolicy hops⟩⟩

/-- An engine that numbers conflicts and makes backups. -/
def numberingCall (relocationMode : FileRelocationMode) (world : World) (filePaths : List Path)
    (pairs : List (Text × Text × ℚ)) : Call :=
  let call := filmCall relocationMode (1 / 2) filePaths pairs
  { call with
    world := world
    config := { call.config with conflictResolution := .autoRename, backupEnabled := true } }

/-- Two subtitles moved beside their video, with backups. -/
theorem matched_plan_happens_film :
    let call := numberingCall .move filmWorld filmPaths [(['0'], ['1'], 1), (['0'], ['2'], 1)]
    ∃ audit session', (matchFileListWithAudit plainHasher call).exec ⟨none, []⟩ =
        (.ok audit, session') ∧ audit.operations.length = 2 ∧
      PlanHappens call.config.toMatchConfig true audit.operations
        (.healthy call.world.files none) := by
  intro call
  have hrun : ((matchFileListWithAudit plainHasher call).exec ⟨none, []⟩).1.toOption.map
      (fun audit => (audit.operations.length, decide
        (Unhindered call.config.toMatchConfig call.world.files audit.operations))) =
      some (2, true) := by decide +kernel
  rcases hexec : (matchFileListWithAudit plainHasher call).exec ⟨none, []⟩ with
    ⟨stop | audit, session'⟩
  · rw [hexec] at hrun
    cases hrun
  · rw [hexec] at hrun
    obtain ⟨hlength, hunhindered⟩ := Prod.mk.inj (Option.some.inj hrun)
    exact ⟨audit, session', rfl, hlength, (matched_plan_happens plainHasher ⟨none, none⟩ call audit
      session' true none .start (by decide) rfl hexec).1 (of_decide_eq_true hunhindered)⟩

/-- A video, and a subtitle that has the name of it. -/
def namedWorld : World :=
  { filmWorld with
    files := fun p =>
      if p = Path.ofText "/films/movie.mkv".toList then some [0]
      else if p = Path.ofText "/films/movie.srt".toList then some [1]
      else none }

/-- **A subtitle that has its new name already** is moved away from it. -/
theorem matched_plan_leaves_own_name :
    ¬ ∀ (hasher : Hasher) (shared : SharedCache) (call : Call) (audit : MatchAudit)
      (session' : Session) (hasJournal : Bool) (journal : Option (List JournalEntry)),
      CacheReached hasher shared → call.config.relocationMode ≠ .copy →
      call.config.conflictResolution = .autoRename →
      (matchFileListWithAudit hasher call).exec ⟨shared.cache, []⟩ = (.ok audit, session') →
      PlanHappens call.config.toMatchConfig hasJournal audit.operations
        (.healthy call.world.files journal) := by
  intro h
  let movie : Path := Path.ofText "/films/movie.srt".toList
  let call := numberingCall .none namedWorld [Path.ofText "/films/movie.mkv".toList, movie]
    [(['0'], ['1'], 1)]
  have hrun : ((matchFileListWithAudit plainHasher call).exec ⟨none, []⟩).1.toOption.map
      (fun audit => (audit.operations.map finalTarget, (executeOperations call.config.toMatchConfig
        false audit.operations false (.healthy call.world.files none)).disk.files movie)) =
      some ([movie], none) := by decide +kernel
  rcases hexec : (matchFileListWithAudit plainHasher call).exec ⟨none, []⟩ with
    ⟨stop | audit, session'⟩
  · rw [hexec] at hrun
    cases hrun
  rw [hexec] at hrun
  obtain ⟨htargets, hgone⟩ := Prod.mk.inj (Option.some.inj hrun)
  obtain ⟨-, hthere⟩ := h plainHasher ⟨none, none⟩ call audit session' false none .start
    (by decide) rfl hexec
  obtain ⟨op, hop, htarget⟩ := List.mem_map.1 (htargets ▸ List.mem_singleton_self movie)
  obtain ⟨content, -, hcontent⟩ := hthere op hop
  rw [htarget, hgone] at hcontent
  cases hcontent

end SubxCore
