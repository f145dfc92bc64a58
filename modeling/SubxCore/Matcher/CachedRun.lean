import SubxCore.Common.Agreement
import SubxCore.Common.Assignments
import SubxCore.Matcher.PlanExecution
/-!
# Replaying a plan

What a replay does to the files is a matter of the items of the cache and
of the files alone: neither the journal nor the identifiers are looked at
(`applyCachedOperations_iff`). A move takes its subtitle to the first free
of the numbered paths of its target, and changes nothing when the subtitle
is gone; a copy that skips conflicts assigns its target.
-/

namespace SubxCore

open Text Function MatchOperation

/-! ## The journal is not looked at -/

/-- Two disks that differ in their journals only. -/
structure SameFiles (disk disk' : Disk) : Prop where
  files : disk'.files = disk.files
  faults : disk'.faults = disk.faults

theorem SameFiles.closed : CallClosed fun (_ _ : Type) x => Program.Agrees SameFiles x where
  toClosed := Program.Agrees.closed SameFiles
  call broken act := by
    rintro ⟨files, journal, faults⟩ ⟨files', journal', faults'⟩ ⟨hfiles, hfaults⟩
    obtain rfl : files' = files := hfiles
    obtain rfl : faults' = faults := hfaults
    unfold systemCall
    rw [Program.exec_step, Program.exec_step]
    dsimp only
    split
    · exact ⟨rfl, rfl, rfl⟩
    · exact ⟨rfl, rfl, rfl⟩
    · exact ⟨rfl, rfl, rfl⟩
  exist p := by
    intro disk disk' h
    unfold fileExists
    rw [Program.exec_step, Program.exec_step, h.files]
    exact ⟨rfl, h⟩

/-! ## The run on the files alone -/

/-- `apply_cached_operations`. -/
def applyCachedOperations (config : PlanConfig) (hasJournal : Bool) (world : World)
    (cache : CacheData) (journal : Option (List JournalEntry)) : Batch Unit :=
  executeOperations config.toMatchConfig hasJournal
    (reconstructOperationsFromCache config world cache) false (.healthy world.files journal)

/-- Where it is interrupted after some operations. -/
def interruptedAfter (k : ℕ) (config : PlanConfig) (hasJournal : Bool) (world : World)
    (cache : CacheData) (journal : Option (List JournalEntry)) : Batch Unit :=
  executeOperations config.toMatchConfig hasJournal
    ((reconstructOperationsFromCache config world cache).take k) false
    (.healthy world.files journal)

/-- The items that a replay carries out. -/
def CacheData.plan (cache : CacheData) (files : FileSystem) : List OpItem :=
  cache.matchOperations.filter fun item => item.present files

/-- An empty disk, without times and directories. -/
def World.empty : World :=
  ⟨fun _ => none, fun _ => none, fun _ => none, none, fun _ => [], fun _ => [], 0⟩

/-- The operation of an item. Its sizes and identifiers are nobody's concern. -/
def OpItem.operation (config : PlanConfig) (item : OpItem) : MatchOperation :=
  reconstructOperation config.relocationMode .empty 0 item

/-- Where the subtitle of an item goes, unless that is taken. -/
def OpItem.target (config : PlanConfig) (item : OpItem) : Path :=
  (item.operation config).relocationTargetPath.getD
    (item.subtitleFile.withFileName item.newSubtitleName)

/-- What carrying out an item makes of the files. -/
def OpItem.carryOut (config : PlanConfig) (files : FileSystem) (item : OpItem) :
    Except Stop FileSystem :=
  match (planTask config.toMatchConfig (item.operation config) >>= runTask).exec (.sound files) with
  | (.ok (), disk) => .ok disk.files
  | (.error stop, _) => .error stop

variable {config : PlanConfig} {cache : CacheData} {world : World} {hasJournal : Bool}
variable {op : MatchOperation} {ops : List MatchOperation} {item : OpItem} {items : List OpItem}
variable {files files' : FileSystem} {journal : Option (List JournalEntry)} {disk disk' : Disk}
variable {content : Bytes} {p q : Path} {ps : List Path} {k n : ℕ}

/-- What carrying out an item makes of a healthy disk. -/
theorem OpItem.exec_healthy (config : PlanConfig) (item : OpItem) (files : FileSystem)
    (journal : Option (List JournalEntry)) :
    (planTask config.toMatchConfig (item.operation config) >>= runTask).exec
        (.healthy files journal) =
      (((planTask config.toMatchConfig (item.operation config) >>= runTask).exec (.sound files)).1,
        .healthy ((planTask config.toMatchConfig (item.operation config) >>= runTask).exec
          (.sound files)).2.files journal) := by
  have hagrees := Program.Agrees.bind
    (SameFiles.closed.planTask config.toMatchConfig (item.operation config))
    SameFiles.closed.runTask (.sound files) (.healthy files journal) ⟨rfl, rfl⟩
  have hsound : Program.Keeps KeepsSound
      (planTask config.toMatchConfig (item.operation config) >>= runTask) :=
    .bind (callKeeps_keepsSound.closed.planTask _ _) fun _ =>
      callKeeps_keepsSound.closed.runTask _
  have hjournal : Program.Keeps SameJournal
      (planTask config.toMatchConfig (item.operation config) >>= runTask) :=
    .bind (callKeeps_sameJournal.closed.planTask _ _) fun _ =>
      callKeeps_sameJournal.closed.runTask _
  have hhealthy := Disk.eq_healthy (hsound (.healthy files journal) fun _ => rfl)
    (hjournal (.healthy files journal))
  rw [hagrees.2.files] at hhealthy
  exact Prod.ext hagrees.1.symm hhealthy

/-- An item is carried out on the files alone. -/
theorem OpItem.carryOut_eq_ok (journal : Option (List JournalEntry)) :
    item.carryOut config files = .ok files' ↔
      (planTask config.toMatchConfig (item.operation config) >>= runTask).exec
        (.healthy files journal) = (.ok (), .healthy files' journal) := by
  rw [OpItem.exec_healthy]
  unfold carryOut
  rcases (planTask config.toMatchConfig (item.operation config) >>= runTask).exec
    (.sound files) with ⟨stop | u, disk⟩
  · constructor
    · intro h
      cases h
    · intro h
      cases h
  · constructor
    · intro h
      cases h
      rfl
    · intro h
      exact congrArg (fun r : Except Stop Unit × Disk => Except.ok r.2.files) h

/-- **An operation of the executor is an item carried out**, where no backups
are made. -/
theorem applyOperation_iff_carryOut (hbackup : config.backupEnabled = false) :
    (∃ done, (applyOperation config.toMatchConfig
        (reconstructOperation config.relocationMode world n item)).exec (.healthy files journal) =
          (.ok done, disk')) ↔
      ∃ files', disk' = .healthy files' journal ∧ item.carryOut config files = .ok files' := by
  have hno : ¬ ((reconstructOperation config.relocationMode world n item).relocationMode = .move ∧
      config.toMatchConfig.backupEnabled = true) := by
    rintro ⟨-, h⟩
    rw [show config.toMatchConfig.backupEnabled = false from hbackup] at h
    cases h
  have hcurrent : ∀ disk : Disk, (currentDisk : Engine Disk).exec disk = (.ok disk, disk) :=
    fun _ => rfl
  constructor
  · rintro ⟨done, happly⟩
    obtain ⟨-, -, -, disk₁, hmade, hplan, hrun⟩ := applyOperation_eq_ok happly
    rw [makeBackup_of_not hno] at hmade
    obtain ⟨-, rfl⟩ := Prod.mk.inj hmade
    have hboth : (planTask config.toMatchConfig (item.operation config) >>= runTask).exec
        (.healthy files journal) = (.ok (), disk') := Program.bind_eq_ok.2 ⟨_, _, hplan, hrun⟩
    have hdisk : disk' = .healthy disk'.files journal := by
      rw [OpItem.exec_healthy] at hboth
      rw [← (Prod.mk.inj hboth).2]
      rfl
    rw [hdisk] at hboth
    exact ⟨disk'.files, hdisk, (OpItem.carryOut_eq_ok journal).2 hboth⟩
  · rintro ⟨files', rfl, hcarry⟩
    obtain ⟨task, disk₁, hplan, hrun⟩ :=
      Program.bind_eq_ok.1 ((OpItem.carryOut_eq_ok journal).1 hcarry)
    have hplan : (planTask config.toMatchConfig
        (reconstructOperation config.relocationMode world n item)).exec (.healthy files journal) =
          (.ok task, disk₁) := hplan
    rw [applyOperation_of_makeBackup (makeBackup_of_not hno), Program.exec_bind_of_ok hplan,
      Program.exec_bind_of_ok (hcurrent _), Program.exec_bind_of_ok hrun,
      Program.exec_bind_of_ok (hcurrent _)]
    exact ⟨_, rfl⟩

/-- Operations reconstructed from items. -/
def Reconstructs (config : PlanConfig) (world : World) (op : MatchOperation) (item : OpItem) :
    Prop :=
  ∃ n, op = reconstructOperation config.relocationMode world n item

/-- What is reconstructed is the plan. -/
theorem reconstructFrom_forall₂ : ∀ (items : List OpItem) (n : ℕ),
    List.Forall₂ (Reconstructs config world) (reconstructFrom config.relocationMode world n items)
      (items.filter fun item => item.present world.files)
  | [], _ => .nil
  | item :: items, n => by
    unfold reconstructFrom
    by_cases hpresent : item.present world.files = true
    · rw [if_pos hpresent, List.filter_cons_of_pos hpresent]
      exact .cons ⟨n, rfl⟩ (reconstructFrom_forall₂ items (n + 2))
    · rw [if_neg hpresent, List.filter_cons_of_neg hpresent]
      exact reconstructFrom_forall₂ items n

/-- **A replay carries out its items**, one after the other. -/
theorem executeFrom_iff_carryOut (hbackup : config.backupEnabled = false)
    (h : List.Forall₂ (Reconstructs config world) ops items) :
    ∀ (applied : List AppliedOperation) (files : FileSystem)
      (journal : Option (List JournalEntry)),
      ((executeFrom config.toMatchConfig hasJournal ops applied (.healthy files journal)).outcome =
          .ok () ∧
        (executeFrom config.toMatchConfig hasJournal ops applied
          (.healthy files journal)).disk.files = files') ↔
        items.foldlM (OpItem.carryOut config) files = .ok files' := by
  induction h with
  | nil =>
    intro applied files journal
    rw [Run.foldlM_ok_nil]
    exact ⟨fun h => h.2, fun h => ⟨rfl, h⟩⟩
  | @cons op item ops items hop hops ih =>
    obtain ⟨n, rfl⟩ := hop
    intro applied files journal
    rw [Run.foldlM_ok_cons]
    constructor
    · rintro ⟨hok, hfiles⟩
      obtain ⟨done, disk', happly⟩ := exists_of_executeFrom_cons hok
      obtain ⟨files₁, rfl, hcarry⟩ := (applyOperation_iff_carryOut hbackup).1 ⟨done, happly⟩
      obtain ⟨journal', hrest⟩ := executeFrom_cons hasJournal ops applied happly
      rw [hrest] at hok hfiles
      exact ⟨files₁, hcarry, (ih _ _ _).1 ⟨hok, hfiles⟩⟩
    · rintro ⟨files₁, hcarry, hrun⟩
      have happly : ∃ done, (applyOperation config.toMatchConfig
          (reconstructOperation config.relocationMode world n item)).exec (.healthy files journal) =
            (.ok done, .healthy files₁ journal) :=
        (applyOperation_iff_carryOut hbackup).2 ⟨files₁, rfl, hcarry⟩
      obtain ⟨done, happly⟩ := happly
      obtain ⟨journal', hrest⟩ := executeFrom_cons hasJournal ops applied happly
      rw [hrest]
      exact (ih _ _ _).2 hrun

theorem interruptedAfter_iff (hbackup : config.backupEnabled = false) :
    ((interruptedAfter k config hasJournal world cache journal).outcome = .ok () ∧
        (interruptedAfter k config hasJournal world cache journal).disk.files = files') ↔
      ((cache.plan world.files).take k).foldlM (OpItem.carryOut config) world.files = .ok files' :=
  executeFrom_iff_carryOut hbackup
    (List.forall₂_take k (reconstructFrom_forall₂ cache.matchOperations 0)) [] world.files journal

theorem applyCachedOperations_iff (hbackup : config.backupEnabled = false) :
    ((applyCachedOperations config hasJournal world cache journal).outcome = .ok () ∧
        (applyCachedOperations config hasJournal world cache journal).disk.files = files') ↔
      (cache.plan world.files).foldlM (OpItem.carryOut config) world.files = .ok files' :=
  executeFrom_iff_carryOut hbackup (reconstructFrom_forall₂ cache.matchOperations 0) [] world.files
    journal

/-! ## One step -/

/-- A target that is skipped over stays. -/
theorem resolveTargetConflict_skip (files : FileSystem) (journal : Option (List JournalEntry))
    (p : Path) : (unwrap (resolveTargetConflict .skip p)).exec (.healthy files journal) =
      (.ok p, .healthy files journal) := by
  unfold unwrap resolveTargetConflict
  rw [Program.exec_mapError, Program.exec_bind_of_ok (fileExists_healthy files journal p)]
  split
  · rfl
  · rfl

/-- **A target that is settled on** is the one planned, or the first that is
free; it is free unless conflicts are skipped over. -/
theorem resolveTargetConflict_eq_ok {policy : ConflictResolution}
    (h : (unwrap (resolveTargetConflict policy p)).exec (.healthy files journal) = (.ok q, disk')) :
    disk' = .healthy files journal ∧ (q = p ∨ firstFree files (numberedPaths p) = some q) ∧
      (policy ≠ .skip → files q = none) := by
  rcases hp : files p with - | content
  · rw [resolveTargetConflict_of_free hp] at h
    cases h
    exact ⟨rfl, Or.inl rfl, fun _ => hp⟩
  rcases policy with - | - | -
  · rw [resolveTargetConflict_skip] at h
    cases h
    exact ⟨rfl, Or.inl rfl, fun hne => absurd rfl hne⟩
  · obtain ⟨hdisk, hfree⟩ := resolveTargetConflict_of_taken hp h
    exact ⟨hdisk, Or.inr hfree, fun _ => (firstFree_eq_some hfree).2⟩
  · have hexists : (fileExists p : Engine Bool).exec (.healthy files journal) =
        (.ok true, .healthy files journal) := by
      rw [fileExists_healthy, hp]
      rfl
    unfold unwrap resolveTargetConflict at h
    rw [Program.exec_mapError, Program.exec_bind_of_ok hexists, if_pos rfl] at h
    cases h

theorem OpItem.target_eq {base : Path}
    (h : (item.operation config).relocationTargetPath = some base) : item.target config = base := by
  rw [target, h, Option.getD_some]

/-- Only an item that is to be relocated has a target to be relocated to. -/
theorem OpItem.requiresRelocation_of_some {base : Path}
    (h : (item.operation config).relocationTargetPath = some base) :
    (item.operation config).requiresRelocation = true := by
  unfold operation reconstructOperation at h ⊢
  dsimp only at h ⊢
  split at h
  · next htrue => exact htrue
  · cases h

/-- **The task of an item that is not copied** is to rename its subtitle. -/
theorem planTask_of_moves {task : ProcessingOperation} (hmode : config.relocationMode ≠ .copy)
    (h : (planTask config.toMatchConfig (item.operation config)).exec (.healthy files journal) =
      (.ok task, disk')) :
    disk' = .healthy files journal ∧ ∃ r, task = .renameFile item.subtitleFile r ∧
      (r = item.target config ∨
        firstFree files (numberedPaths (item.target config)) = some r) := by
  have hop : (item.operation config).relocationMode ≠ .copy := hmode
  rw [planTask, if_neg hop, createRenameTask] at h
  rcases hbase : (item.operation config).relocationTargetPath with - | base
  · have htarget : item.target config = item.subtitleFile.withFileName item.newSubtitleName := by
      rw [OpItem.target, hbase, Option.getD_none]
    rw [hbase] at h
    split at h
    · next hsome => cases hsome
    · cases h
      exact ⟨rfl, _, rfl, Or.inl htarget.symm⟩
  · rw [hbase, OpItem.requiresRelocation_of_some hbase] at h
    rw [OpItem.target_eq hbase]
    obtain ⟨r, disk₁, hresolve, h⟩ := Program.bind_eq_ok.1 h
    obtain ⟨rfl, hr, -⟩ := resolveTargetConflict_eq_ok hresolve
    cases h
    exact ⟨rfl, r, rfl, hr⟩

/-- What a move that goes through runs. -/
theorem OpItem.moveInto_of_carryOut (hmode : config.relocationMode ≠ .copy)
    (h : item.carryOut config files = .ok files') :
    ∃ r, (moveInto item.subtitleFile r).exec (.sound files) = (.ok (), .sound files') ∧
      (r = item.target config ∨
        firstFree files (numberedPaths (item.target config)) = some r) := by
  obtain ⟨task, disk₁, hplan, hrun⟩ := Program.bind_eq_ok.1 ((OpItem.carryOut_eq_ok none).1 h)
  obtain ⟨rfl, r, rfl, hr⟩ := planTask_of_moves hmode hplan
  exact ⟨r, mapError_eq_ok (mapError_eq_ok hrun), hr⟩

/-- **A move takes its subtitle to the first free path.** -/
theorem OpItem.carryOut_move (hmode : config.relocationMode ≠ .copy)
    (hsource : files item.subtitleFile = some content)
    (h : item.carryOut config files = .ok files') :
    ∃ q, firstFree files (numberedPaths (item.target config)) = some q ∧
      files' = update (update files item.subtitleFile none) q (some content) := by
  obtain ⟨r, hmove, hr⟩ := OpItem.moveInto_of_carryOut hmode h
  obtain ⟨q, hfree, hfiles⟩ := moveInto_eq_ok hsource hmove
  refine ⟨q, ?_, hfiles⟩
  rcases hr with rfl | hr
  · exact hfree.firstFree_eq
  · rw [hfree.eq_head (firstFree_eq_some hr).2]
    exact hr

/-- A move of a subtitle that is gone changes nothing. -/
theorem OpItem.carryOut_idle (hmode : config.relocationMode ≠ .copy)
    (hsource : files item.subtitleFile = none) (h : item.carryOut config files = .ok files') :
    files' = files := by
  obtain ⟨r, hmove, -⟩ := OpItem.moveInto_of_carryOut hmode h
  exact moveInto_eq_ok_of_none hsource hmove

/-- Whether a copy of an item has a target. -/
def OpItem.HasTarget (config : PlanConfig) (item : OpItem) : Prop :=
  (item.operation config).relocationTargetPath.isSome

/-- What a copy that writes over its target reads and writes: nothing, where
the two are the same, which is empty by then. -/
def OpItem.copied (config : PlanConfig) (item : OpItem) : Option Path × Path :=
  (if item.subtitleFile = item.target config then none else some item.subtitleFile,
    item.target config)

/-- Which is nothing but its subtitle, and that only from another path. -/
theorem OpItem.copied_fst_ne
    (h : item.subtitleFile ≠ item.target config → item.subtitleFile ≠ p) :
    (item.copied config).1 ≠ some p := by
  unfold copied
  dsimp only
  split
  · exact (Option.some_ne_none p).symm
  · next hne => exact fun heq => h hne (Option.some.inj heq)

theorem OpItem.value_copied (hsource : files item.subtitleFile = some content) :
    Assignments.value (some []) files (item.copied config) =
      some (if item.subtitleFile = item.target config then [] else content) := by
  unfold copied
  split
  · rfl
  · exact hsource

/-- **A copy that writes over its target assigns it.** -/
theorem OpItem.carryOut_copy (hmode : config.relocationMode = .copy)
    (hskip : config.conflictResolution = .skip) (hsource : files item.subtitleFile = some content) :
    item.carryOut config files = .ok files' ↔
      item.HasTarget config ∧ files' = Assignments.assign (some []) files [item.copied config] := by
  have hop : (item.operation config).relocationMode = .copy := hmode
  have hpolicy : config.toMatchConfig.conflictResolution = .skip := hskip
  have hassign : Assignments.assign (some []) files [item.copied config] =
      update files (item.target config)
        (some (if item.subtitleFile = item.target config then [] else content)) := by
    rw [← OpItem.value_copied hsource]
    rfl
  rw [OpItem.carryOut_eq_ok none, hassign]
  rcases hbase : (item.operation config).relocationTargetPath with - | base
  · rw [planTask, if_pos hop, createCopyTask, hbase]
    constructor
    · intro h
      cases h
    · rintro ⟨h, -⟩
      rw [HasTarget, hbase] at h
      cases h
  · have hplan : (planTask config.toMatchConfig (item.operation config)).exec
        (.healthy files none) =
          (.ok (.copyWithRename item.subtitleFile base), .healthy files none) := by
      rw [planTask, if_pos hop, createCopyTask, hbase]
      dsimp only
      rw [hpolicy, Program.exec_bind_of_ok (resolveTargetConflict_skip files none base)]
      rfl
    have hrun : (runTask (.copyWithRename item.subtitleFile base)).exec (.healthy files none) =
        (.ok (), .healthy (update files base
          (some (if item.subtitleFile = base then [] else content))) none) := by
      unfold runTask ProcessingOperation.execute
      rw [Program.exec_mapError, Program.exec_mapError,
        executeCopyWithRenameOperation_healthy hsource]
      rfl
    rw [Program.exec_bind_of_ok hplan, hrun, OpItem.target_eq hbase]
    constructor
    · intro h
      exact ⟨Option.isSome_of_eq_some hbase, (congrArg Disk.files (Prod.mk.inj h).2).symm⟩
    · rintro ⟨-, rfl⟩
      rfl

/-- An assignment takes no file away. -/
theorem isSome_assign (m : Option Path × Path)
    (hread : (Assignments.value (some []) files m).isSome) (h : (files p).isSome) :
    (Assignments.assign (some []) files [m] p).isSome := by
  change (update files m.2 _ p).isSome
  by_cases hp : p = m.2
  · rw [hp, update_self]
    exact hread
  · rw [update_of_ne hp]
    exact h

/-- **A run of copies** whose subtitles are there assigns their targets. -/
theorem foldlM_copies (hmode : config.relocationMode = .copy)
    (hskip : config.conflictResolution = .skip) :
    ∀ {items : List OpItem} {files : FileSystem},
      (∀ item ∈ items, (files item.subtitleFile).isSome) →
      (items.foldlM (OpItem.carryOut config) files = .ok files' ↔
        (∀ item ∈ items, item.HasTarget config) ∧
          files' = Assignments.assign (some []) files (items.map (OpItem.copied config)))
  | [], files, _ => by
    rw [Run.foldlM_ok_nil]
    exact ⟨fun h => ⟨fun item h => (List.not_mem_nil h).elim, h.symm⟩, fun h => h.2.symm⟩
  | item :: items, files, hsources => by
    obtain ⟨content, hsource⟩ := Option.isSome_iff_exists.1 (hsources item List.mem_cons_self)
    have hrest : ∀ item' ∈ items, (Assignments.assign (some []) files [item.copied config]
        item'.subtitleFile).isSome := fun item' hitem' =>
      isSome_assign _ (OpItem.value_copied hsource ▸ rfl)
        (hsources item' (List.mem_cons_of_mem _ hitem'))
    rw [Run.foldlM_ok_cons, List.forall_mem_cons, and_assoc, List.map_cons]
    constructor
    · rintro ⟨files₁, hcarry, hrun⟩
      obtain ⟨htarget, rfl⟩ := (OpItem.carryOut_copy hmode hskip hsource).1 hcarry
      exact ⟨htarget, (foldlM_copies hmode hskip hrest).1 hrun⟩
    · rintro ⟨htarget, htargets⟩
      exact ⟨_, (OpItem.carryOut_copy hmode hskip hsource).2 ⟨htarget, rfl⟩,
        (foldlM_copies hmode hskip hrest).2 htargets⟩

end SubxCore
