import SubxCore.Matcher.PlanExecution
import SubxCore.Matcher.Frame
/-!
# The freshness of a cached plan

`validate_snapshot` compares the files of a cached plan with what the cache recorded of them:
each has to be there, with the size and the time of then. The names are not compared, nor are
the contents. A plan makes its own cache stale, and with nothing but what it moves: whatever
becomes of the execution, a file that is not a subtitle to be moved is never reported.
-/

namespace SubxCore

open Text Decimal MatchOperation

/-- `StaleFile`. -/
structure StaleFile where
  path : Text
  reason : Text
  deriving DecidableEq, Repr

/-- The time of a file, in seconds. -/
def World.mtime (world : World) (path : Path) : ℕ :=
  ((world.modified path).map fun t => (t / 10 ^ 9).toNat).getD 0

/-- How a file that is gone is reported. -/
def StaleFile.missing (path : Path) : StaleFile :=
  ⟨path.display, "file missing or inaccessible: ".toList ++ IoError.notFound.display⟩

/-- What `validate_snapshot` reports of an entry. -/
def SnapshotItem.staleFile (world : World) (item : SnapshotItem) : Option StaleFile :=
  if item.path = [] then some ⟨item.name, "snapshot entry missing canonical path".toList⟩
  else
    match world.files item.path with
    | none => some (.missing item.path)
    | some content =>
      if content.length ≠ item.size then
        some ⟨item.path.display, "size changed (snapshot=".toList ++ decimal item.size ++
          ", current=".toList ++ decimal content.length ++ ")".toList⟩
      else if world.mtime item.path ≠ item.mtime then
        some ⟨item.path.display, "mtime changed (snapshot=".toList ++ decimal item.mtime ++
          ", current=".toList ++ decimal (world.mtime item.path) ++ ")".toList⟩
      else none

/-- `CacheData::validate_snapshot`. -/
def CacheData.validateSnapshot (world : World) (data : CacheData) : List StaleFile :=
  data.fileSnapshot.filterMap (·.staleFile world)

/-- The two files of an operation. -/
def MatchOperation.paths (op : MatchOperation) : List Path := [op.videoFile.path, op.subtitleFile.path]

variable {hasher : Hasher} {config : PlanConfig} {world world' : World} {item : SnapshotItem}
variable {cacheKey : Text} {ops : List MatchOperation} {op : MatchOperation} {p : Path}
variable {stale : StaleFile} {hasJournal : Bool} {disk : Disk} {content : Bytes}
variable {journal : Option (List JournalEntry)}

/-! ## An entry and its file -/

/-- An entry is about a file that is there, with its size and its time. -/
theorem snapshotItem_eq_some (h : snapshotItem world p = some item) : item.path = p ∧
    item.mtime = world.mtime p ∧ ∃ content, world.files p = some content ∧
      item.size = content.length := by
  obtain ⟨content, hcontent, h⟩ := Option.bind_eq_some_iff.1 h
  obtain rfl := Option.some.inj h
  exact ⟨rfl, rfl, content, hcontent, rfl⟩

theorem exists_snapshotItem (h : world.files p = some content) :
    ∃ item, snapshotItem world p = some item := by
  unfold snapshotItem
  rw [h]
  exact ⟨_, rfl⟩

/-- The entries of a snapshot are those of the files of the plan. -/
theorem mem_fileSnapshot : item ∈ fileSnapshot world ops ↔
    ∃ op ∈ ops, ∃ p ∈ op.paths, snapshotItem world (world.canonical p) = some item := by
  simp only [fileSnapshot, List.mem_filterMap, List.mem_eraseDups, List.mem_map, List.mem_flatMap]
  constructor
  · rintro ⟨_, ⟨p, ⟨op, hop, hp⟩, rfl⟩, h⟩
    exact ⟨op, hop, p, hp, h⟩
  · rintro ⟨op, hop, p, hp, h⟩
    exact ⟨_, ⟨p, ⟨op, hop, hp⟩, rfl⟩, h⟩

/-- Nothing is reported of an entry as long as its file is there with the same size and time. -/
theorem staleFile_eq_none_iff (h : snapshotItem world p = some item) (hp : p ≠ []) :
    item.staleFile world' = none ↔ ∃ content, world'.files p = some content ∧
      some content.length = (world.files p).map List.length ∧ world'.mtime p = world.mtime p := by
  obtain ⟨rfl, hmtime, content, hcontent, hsize⟩ := snapshotItem_eq_some h
  rw [SnapshotItem.staleFile, if_neg hp, hcontent, hsize, hmtime, Option.map_some]
  rcases world'.files item.path with - | content'
  · simp
  · by_cases hlength : content'.length = content.length
    · by_cases htime : world'.mtime item.path = world.mtime item.path <;> simp [hlength, htime]
    · simp [hlength]

/-- A file that is gone is reported so. -/
theorem staleFile_of_gone (h : snapshotItem world p = some item) (hp : p ≠ [])
    (hgone : world'.files p = none) : item.staleFile world' = some (.missing p) := by
  obtain ⟨rfl, -⟩ := snapshotItem_eq_some h
  rw [SnapshotItem.staleFile, if_neg hp, hgone]

/-- Whatever is reported of an entry is reported under the path of its file. -/
theorem path_of_staleFile (h : snapshotItem world p = some item) (hp : p ≠ [])
    (hstale : item.staleFile world' = some stale) : stale.path = p.display := by
  obtain ⟨rfl, -⟩ := snapshotItem_eq_some h
  rw [SnapshotItem.staleFile, if_neg hp] at hstale
  split at hstale
  · cases hstale
    rfl
  split at hstale
  · cases hstale
    rfl
  split at hstale
  · cases hstale
    rfl
  · cases hstale

/-! ## A plan and its cache -/

/-- No path of a plan goes through a link. -/
def Canonical (world : World) (ops : List MatchOperation) : Prop :=
  ∀ op ∈ ops, ∀ p ∈ op.paths, world.canonical p = p

theorem ne_nil_of_mem_paths {files : FileSystem} (h : IsPlanned config files op)
    (hp : p ∈ op.paths) : p ≠ [] := by
  obtain ⟨videoDir, videoName, hvideo, -⟩ := h.video.exists_name
  obtain ⟨subtitleDir, subtitleName, hsubtitle, -⟩ := h.subtitle.exists_name
  rcases List.mem_pair.1 hp with rfl | rfl
  · rw [hvideo]
    simp
  · rw [hsubtitle]
    simp

theorem mem_validateSnapshot (hcanonical : Canonical world ops) :
    stale ∈ (cacheDataOf hasher config world cacheKey ops).validateSnapshot world' ↔
      ∃ op ∈ ops, ∃ p ∈ op.paths, ∃ item, snapshotItem world p = some item ∧
        item.staleFile world' = some stale := by
  rw [CacheData.validateSnapshot, List.mem_filterMap]
  constructor
  · rintro ⟨item, hitem, hstale⟩
    obtain ⟨op, hop, p, hp, h⟩ := mem_fileSnapshot.1 hitem
    rw [hcanonical op hop p hp] at h
    exact ⟨op, hop, p, hp, item, h, hstale⟩
  · rintro ⟨op, hop, p, hp, item, h, hstale⟩
    refine ⟨item, mem_fileSnapshot.2 ⟨op, hop, p, hp, ?_⟩, hstale⟩
    rw [hcanonical op hop p hp, h]

/-- **A cached plan is fresh exactly when** every file it had is there with its size and its
time. -/
theorem validateSnapshot_eq_nil_iff (hops : ∀ op ∈ ops, IsPlanned config world.files op)
    (hcanonical : Canonical world ops) :
    (cacheDataOf hasher config world cacheKey ops).validateSnapshot world' = [] ↔
      ∀ op ∈ ops, ∀ p ∈ op.paths, ∀ content, world.files p = some content →
        ∃ content', world'.files p = some content' ∧ content'.length = content.length ∧
          world'.mtime p = world.mtime p := by
  rw [List.eq_nil_iff_forall_not_mem]
  constructor
  · intro h op hop p hp content hcontent
    obtain ⟨item, hitem⟩ := exists_snapshotItem hcontent
    have hnone : item.staleFile world' = none := by
      rw [Option.eq_none_iff_forall_ne_some]
      exact fun stale hstale =>
        h stale ((mem_validateSnapshot hcanonical).2 ⟨op, hop, p, hp, item, hitem, hstale⟩)
    obtain ⟨content', hcontent', hlength, hmtime⟩ :=
      (staleFile_eq_none_iff hitem (ne_nil_of_mem_paths (hops op hop) hp)).1 hnone
    rw [hcontent] at hlength
    exact ⟨content', hcontent', Option.some.inj hlength, hmtime⟩
  · intro h stale hmem
    obtain ⟨op, hop, p, hp, item, hitem, hstale⟩ := (mem_validateSnapshot hcanonical).1 hmem
    obtain ⟨-, -, content, hcontent, -⟩ := snapshotItem_eq_some hitem
    obtain ⟨content', hcontent', hlength, hmtime⟩ := h op hop p hp content hcontent
    have hnone := (staleFile_eq_none_iff hitem (ne_nil_of_mem_paths (hops op hop) hp)).2
      ⟨content', hcontent', by rw [hcontent, hlength, Option.map_some], hmtime⟩
    rw [hstale] at hnone
    cases hnone

/-! ## After an execution -/

/-- What is found after an execution: its files, and what it may not lose has its time. -/
structure After (config : MatchConfig) (ops : List MatchOperation) (disk : Disk)
    (world world' : World) : Prop where
  files : world'.files = disk.files
  modified : ∀ p, (world.files p).isSome → ¬ BatchMayLose config ops p →
    world'.modified p = world.modified p

/-- What is reported after an execution may have been lost in it. -/
theorem mayLose_of_stale {disk' : Disk} {config' : MatchConfig}
    (hkept : FilesKept (BatchMayLose config' ops) disk disk')
    (hdisk : disk.files = world.files) (hafter : After config' ops disk' world world')
    (hitem : snapshotItem world p = some item) (hp : p ≠ [])
    (hstale : item.staleFile world' = some stale) : BatchMayLose config' ops p := by
  by_contra hlost
  obtain ⟨-, -, content, hcontent, -⟩ := snapshotItem_eq_some hitem
  have hthere : world'.files p = some content := by
    rw [hafter.files]
    exact hkept p content (hdisk ▸ hcontent) hlost
  have hmtime : world'.mtime p = world.mtime p := by
    rw [World.mtime, World.mtime,
      hafter.modified p (Option.isSome_of_eq_some hcontent) hlost]
  have hnone := (staleFile_eq_none_iff hitem hp).2
    ⟨content, hthere, by rw [hcontent, Option.map_some], hmtime⟩
  rw [hstale] at hnone
  cases hnone

/-- **A plan makes nothing stale but what it moves.** However an execution of it fares, and
wherever it is cancelled: what is reported of its cache afterwards is a subtitle to be moved or
renamed. So the cache of a plan that copies stays fresh. -/
theorem stale_after_execution (hasher : Hasher) (world world' : World) (cacheKey : Text)
    (hasJournal : Bool) (cancelled : ℕ → Bool) (disk disk' : Disk)
    (hops : ∀ op ∈ ops, IsPlanned config world.files op) (hcanonical : Canonical world ops)
    (hpolicy : config.conflictResolution ≠ .skip) (hdisk : disk.files = world.files)
    (hrun : disk' = (executeOperations config.toMatchConfig hasJournal ops false disk).disk ∨
      disk' = (executeOperationsAudit config.toMatchConfig hasJournal cancelled ops false disk).disk)
    (hafter : After config.toMatchConfig ops disk' world world') :
    ∀ stale ∈ (cacheDataOf hasher config world cacheKey ops).validateSnapshot world',
      config.relocationMode ≠ .copy ∧ ∃ op ∈ ops, stale.path = op.source.display := by
  intro stale hmem
  have hkept : FilesKept (BatchMayLose config.toMatchConfig ops) disk disk' := by
    rcases hrun with rfl | rfl
    · exact executeOperations_kept config.toMatchConfig hasJournal ops false disk
    · exact executeOperationsAudit_kept config.toMatchConfig hasJournal cancelled ops false disk
  obtain ⟨op, hop, p, hp, item, hitem, hstale⟩ := (mem_validateSnapshot hcanonical).1 hmem
  have hne := ne_nil_of_mem_paths (hops op hop) hp
  obtain ⟨op', hop', ⟨hmode, rfl⟩ | ⟨hskip, -⟩⟩ :=
    mayLose_of_stale hkept hdisk hafter hitem hne hstale
  · rw [(hops op' hop').relocationMode] at hmode
    exact ⟨hmode, op', hop', path_of_staleFile hitem hne hstale⟩
  · exact absurd hskip hpolicy

/-- What is found after some files have come about, at the times of then. -/
def World.afterwards (world : World) (disk : Disk) : World := { world with files := disk.files }

theorem after_afterwards (config : MatchConfig) (ops : List MatchOperation) (disk : Disk)
    (world : World) : After config ops disk world (world.afterwards disk) :=
  ⟨rfl, fun _ _ _ => rfl⟩

/-- A call that moves two subtitles beside their video, with backups. -/
def movingCall : Call :=
  numberingCall .move filmWorld filmPaths [(['0'], ['1'], 1), (['0'], ['2'], 1)]

/-- What it plans, and that nothing hinders. -/
theorem exists_movingCall : ∃ (plan : PlanConfig) (ops : List MatchOperation), ops.length = 2 ∧
    plan.toMatchConfig = ⟨true, .move, .autoRename⟩ ∧
      (∀ op ∈ ops, IsPlanned plan filmWorld.files op) ∧
      Unhindered plan.toMatchConfig filmWorld.files ops ∧
      ∀ op ∈ ops, ∀ op' ∈ ops, op.source ≠ op'.finalTarget := by
  have hrun : ((matchFileListWithAudit plainHasher movingCall).exec ⟨none, []⟩).1.toOption.map
      (fun audit => (audit.operations.length, decide
        (Unhindered movingCall.config.toMatchConfig filmWorld.files audit.operations ∧
          ∀ op ∈ audit.operations, ∀ op' ∈ audit.operations, op.source ≠ op'.finalTarget))) =
      some (2, true) := by decide +kernel
  rcases hexec : (matchFileListWithAudit plainHasher movingCall).exec ⟨none, []⟩ with
    ⟨stop | audit, session'⟩
  · rw [hexec] at hrun
    cases hrun
  · rw [hexec] at hrun
    obtain ⟨hlength, hholds⟩ := Prod.mk.inj (Option.some.inj hrun)
    obtain ⟨hunhindered, hapart⟩ := of_decide_eq_true hholds
    have hreached : CacheReached plainHasher ⟨none, none⟩ := .start
    obtain ⟨plan, hplan, hops⟩ := isPlanned_of_matched hreached hexec
    rw [← hplan] at hunhindered
    exact ⟨plan, audit.operations, hlength, hplan, hops, hunhindered, hapart⟩

/-- A run of it on a disk whose first call fails. -/
theorem stale_after_execution_film : ∃ (plan : PlanConfig) (ops : List MatchOperation),
    ops.length = 2 ∧ ∀ stale ∈ (cacheDataOf plainHasher plan filmWorld [] ops).validateSnapshot
      (filmWorld.afterwards (executeOperations plan.toMatchConfig true ops false
        ⟨filmWorld.files, none, fun n => if n = 0 then some ⟨[], 0⟩ else none⟩).disk),
      plan.relocationMode ≠ .copy ∧ ∃ op ∈ ops, stale.path = op.source.display := by
  obtain ⟨plan, ops, hlength, hplan, hops, -⟩ := exists_movingCall
  have hpolicy : plan.conflictResolution = .autoRename :=
    congrArg MatchConfig.conflictResolution hplan
  refine ⟨plan, ops, hlength, ?_⟩
  exact stale_after_execution plainHasher filmWorld _ [] true (fun _ => false) _ _ hops
    (fun _ _ _ _ => rfl) (by simp [hpolicy]) rfl (.inl rfl) (after_afterwards _ _ _ _)

/-- **A plan that happens makes its cache stale**: reported are its subtitles, all of them, as
gone, where none is moved to the place of another. -/
theorem stale_after_plan (hasher : Hasher) (world world' : World) (cacheKey : Text)
    (hasJournal : Bool) (journal : Option (List JournalEntry))
    (hops : ∀ op ∈ ops, IsPlanned config world.files op) (hcanonical : Canonical world ops)
    (hmode : config.relocationMode ≠ .copy) (hpolicy : config.conflictResolution = .autoRename)
    (hplan : Unhindered config.toMatchConfig world.files ops)
    (hapart : ∀ op ∈ ops, ∀ op' ∈ ops, op.source ≠ op'.finalTarget)
    (hafter : After config.toMatchConfig ops (executeOperations config.toMatchConfig hasJournal ops
      false (.healthy world.files journal)).disk world world') (stale : StaleFile) :
    stale ∈ (cacheDataOf hasher config world cacheKey ops).validateSnapshot world' ↔
      ∃ op ∈ ops, stale = .missing op.source := by
  have hhappens : PlanHappens config.toMatchConfig hasJournal ops (.healthy world.files journal) :=
    planHappens_of_unhindered hmode hpolicy hops hplan
  have hgone : ∀ op ∈ ops, world'.files op.source = none := by
    intro op hop
    rw [hafter.files]
    refine (run_of_executeFrom hmode hpolicy hops hhappens.1).emptied hplan.moves
      (moves_visible hops) (fun m hm m' hm' => ?_) op.move (List.mem_map_of_mem hop)
    obtain ⟨a, ha, rfl⟩ := List.mem_map.1 hm
    obtain ⟨b, hb, rfl⟩ := List.mem_map.1 hm'
    exact hapart a ha b hb
  rw [mem_validateSnapshot hcanonical]
  constructor
  · rintro ⟨op, hop, p, hp, item, hitem, hstale⟩
    have hne := ne_nil_of_mem_paths (hops op hop) hp
    obtain ⟨op', hop', ⟨-, rfl⟩ | ⟨hskip, -⟩⟩ := mayLose_of_stale
      (executeOperations_kept config.toMatchConfig hasJournal ops false _) rfl hafter hitem hne hstale
    · rw [staleFile_of_gone hitem hne (hgone op' hop')] at hstale
      exact ⟨op', hop', (Option.some.inj hstale).symm⟩
    · rw [hskip] at hpolicy
      cases hpolicy
  · rintro ⟨op, hop, rfl⟩
    obtain ⟨content, hcontent, -⟩ := hhappens.2 op hop
    obtain ⟨item, hitem⟩ := exists_snapshotItem hcontent
    have hmem : op.source ∈ op.paths := List.mem_pair.2 (.inr rfl)
    exact ⟨op, hop, op.source, hmem, item, hitem,
      staleFile_of_gone hitem (ne_nil_of_mem_paths (hops op hop) hmem) (hgone op hop)⟩

/-- Both subtitles are reported. -/
theorem stale_after_plan_film : ∃ (plan : PlanConfig) (ops : List MatchOperation),
    ops.length = 2 ∧ ∀ stale, stale ∈ (cacheDataOf plainHasher plan filmWorld [] ops).validateSnapshot
      (filmWorld.afterwards (executeOperations plan.toMatchConfig true ops false
        (.healthy filmWorld.files none)).disk) ↔ ∃ op ∈ ops, stale = .missing op.source := by
  obtain ⟨plan, ops, hlength, hplan, hops, hunhindered, hapart⟩ := exists_movingCall
  have hmode : plan.relocationMode = .move := congrArg MatchConfig.relocationMode hplan
  have hpolicy : plan.conflictResolution = .autoRename :=
    congrArg MatchConfig.conflictResolution hplan
  refine ⟨plan, ops, hlength, ?_⟩
  exact stale_after_plan plainHasher filmWorld _ [] true none hops (fun _ _ _ _ => rfl)
    (by simp [hmode]) hpolicy hunhindered hapart (after_afterwards _ _ _ _)

end SubxCore
