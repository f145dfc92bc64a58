import SubxCore.Matcher.Cache
/-!
# A plan read back

The cache keeps the name of a subtitle and not its target. That is enough:
a plan is made of operations whose target follows from the name, the mode
and the two paths (`IsPlanned`), the allocator leaves it one, and what is
rebuilt from such an operation agrees with it. So a second call on the same
files is answered from the cache, with the same plan.
-/

namespace SubxCore

open Text MatchOperation

/-- Two operations that are the same but for what the identifiers make of
them. -/
structure Agrees (op op' : MatchOperation) : Prop where
  videoPath : op'.videoFile.path = op.videoFile.path
  subtitlePath : op'.subtitleFile.path = op.subtitleFile.path
  newSubtitleName : op'.newSubtitleName = op.newSubtitleName
  confidence : op'.confidence = op.confidence
  reasoning : op'.reasoning = op.reasoning
  relocationMode : op'.relocationMode = op.relocationMode
  requiresRelocation : op'.requiresRelocation = op.requiresRelocation
  relocationTargetPath : op'.relocationTargetPath = op.relocationTargetPath

/-- Nothing has changed on disk; identifiers and time are others. -/
structure World.Unchanged (world world' : World) : Prop where
  files : world'.files = world.files
  modified : world'.modified = world.modified
  canonicalize : world'.canonicalize = world.canonicalize
  configDir : world'.configDir = world.configDir

variable {hasher : Hasher} {config : PlanConfig} {world world' : World} {op : MatchOperation}
variable {ops : List MatchOperation}

/-! ## The same question -/

theorem pathMetadata_of_unchanged (h : World.Unchanged world world') :
    ∀ (paths : List Path) (table : List (Text × ℕ × Option ℤ)),
      pathMetadata world' paths table = pathMetadata world paths table
  | [], _ => rfl
  | path :: paths, table => by
    unfold pathMetadata
    rw [pathMetadata_of_unchanged h paths, World.canonical, World.canonical, h.files, h.modified,
      h.canonicalize]

/-- The key is the same. -/
theorem calculateFileListCacheKey_of_unchanged (h : World.Unchanged world world')
    (filePaths : List Path) :
    calculateFileListCacheKey hasher config world' filePaths =
      calculateFileListCacheKey hasher config world filePaths := by
  unfold calculateFileListCacheKey
  rw [pathMetadata_of_unchanged h]

theorem getCacheFilePath_of_unchanged (h : World.Unchanged world world') :
    getCacheFilePath world' = getCacheFilePath world := by
  unfold getCacheFilePath
  rw [h.configDir]

/-- Whether there is something to match is the same. -/
theorem filesOfType_scanFileList_eq_nil_iff (h : World.Unchanged world world')
    (fileType : MediaFileType) (filePaths : List Path) :
    filesOfType fileType (scanFileList world'.files world'.scanIds filePaths) = [] ↔
      filesOfType fileType (scanFileList world.files world.scanIds filePaths) = [] := by
  rw [h.files]
  exact filesOfType_eq_nil_congr
    (map_scanFrom (f := MediaFile.fileType) (fun _ _ => rfl) _ filePaths 0 0) fileType

/-! ## The same answer -/

/-- The item of an operation that is planned has both its files. -/
theorem present_ofOperation (h : World.Unchanged world world')
    (hplanned : IsPlanned config world.files op) :
    (OpItem.ofOperation op).present world'.files = true := by
  obtain ⟨content, hvideo, -⟩ := hplanned.video.exists_content
  obtain ⟨content', hsubtitle, -⟩ := hplanned.subtitle.exists_content
  unfold OpItem.ofOperation OpItem.present
  dsimp only
  rw [h.files, hvideo, hsubtitle]
  rfl

/-- **What is rebuilt from an operation that is planned agrees with it.** -/
theorem rebuildOperation_ofOperation (hplanned : IsPlanned config world.files op) (world' : World)
    (n : ℕ) :
    ∃ op', rebuildOperation config.relocationMode world' n (OpItem.ofOperation op) = .ok op' ∧
      Agrees op op' := by
  obtain ⟨videoDir, videoName, hvideo, -⟩ := hplanned.video.exists_name
  obtain ⟨subtitleDir, subtitleName, hsubtitle, -⟩ := hplanned.subtitle.exists_name
  have hvideoName : unwrapSome op.videoFile.path.fileName = .ok videoName := by
    rw [hvideo, Path.fileName_concat]
    rfl
  have hsubtitleName : unwrapSome op.subtitleFile.path.fileName = .ok subtitleName := by
    rw [hsubtitle, Path.fileName_concat]
    rfl
  refine ⟨_, Run.bind_eq_ok.2 ⟨videoName, hvideoName, Run.bind_eq_ok.2 ⟨subtitleName, hsubtitleName,
    Run.bind_eq_ok.2 ⟨op.relocationTargetPath, hplanned.target, rfl⟩⟩⟩, ?_⟩
  exact ⟨rfl, rfl, rfl, rfl, rfl, hplanned.relocationMode.symm, hplanned.requires.symm, rfl⟩

/-- A plan is rebuilt operation by operation. -/
theorem rebuildFrom_ofOperation (h : World.Unchanged world world') :
    ∀ {ops : List MatchOperation}, (∀ op ∈ ops, IsPlanned config world.files op) → ∀ n,
      ∃ ops', rebuildFrom config.relocationMode world' n (ops.map OpItem.ofOperation) = .ok ops' ∧
        List.Forall₂ Agrees ops ops'
  | [], _, _ => ⟨[], rfl, .nil⟩
  | op :: ops, hops, n => by
    have hplanned := hops op List.mem_cons_self
    obtain ⟨op', hop', hagrees⟩ := rebuildOperation_ofOperation hplanned world' n
    obtain ⟨ops', hops', hall⟩ := rebuildFrom_ofOperation h
      (fun op' hmem => hops op' (List.mem_cons_of_mem op hmem)) (n + 2)
    refine ⟨op' :: ops', ?_, .cons hagrees hall⟩
    rw [List.map_cons, rebuildFrom, if_pos (present_ofOperation h hplanned)]
    exact Run.bind_eq_ok.2 ⟨op', hop', Run.bind_eq_ok.2 ⟨ops', hops', rfl⟩⟩

/-- **A second call on the same files is answered from the cache**, without a
request, and its plan agrees with the first operation by operation. -/
theorem matchFileList_replays (hasher : Hasher) (first second : Call) (session session' : Session)
    (audit : MatchAudit)
    (hmiss : checkFileListCache first.config first.world session.cache (first.key hasher) = .ok none)
    (hfirst : (matchFileListWithAudit hasher first).exec session = (.ok audit, session'))
    (hconfig : second.config = first.config) (hpaths : second.filePaths = first.filePaths)
    (hworld : World.Unchanged first.world second.world) :
    ∃ audit', (matchFileListWithAudit hasher second).exec session' = (.ok audit', session') ∧
      List.Forall₂ Agrees audit.operations audit'.operations := by
  have hvideos : second.videos = [] ↔ first.videos = [] := by
    unfold Call.videos
    rw [hpaths]
    exact filesOfType_scanFileList_eq_nil_iff hworld .video first.filePaths
  have hsubtitles : second.subtitles = [] ↔ first.subtitles = [] := by
    unfold Call.subtitles
    rw [hpaths]
    exact filesOfType_scanFileList_eq_nil_iff hworld .subtitle first.filePaths
  rcases exec_eq_ok hfirst with ⟨hempty, rfl, -⟩ | ⟨hfiles, hhit | ⟨-, hafresh⟩⟩
  · rw [← hvideos, ← hsubtitles] at hempty
    exact ⟨_, exec_of_empty hempty, .nil⟩
  · obtain ⟨ops, hhit, -⟩ := hhit
    rw [hmiss] at hhit
    cases hhit
  obtain ⟨request, reply, -, -, hplan, ⟨path, hpath⟩, -, rfl⟩ := matchAfresh_eq_ok hafresh
  have hplanned := isPlanned_of_planOperations (isInventory_scanFileList _ _ _) hplan
  obtain ⟨ops', hrebuild, hall⟩ := rebuildFrom_ofOperation hworld hplanned 0
  have hkey : second.key hasher = first.key hasher := by
    unfold Call.key
    rw [hconfig, hpaths, calculateFileListCacheKey_of_unchanged hworld]
  have hanswers : (cacheDataOf hasher first.config first.world (first.key hasher)
      audit.operations).Answers (second.key hasher) := ⟨rfl, hkey.symm⟩
  have hcheck : checkFileListCache second.config second.world _ (second.key hasher) =
      .ok (some ops') :=
    checkFileListCache_of_answers ((getCacheFilePath_of_unchanged hworld).trans hpath) hanswers
      (hconfig ▸ hrebuild)
  refine ⟨⟨ops', []⟩, ?_, hall⟩
  rw [← hvideos, ← hsubtitles] at hfiles
  rw [exec_of_files hfiles, hcheck]

/-- Two subtitles for one video, the second numbered by the allocator: the
second call finds both targets again. -/
theorem matchFileList_replays_film :
    let first := filmCall .copy (1 / 2) filmPaths [(['0'], ['1'], 1), (['0'], ['2'], 1)]
    let second : Call := { filmCall .copy (1 / 2) filmPaths [] with
      world := { filmWorld with scanIds := fun n => Decimal.decimal (n + 3), now := 1 } }
    ∃ audit session' audit',
      (matchFileListWithAudit plainHasher first).exec ⟨none, []⟩ = (.ok audit, session') ∧
      audit.operations.map MatchOperation.finalTarget =
        ["/films/movie.srt", "/films/movie.2.srt"].map (fun p => Path.ofText p.toList) ∧
      (matchFileListWithAudit plainHasher second).exec session' = (.ok audit', session') ∧
      List.Forall₂ Agrees audit.operations audit'.operations := by
  intro first second
  have hrun : (((matchFileListWithAudit plainHasher first).exec ⟨none, []⟩).1.toOption.map fun audit =>
      audit.operations.map MatchOperation.finalTarget) =
        some (["/films/movie.srt", "/films/movie.2.srt"].map fun p => Path.ofText p.toList) := by
    decide +kernel
  rcases hfirst : (matchFileListWithAudit plainHasher first).exec ⟨none, []⟩ with
    ⟨stop | audit, session'⟩
  · rw [hfirst] at hrun
    cases hrun
  · rw [hfirst] at hrun
    obtain ⟨audit', hsecond, hall⟩ := matchFileList_replays plainHasher first second ⟨none, []⟩
      session' audit rfl hfirst rfl rfl ⟨rfl, rfl, rfl, rfl⟩
    exact ⟨audit, session', audit', rfl, Option.some.inj hrun, hsecond, hall⟩

end SubxCore
