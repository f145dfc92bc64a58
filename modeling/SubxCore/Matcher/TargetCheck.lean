import SubxCore.Matcher.Cache
/-!
# The target check before a replay

`validate_target_paths` lists the targets of a cached plan that are taken. It derives a
target from the recorded mode and the names of an item, as neither the planner nor the
replay does: wherever anything is relocated it takes the directory of the video, also
where video and subtitle share it. All three come to the same target.
-/

namespace SubxCore

open MatchOperation

/-! ## The check -/

/-- Whether a recorded mode relocates. -/
def relocates (mode : Text) : Bool := mode ≠ [] && mode ≠ "None".toList

/-- The target of an item, as the check derives it. -/
def OpItem.checkedTarget (mode : Text) (item : OpItem) : Option Path :=
  (if relocates mode then item.videoFile.parent else item.subtitleFile.parent).map fun parent =>
    parent.join item.newSubtitleName

/-- `CacheData::validate_target_paths`. -/
def CacheData.validateTargetPaths (pathExists : Path → Bool) (data : CacheData) : List Path :=
  data.matchOperations.filterMap fun op =>
    (op.checkedTarget data.originalRelocationMode).filter fun target =>
      pathExists target && target ≠ op.subtitleFile

/-- The targets of a plan that are taken by another file than the operation's own. -/
def takenTargets (pathExists : Path → Bool) (ops : List MatchOperation) : List Path :=
  (ops.filter fun op => pathExists op.finalTarget && op.finalTarget ≠ op.source).map finalTarget

variable {hasher : Hasher} {config config' : PlanConfig} {files : FileSystem} {op : MatchOperation}
variable {ops : List MatchOperation} {pathExists : Path → Bool} {world world' : World}
variable {cacheKey : Text}

/-! ## One target, derived three times -/

theorem relocates_debug {mode : FileRelocationMode} :
    relocates mode.debug = true ↔ mode ≠ .none := by
  cases mode <;> decide

/-- **The check derives the target that was planned.** -/
theorem checkedTarget_ofOperation (h : IsPlanned config files op) :
    (OpItem.ofOperation op).checkedTarget config.relocationMode.debug = some op.finalTarget := by
  obtain ⟨videoDir, videoName, hvideo, -⟩ := h.video.exists_name
  obtain ⟨subtitleDir, subtitleName, hsubtitle, -⟩ := h.subtitle.exists_name
  have hvideoParent : op.videoFile.path.parent = some videoDir := by
    rw [hvideo, Path.parent_concat]
  have hsubtitleParent : op.subtitleFile.path.parent = some subtitleDir := by
    rw [hsubtitle, Path.parent_concat]
  have hrequires : op.requiresRelocation = true ↔
      config.relocationMode ≠ .none ∧ subtitleDir ≠ videoDir := by
    rw [h.requires, requiresRelocation, hvideoParent, hsubtitleParent]
    simp
  have hchecked : (OpItem.ofOperation op).checkedTarget config.relocationMode.debug =
      some ((if config.relocationMode ≠ .none then videoDir else subtitleDir).join
        op.newSubtitleName) := by
    simp only [OpItem.checkedTarget, OpItem.ofOperation, relocates_debug, hvideoParent,
      hsubtitleParent]
    split <;> rfl
  rw [hchecked, finalTarget]
  rcases h.relocationTargetPath_eq with ⟨hstays, htarget⟩ | ⟨dir, name, hdir, hmoves, htarget⟩
  · -- a subtitle that stays is in the directory of its video, if anything is relocated
    rw [htarget, source, hsubtitleParent]
    split
    · next hmode =>
      have hsame : subtitleDir = videoDir := by
        by_contra hne
        rw [hrequires.2 ⟨hmode, hne⟩] at hstays
        cases hstays
      rw [hsame]
      rfl
    · rfl
  · have hsame : dir = videoDir :=
      (List.append_inj' (hdir.symm.trans hvideo) rfl).1
    rw [htarget, if_pos (hrequires.1 hmoves).1, hsame]

/-- **And so does the replay.** -/
theorem finalTarget_reconstructOperation (h : IsPlanned config files op) (world : World) (n : ℕ) :
    (reconstructOperation config.relocationMode world n (OpItem.ofOperation op)).finalTarget =
      op.finalTarget := by
  have hrequires := h.requires
  have htarget : (reconstructOperation config.relocationMode world n
      (OpItem.ofOperation op)).relocationTargetPath = op.relocationTargetPath := by
    change (if requiresRelocation config.relocationMode op.videoFile.path op.subtitleFile.path then
      op.videoFile.path.parent.map fun dir => dir.join op.newSubtitleName else none) = _
    rw [← hrequires]
    rcases h.relocationTargetPath_eq with ⟨hstays, htarget⟩ | ⟨dir, name, hdir, hmoves, htarget⟩
    · rw [hstays, htarget]
      rfl
    · rw [hmoves, htarget, hdir, Path.parent_concat]
      rfl
  rw [finalTarget, finalTarget, htarget]
  rfl

/-! ## The whole plan -/

/-- What is rebuilt goes where the operations went whose files are still there. -/
theorem map_finalTarget_reconstructFrom (world : World) :
    ∀ {ops : List MatchOperation}, (∀ op ∈ ops, IsPlanned config files op) → ∀ n,
      (reconstructFrom config.relocationMode world n (ops.map OpItem.ofOperation)).map finalTarget =
        (ops.filter fun op => (OpItem.ofOperation op).present world.files).map finalTarget
  | [], _, _ => rfl
  | op :: ops, hops, n => by
    have ih := map_finalTarget_reconstructFrom world
      fun op' hmem => hops op' (List.mem_cons_of_mem op hmem)
    rw [List.map_cons, reconstructFrom, List.filter_cons]
    split
    · rw [List.map_cons, List.map_cons, ih, finalTarget_reconstructOperation
        (hops op List.mem_cons_self)]
    · exact ih n

/-- **The check lists the planned targets that are taken**, in order. -/
theorem validateTargetPaths_cacheDataOf (hops : ∀ op ∈ ops, IsPlanned config files op) :
    (cacheDataOf hasher config world cacheKey ops).validateTargetPaths pathExists =
      takenTargets pathExists ops := by
  change (ops.map OpItem.ofOperation).filterMap (fun op =>
    (op.checkedTarget config.relocationMode.debug).filter fun target =>
      pathExists target && target ≠ op.subtitleFile) = _
  induction ops with
  | nil => rfl
  | cons op ops ih =>
    have ih := ih fun op' hmem => hops op' (List.mem_cons_of_mem op hmem)
    rw [takenTargets, List.map_cons, List.filterMap_cons, List.filter_cons,
      checkedTarget_ofOperation (hops op List.mem_cons_self), Option.filter_some, ih]
    have hsource : (OpItem.ofOperation op).subtitleFile = op.source := rfl
    rw [hsource]
    by_cases htaken : (pathExists op.finalTarget && op.finalTarget ≠ op.source) = true
    · rw [if_pos htaken, if_pos htaken]
      rfl
    · rw [if_neg htaken, if_neg htaken]
      rfl

/-- **Before a replay the targets checked are those that were planned and those that will be
written**: item by item, and for the whole plan. -/
theorem validateTargetPaths_agrees (hasher : Hasher) (call : Call) (session session' : Session)
    (audit : MatchAudit) (hfiles : ¬ (call.videos = [] ∨ call.subtitles = []))
    (hmiss : checkFileListCache call.config call.world session.cache (call.key hasher) = .ok none)
    (hrun : (matchFileListWithAudit hasher call).exec session = (.ok audit, session')) :
    ∃ data, session'.cache = some data ∧
      data.matchOperations = audit.operations.map OpItem.ofOperation ∧
      (∀ op ∈ audit.operations, ∀ (config' : PlanConfig) (world' : World) (n : ℕ),
        config'.relocationMode = call.config.relocationMode →
        (OpItem.ofOperation op).present world'.files →
          (OpItem.ofOperation op).checkedTarget data.originalRelocationMode =
              some op.finalTarget ∧
            (reconstructOperation config'.relocationMode world' n
              (OpItem.ofOperation op)).finalTarget = op.finalTarget) ∧
      (∀ (config' : PlanConfig) (world' : World),
        config'.relocationMode = call.config.relocationMode →
          (reconstructOperationsFromCache config' world' data).map finalTarget =
            (audit.operations.filter fun op =>
              (OpItem.ofOperation op).present world'.files).map finalTarget) ∧
      ∀ pathExists, data.validateTargetPaths pathExists =
        takenTargets pathExists audit.operations := by
  rcases exec_eq_ok hrun with ⟨hempty, -, -⟩ | ⟨-, ⟨ops, hhit, -⟩ | ⟨-, hafresh⟩⟩
  · exact absurd hempty hfiles
  · rw [hmiss] at hhit
    cases hhit
  obtain ⟨request, reply, -, -, hplan, -, -, rfl⟩ := matchAfresh_eq_ok hafresh
  have hplanned := isPlanned_of_planOperations (isInventory_scanFileList _ _ _) hplan
  refine ⟨_, rfl, rfl, fun op hop config' world' n hmode _ => ?_, fun config' world' hmode => ?_,
    fun pathExists => validateTargetPaths_cacheDataOf hplanned⟩
  · rw [hmode]
    exact ⟨checkedTarget_ofOperation (hplanned op hop),
      finalTarget_reconstructOperation (hplanned op hop) world' n⟩
  · rw [reconstructOperationsFromCache, hmode]
    exact map_finalTarget_reconstructFrom world' hplanned 0

/-- Two subtitles copied beside their video, the second numbered by the allocator, whose
target is taken. -/
theorem validateTargetPaths_film :
    let call := filmCall .copy (1 / 2) filmPaths [(['0'], ['1'], 1), (['0'], ['2'], 1)]
    let taken := Path.ofText "/films/movie.2.srt".toList
    ∃ audit session' data,
      (matchFileListWithAudit plainHasher call).exec ⟨none, []⟩ = (.ok audit, session') ∧
      session'.cache = some data ∧ data.validateTargetPaths (· = taken) = [taken] := by
  intro call taken
  have htaken : (((matchFileListWithAudit plainHasher call).exec ⟨none, []⟩).1.toOption.map
      fun audit => takenTargets (· = taken) audit.operations) = some [taken] := by
    decide +kernel
  rcases hrun : (matchFileListWithAudit plainHasher call).exec ⟨none, []⟩ with
    ⟨stop | audit, session'⟩
  · rw [hrun] at htaken
    cases htaken
  · rw [hrun] at htaken
    obtain ⟨data, hdata, -, -, -, hvalidate⟩ := validateTargetPaths_agrees plainHasher call
      ⟨none, []⟩ session' audit (by decide +kernel) rfl hrun
    exact ⟨audit, session', data, rfl, hdata,
      (hvalidate (· = taken)).trans (Option.some.inj htaken)⟩

end SubxCore
