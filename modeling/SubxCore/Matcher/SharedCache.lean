import SubxCore.Matcher.Cache
/-!
# A shared cache

Engines with different configurations share one cache file, and a call that
is answered from it gets the operations another engine has stored. Whatever
calls come before, these are operations of a plan for files with the types
and names of media files, which makes them operations of a plan again where
the files are still there, if for another threshold
(`isPlanned_of_matched`).
-/

namespace SubxCore

open Text MatchOperation

variable {hasher : Hasher} {call : Call} {session session' : Session} {audit : MatchAudit}
variable {stop : Stop} {cacheKey : Text} {config : PlanConfig} {world : World} {item : OpItem}
variable {files : FileSystem} {op : MatchOperation} {n : ℕ}

/-! ## The shared cache -/

/-- The cache, and the threshold of the engine that stored it. -/
structure SharedCache where
  cache : Option CacheData
  storedAt : Option ℚ
  deriving DecidableEq, Repr

/-- The cache after a call. A call that asks the provider and returns has
stored its plan. -/
def SharedCache.next (hasher : Hasher) (shared : SharedCache) (call : Call) : SharedCache :=
  match (matchFileListWithAudit hasher call).exec ⟨shared.cache, []⟩ with
  | (.ok _, ⟨cache, _ :: _⟩) => ⟨cache, some call.config.confidenceThreshold⟩
  | (_, ⟨cache, _⟩) => ⟨cache, shared.storedAt⟩

/-- The caches that calls leave, one after the other, starting without one. -/
inductive CacheReached (hasher : Hasher) : SharedCache → Prop
  | start : CacheReached hasher ⟨none, none⟩
  | call {shared : SharedCache} (call : Call) :
      CacheReached hasher shared → CacheReached hasher (shared.next hasher call)

/-! ## What a call leaves -/

/-- A save that fails leaves the cache, or none. -/
theorem saveFileListCache_eq_error {ops : List MatchOperation}
    (h : (saveFileListCache hasher call cacheKey ops).exec session = (.error stop, session')) :
    session'.cache = session.cache ∨ session'.cache = none := by
  unfold saveFileListCache at h
  rw [Program.exec_bind, Program.exec_ofExcept] at h
  rcases hpath : getCacheFilePath call.world with err | path
  · rw [hpath] at h
    cases h
    exact Or.inl rfl
  rw [hpath] at h
  dsimp only [Except.mapError] at h
  rw [Program.exec_step] at h
  rcases hwrite : call.cacheWrite with - | message | message
  · rw [hwrite] at h
    cases h
  · rw [hwrite] at h
    cases h
    exact Or.inl rfl
  · rw [hwrite] at h
    cases h
    exact Or.inr rfl

/-- A call that fails leaves the cache, or none. -/
theorem matchAfresh_eq_error
    (h : (matchAfresh hasher call cacheKey).exec session = (.error stop, session')) :
    session'.cache = session.cache ∨ session'.cache = none := by
  unfold matchAfresh at h
  rw [Program.exec_bind, Program.exec_ofExcept] at h
  rcases hrequest : analysisRequest call.config call.world.files call.videos call.subtitles with
    stop' | request
  · rw [hrequest] at h
    cases h
    exact Or.inl rfl
  rw [hrequest] at h
  dsimp only at h
  rw [Program.exec_bind, analyzeContent, Program.exec_step] at h
  rcases hreply : call.provider request with err | reply
  · rw [hreply] at h
    cases h
    exact Or.inl rfl
  rw [hreply] at h
  dsimp only [Except.mapError] at h
  rw [Program.exec_bind, Program.exec_ofExcept] at h
  rcases hplan : planOperations call.config call.world.files call.videos call.subtitles reply with
    panic | audit
  · rw [hplan] at h
    cases h
    exact Or.inl rfl
  rw [hplan] at h
  dsimp only [Except.mapError] at h
  rw [Program.exec_bind] at h
  rcases hsave : (saveFileListCache hasher call cacheKey audit.operations).exec
    ⟨session.cache, session.requests ++ [request]⟩ with ⟨stop' | u, session''⟩
  · rw [hsave] at h
    cases h
    have hcache := saveFileListCache_eq_error hsave
    exact hcache
  · rw [hsave] at h
    cases h

theorem exec_eq_error
    (h : (matchFileListWithAudit hasher call).exec session = (.error stop, session')) :
    session'.cache = session.cache ∨ session'.cache = none := by
  by_cases hfiles : call.videos = [] ∨ call.subtitles = []
  · rw [exec_of_empty hfiles] at h
    cases h
  rw [exec_of_files hfiles] at h
  split at h
  · cases h
    exact Or.inl rfl
  · cases h
  · exact matchAfresh_eq_error h

/-! ## What is stored -/

/-- **What a cache holds that calls have left**: the plan of one of them, stored
at its threshold. -/
theorem CacheReached.stored {shared : SharedCache} (h : CacheReached hasher shared) :
    ∀ data ∈ shared.cache, ∃ (call : Call) (ops : List MatchOperation),
      shared.storedAt = some call.config.confidenceThreshold ∧
      data.matchOperations = ops.map OpItem.ofOperation ∧
      ∀ op ∈ ops, IsPlanned call.config call.world.files op := by
  induction h with
  | start =>
    intro data hdata
    cases hdata
  | @call shared call _ ih =>
    unfold SharedCache.next
    rcases hexec : (matchFileListWithAudit hasher call).exec ⟨shared.cache, []⟩ with
      ⟨stop | audit, session'⟩
    · rcases exec_eq_error hexec with hcache | hcache
      · dsimp only
        rw [hcache]
        exact ih
      · dsimp only
        rw [hcache]
        intro data hdata
        cases hdata
    rcases exec_eq_ok hexec with ⟨-, -, rfl⟩ | ⟨-, ⟨ops, -, -, rfl⟩ | ⟨-, hafresh⟩⟩
    · exact ih
    · exact ih
    · obtain ⟨_, reply, -, -, hplan, -, -, rfl⟩ := matchAfresh_eq_ok hafresh
      intro data hdata
      cases hdata
      exact ⟨call, audit.operations, rfl, rfl,
        isPlanned_of_planOperations (isInventory_scanFileList _ _ _) hplan⟩

/-- A file of a plan that is still there is discovered again. -/
theorem isDiscovered_replayedFile (id : Text) {file : MediaFile} {name : FileName}
    (h : IsDiscovered files file) (hname : file.path.fileName = some name)
    (hpresent : (world.files file.path).isSome) :
    IsDiscovered world.files (replayedFile world.files id file.fileType file.path name.text) := by
  obtain ⟨content, hcontent⟩ := Option.isSome_iff_exists.1 hpresent
  refine ⟨⟨content, hcontent, ?_⟩, ⟨_, name, Path.eq_concat_of_fileName hname, rfl⟩, ?_, rfl⟩
  · unfold replayedFile
    dsimp only
    rw [hcontent]
    rfl
  · unfold replayedFile
    dsimp only
    rw [← h.extension]
    exact h.fileType

/-- **An operation of a plan that is rebuilt** is one of a plan again, at the
threshold of the engine that stored it. -/
theorem isPlanned_of_rebuildOperation {stored : PlanConfig} (h : IsPlanned stored files op)
    (hpresent : (OpItem.ofOperation op).present world.files) {op' : MatchOperation}
    (hrebuild : rebuildOperation config.relocationMode world n (.ofOperation op) = .ok op') :
    IsPlanned { config with confidenceThreshold := stored.confidenceThreshold } world.files op' := by
  obtain ⟨videoName, subtitleName, hvideoName, hsubtitleName, hplan⟩ :=
    rebuildOperation_eq_ok hrebuild
  obtain ⟨target, htarget, rfl⟩ := planOperation_eq_ok hplan
  obtain ⟨hvideo, hsubtitle⟩ := (Bool.and_eq_true _ _).mp hpresent
  have hv := isDiscovered_replayedFile (world.cacheIds n) h.video hvideoName hvideo
  have hs := isDiscovered_replayedFile (world.cacheIds (n + 1)) h.subtitle hsubtitleName hsubtitle
  rw [h.videoType] at hv
  rw [h.subtitleType] at hs
  exact ⟨hv, rfl, hs, rfl, h.confidence, h.newSubtitleName, h.subtitleName, rfl, rfl, htarget⟩

/-- **What a call returns is a plan**, if for another threshold, whatever calls
came before it. -/
theorem isPlanned_of_matched {shared : SharedCache} (hreached : CacheReached hasher shared)
    (h : (matchFileListWithAudit hasher call).exec ⟨shared.cache, []⟩ = (.ok audit, session')) :
    ∃ plan : PlanConfig, plan.toMatchConfig = call.config.toMatchConfig ∧
      ∀ op ∈ audit.operations, IsPlanned plan call.world.files op := by
  rcases exec_eq_ok h with ⟨-, rfl, -⟩ | ⟨-, ⟨ops, hhit, rfl, -⟩ | ⟨-, hafresh⟩⟩
  · refine ⟨call.config, rfl, fun op hop => ?_⟩
    cases hop
  · obtain ⟨-, ⟨hnone, -⟩ | ⟨data, ops', hcache, -, hsome, hrebuild⟩⟩ := checkFileListCache_eq_ok hhit
    · cases hnone
    obtain rfl := Option.some.inj hsome
    obtain ⟨earlier, stored, -, hitems, hplanned⟩ := hreached.stored data hcache
    refine ⟨{ call.config with confidenceThreshold := earlier.config.confidenceThreshold }, rfl,
      fun op hop => ?_⟩
    obtain ⟨item, hitem, hpresent, k, hitem'⟩ := exists_of_mem_rebuildFrom hrebuild op hop
    rw [hitems] at hitem
    obtain ⟨op', hop', rfl⟩ := List.mem_map.1 hitem
    exact isPlanned_of_rebuildOperation (hplanned op' hop') hpresent hitem'
  · obtain ⟨_, reply, -, -, hplan, -⟩ := matchAfresh_eq_ok hafresh
    exact ⟨call.config, rfl, isPlanned_of_planOperations (isInventory_scanFileList _ _ _) hplan⟩

end SubxCore
