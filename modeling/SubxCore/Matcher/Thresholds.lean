import SubxCore.Matcher.SharedCache
/-!
# Thresholds across a shared cache

Engines that share a cache file may differ in their confidence threshold,
and the key of a call does not say it: the hash of a configuration is taken
of the relocation mode, the backup flag and a schema tag. A call that is
answered from the cache therefore gets the operations of the engine that
stored it. They meet the threshold of that engine
(`storedAbove_of_reached`), and that of the caller as long as it asks for
no more.
-/

namespace SubxCore

open Text MatchOperation

variable {hasher : Hasher} {call : Call} {audit : MatchAudit}

/-! ## Thresholds -/

/-- **The call asks for no more than the engine that answers it**: when the cache
answers it, the engine that stored the cache had no lower threshold. -/
def AsksNoMore (hasher : Hasher) (shared : SharedCache) (call : Call) : Prop :=
  ∀ data ∈ shared.cache, data.Answers (call.key hasher) →
    ∀ threshold ∈ shared.storedAt, call.config.confidenceThreshold ≤ threshold

/-- What is stored meets the threshold it was stored at. -/
def StoredAbove (shared : SharedCache) : Prop :=
  ∀ data ∈ shared.cache, ∃ threshold ∈ shared.storedAt,
    ∀ item ∈ data.matchOperations, threshold ≤ item.confidence

/-- A plan meets the threshold it is made with. -/
theorem threshold_le_of_planOperations {reply : MatchResult}
    (h : planOperations call.config call.world.files call.videos call.subtitles reply = .ok audit) :
    ∀ op ∈ audit.operations, call.config.confidenceThreshold ≤ op.confidence := fun op hop =>
  (isPlanned_of_planOperations (isInventory_scanFileList _ _ _) h op hop).confidence

theorem storedAbove_of_reached {shared : SharedCache} (h : CacheReached hasher shared) :
    StoredAbove shared := by
  intro data hdata
  obtain ⟨call, ops, hstored, hitems, hplanned⟩ := h.stored data hdata
  refine ⟨call.config.confidenceThreshold, hstored, fun item hitem => ?_⟩
  rw [hitems] at hitem
  obtain ⟨op, hop, rfl⟩ := List.mem_map.1 hitem
  exact (hplanned op hop).confidence

/-- **What a call returns meets its threshold**, whatever calls came before it,
when it asks for no more than the engine that answers it. -/
theorem matchFileList_meets_threshold (hasher : Hasher) (shared : SharedCache) (call : Call)
    (audit : MatchAudit) (session' : Session) (hreached : CacheReached hasher shared)
    (hasks : AsksNoMore hasher shared call)
    (h : (matchFileListWithAudit hasher call).exec ⟨shared.cache, []⟩ = (.ok audit, session')) :
    ∀ op ∈ audit.operations, call.config.confidenceThreshold ≤ op.confidence := by
  intro op hop
  rcases exec_eq_ok h with ⟨-, rfl, -⟩ | ⟨-, ⟨ops, hhit, rfl, -⟩ | ⟨-, hafresh⟩⟩
  · cases hop
  · obtain ⟨-, ⟨hnone, -⟩ | ⟨data, ops', hcache, hanswers, hsome, hrebuild⟩⟩ :=
      checkFileListCache_eq_ok hhit
    · cases hnone
    obtain rfl := Option.some.inj hsome
    obtain ⟨threshold, hstored, hitems⟩ := storedAbove_of_reached hreached data hcache
    obtain ⟨item, hitem, -, k, hitem'⟩ := exists_of_mem_rebuildFrom hrebuild op hop
    obtain ⟨videoName, subtitleName, -, -, hplan⟩ := rebuildOperation_eq_ok hitem'
    obtain ⟨target, -, rfl⟩ := planOperation_eq_ok hplan
    exact (hasks data hcache hanswers threshold hstored).trans (hitems item hitem)
  · obtain ⟨_, reply, -, -, hplan, -⟩ := matchAfresh_eq_ok hafresh
    exact threshold_le_of_planOperations hplan op hop

/-- A sure pair, planned at nine tenths and asked for at three. -/
theorem matchFileList_meets_threshold_film :
    let shared := SharedCache.next plainHasher ⟨none, none⟩
      (filmCall .none (9 / 10) filmPaths [(['0'], ['1'], 1)])
    let call := filmCall .none (3 / 10) filmPaths []
    ∃ audit session', (matchFileListWithAudit plainHasher call).exec ⟨shared.cache, []⟩ =
        (.ok audit, session') ∧
      audit.operations.map MatchOperation.confidence = [1] ∧
      ∀ op ∈ audit.operations, call.config.confidenceThreshold ≤ op.confidence := by
  intro shared call
  have hrun : ((matchFileListWithAudit plainHasher call).exec ⟨shared.cache, []⟩).1.toOption.map
      (fun audit => audit.operations.map MatchOperation.confidence) = some [1] := by decide +kernel
  have hasks : ∀ threshold ∈ shared.storedAt, call.config.confidenceThreshold ≤ threshold := by
    decide +kernel
  rcases hexec : (matchFileListWithAudit plainHasher call).exec ⟨shared.cache, []⟩ with
    ⟨stop | audit, session'⟩
  · rw [hexec] at hrun
    cases hrun
  · rw [hexec] at hrun
    exact ⟨audit, session', rfl, Option.some.inj hrun,
      matchFileList_meets_threshold plainHasher shared call audit session' (.call _ .start)
        (fun _ _ _ => hasks) hexec⟩

/-- **An engine gets operations below its threshold** from a cache that an
engine with a lower one has stored. -/
theorem matchFileList_below_threshold :
    ¬ ∀ (hasher : Hasher) (shared : SharedCache) (call : Call) (audit : MatchAudit)
      (session' : Session), CacheReached hasher shared →
      (matchFileListWithAudit hasher call).exec ⟨shared.cache, []⟩ = (.ok audit, session') →
      ∀ op ∈ audit.operations, call.config.confidenceThreshold ≤ op.confidence := by
  intro h
  let low := filmCall .none (3 / 10) filmPaths [(['0'], ['1'], 1 / 2)]
  let high := filmCall .none (9 / 10) filmPaths []
  let shared := SharedCache.next plainHasher ⟨none, none⟩ low
  have hrun : ((matchFileListWithAudit plainHasher high).exec ⟨shared.cache, []⟩).1.toOption.map
      (fun audit => audit.operations.map MatchOperation.confidence) = some [1 / 2] := by
    decide +kernel
  rcases hexec : (matchFileListWithAudit plainHasher high).exec ⟨shared.cache, []⟩ with
    ⟨stop | audit, session'⟩
  · rw [hexec] at hrun
    cases hrun
  rw [hexec] at hrun
  have hconfidences : audit.operations.map MatchOperation.confidence = [1 / 2] :=
    Option.some.inj hrun
  have hmem : (1 / 2 : ℚ) ∈ audit.operations.map MatchOperation.confidence := by
    rw [hconfidences]
    exact List.mem_singleton_self _
  obtain ⟨op, hop, hconfidence⟩ := List.mem_map.1 hmem
  have hle := h plainHasher shared high audit session' (.call low .start) hexec op hop
  rw [hconfidence] at hle
  exact absurd hle (by decide +kernel)

end SubxCore
