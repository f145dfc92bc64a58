import SubxCore.Translation.Batches
/-!
# The requests of a run

The plan of a run is its initial batches and, when cues are missing after
them, one batch with all of those. The log of a run that succeeds goes
through the whole plan, the log of one that fails through a part of it, and
the number of requests, the number of requests with a given cue and the
number of cues of each request follow.

The initial batches never carry more cues than the batch size. The batch of
missing cues is not cut into chunks: it carries as many cues as the
accepted replies to the initial batches left out, all batches together.
-/

namespace SubxCore

open Text

variable {replies : Replies} {sent : SentRequest} {log : Log} {translations : TextMap}
variable {cueIds : List Text} {protectedCues : List ProtectedCueText} {b : ℕ}

/-! ## The plan -/

theorem ids_batchCues (phase : Phase) (indices : List ℕ) :
    (SentRequest.mk phase (batchCues cueIds protectedCues indices)).ids =
      indices.map (cueIds.getD · []) := by
  simp [SentRequest.ids, batchCues, Function.comp_def]

theorem map_getD_range (cueIds : List Text) :
    (List.range cueIds.length).map (cueIds.getD · []) = cueIds := by
  apply List.ext_getElem
  · rw [List.length_map, List.length_range]
  · intro i h _
    rw [List.length_map, List.length_range] at h
    simp [List.getD_eq_getElem?_getD, h]

/-- **The initial batches carry every cue, in order.** -/
theorem flatMap_ids_initialBatches (cueIds : List Text) (protectedCues : List ProtectedCueText)
    (hb : 0 < b) :
    (initialBatches cueIds protectedCues b).flatMap SentRequest.ids = cueIds := by
  rw [initialBatches, List.flatMap_map]
  simp only [ids_batchCues]
  rw [List.flatMap_def, ← List.map_flatten, flatten_chunkRanges hb, map_getD_range]

theorem length_initialBatches (hb : 0 < b) :
    (initialBatches cueIds protectedCues b).length = (cueIds.length + b - 1) / b := by
  rw [initialBatches, List.length_map, length_chunkRanges hb]

/-- An initial batch is within the batch size. -/
theorem length_cues_le_of_mem_initialBatches (h : sent ∈ initialBatches cueIds protectedCues b) :
    sent.cues.length ≤ b := by
  obtain ⟨indices, hmem, rfl⟩ := List.mem_map.1 h
  rw [batchCues, List.length_map]
  exact length_le_of_mem_chunkRangesFrom _ _ hmem

/-- Batches that share no id carry each id once. -/
theorem countP_ids_eq_one {id : Text} :
    ∀ {batches : List SentRequest}, (batches.flatMap SentRequest.ids).Nodup →
      id ∈ batches.flatMap SentRequest.ids → batches.countP (fun sent => id ∈ sent.ids) = 1
  | [], _, hmem => by cases hmem
  | sent :: batches, hnodup, hmem => by
    rw [List.flatMap_cons, List.nodup_append] at hnodup
    obtain ⟨-, hrest, hdisjoint⟩ := hnodup
    rw [List.flatMap_cons, List.mem_append] at hmem
    rw [List.countP_cons]
    by_cases hid : id ∈ sent.ids
    · have hzero : batches.countP (fun sent => id ∈ sent.ids) = 0 := by
        refine List.countP_eq_zero.2 fun other hother hin => ?_
        exact hdisjoint id hid id (List.mem_flatMap.2 ⟨other, hother, of_decide_eq_true hin⟩) rfl
      rw [hzero, if_pos (decide_eq_true hid)]
    · rw [countP_ids_eq_one hrest (hmem.resolve_left hid), if_neg (by simpa using hid)]

/-- The plan after the initial batches. -/
def missingPlan (cueIds : List Text) (protectedCues : List ProtectedCueText)
    (translations : TextMap) : List SentRequest :=
  if missingTranslationIndices cueIds translations = [] then []
  else [missingBatch cueIds protectedCues translations]

theorem length_missingPlan_le (cueIds : List Text) (protectedCues : List ProtectedCueText)
    (translations : TextMap) : (missingPlan cueIds protectedCues translations).length ≤ 1 := by
  unfold missingPlan
  split
  · exact Nat.zero_le 1
  · exact Nat.le_refl 1

/-! ## The two halves of a run -/

/-- The requests up to the retry of missing cues. -/
theorem translateInitial_cases (engine : TranslationEngine) (replies : Replies)
    (request : TranslationRequest) (cueIds : List Text) (protectedCues : List ProtectedCueText) :
    ∃ done, done <+: initialBatches cueIds protectedCues engine.batchSize ∧
      Attempted done (translateInitial engine replies request cueIds protectedCues).2 ∧
      ∀ terminology translations batchCount,
        (translateInitial engine replies request cueIds protectedCues).1 =
          .ok (terminology, translations, batchCount) →
        done = initialBatches cueIds protectedCues engine.batchSize ∧
          batchCount = (translateInitial engine replies request cueIds protectedCues).2.length := by
  unfold translateInitial
  rcases extractTerminology replies with err | generated
  · exact ⟨[], List.nil_prefix, .nil, fun _ _ _ h => by cases h⟩
  obtain ⟨done, new, hpre, hnew, hlog, hok⟩ := translateBatches_cases replies
    (initialBatches cueIds protectedCues engine.batchSize) (fun _ => none) 0 []
  dsimp only
  rcases hrun : translateBatches replies (initialBatches cueIds protectedCues engine.batchSize)
    (fun _ => none) 0 [] with ⟨err | ⟨translations, batchCount⟩, log⟩
  · obtain rfl : log = new := by simpa [hrun] using hlog
    exact ⟨done, hpre, hnew, fun _ _ _ h => by cases h⟩
  · obtain rfl : log = new := by simpa [hrun] using hlog
    refine ⟨done, hpre, hnew, fun terminology translations' batchCount' h => ?_⟩
    obtain ⟨hdone, hcount⟩ := hok translations batchCount (by rw [hrun])
    cases h
    refine ⟨hdone, ?_⟩
    dsimp only
    omega

/-- The requests of the retry of missing cues. -/
theorem retryMissing_cases (replies : Replies) (cueIds : List Text)
    (protectedCues : List ProtectedCueText) (translations : TextMap) (batchCount : ℕ) (log : Log) :
    ∃ new, Attempted (missingPlan cueIds protectedCues translations) new ∧
      (retryMissing replies cueIds protectedCues translations batchCount log).2 = log ++ new ∧
      ∀ translations' fallback batchCount',
        (retryMissing replies cueIds protectedCues translations batchCount log).1 =
          .ok (translations', fallback, batchCount') →
        batchCount' = batchCount + new.length := by
  unfold retryMissing missingPlan
  split
  · refine ⟨[], .nil, (List.append_nil log).symm, fun _ _ _ h => ?_⟩
    cases h
    rfl
  obtain ⟨new, hnew, hlog, hdone⟩ := translateBatch_cases replies
    (missingBatch cueIds protectedCues translations) log
  refine ⟨new, hnew, ?_⟩
  rcases hrun : translateBatchWithUnknownRetry replies
    (missingBatch cueIds protectedCues translations) log with ⟨err | ⟨map, issued⟩, log'⟩
  · rw [hrun] at hlog
    exact ⟨hlog, fun _ _ _ h => by cases h⟩
  · rw [hrun] at hlog hdone
    refine ⟨hlog, fun _ _ _ h => ?_⟩
    cases h
    rw [(hdone map issued rfl).issued_eq]

section Run

variable {engine : TranslationEngine} {request : TranslationRequest} {subtitle : Subtitle}
variable {ids : CueIds subtitle.entries.length} {result : TranslationResult}

/-- What a run that succeeds is made of, when there are cues. -/
theorem translateSubtitle_eq_ok (hcues : subtitle.entries ≠ [])
    (h : (translateSubtitle engine replies request subtitle ids).1 = .ok result) :
    ∃ terminology translations batchCount log translations' fallback batchCount' entries,
      translateInitial engine replies request ids.ids (protectCues subtitle.entries) =
        (.ok (terminology, translations, batchCount), log) ∧
      retryMissing replies ids.ids (protectCues subtitle.entries) translations batchCount log =
        (.ok (translations', fallback, batchCount'),
          (translateSubtitle engine replies request subtitle ids).2) ∧
      reapply translations' fallback subtitle.entries ids.ids (protectCues subtitle.entries) =
        .ok entries ∧
      result = ⟨{ subtitle with entries := entries },
        ⟨terminology, entries.length, batchCount'⟩⟩ := by
  unfold translateSubtitle at h ⊢
  by_cases hlang : trim request.targetLanguage = []
  · rw [if_pos hlang] at h
    cases h
  rw [if_neg hlang, if_neg hcues] at h ⊢
  dsimp only at h ⊢
  rcases hinitial : translateInitial engine replies request ids.ids
    (protectCues subtitle.entries) with ⟨err | ⟨terminology, translations, batchCount⟩, log⟩
  · rw [hinitial] at h
    cases h
  rw [hinitial] at h
  dsimp only at h ⊢
  rcases hretry : retryMissing replies ids.ids (protectCues subtitle.entries) translations
    batchCount log with ⟨err | ⟨translations', fallback, batchCount'⟩, log'⟩
  · rw [hretry] at h
    cases h
  rw [hretry] at h
  dsimp only at h ⊢
  rcases hreapply : reapply translations' fallback subtitle.entries ids.ids
    (protectCues subtitle.entries) with err | entries
  · rw [hreapply] at h
    cases h
  rw [hreapply] at h
  cases h
  exact ⟨terminology, translations, batchCount, log, translations', fallback, batchCount', entries,
    rfl, hretry, hreapply, rfl⟩

/-- **The plan of a run that succeeds.** Its log goes through the initial
batches and then through the batch of the missing cues, if there are any. -/
theorem translateSubtitle_plan (hcues : subtitle.entries ≠ [])
    (h : (translateSubtitle engine replies request subtitle ids).1 = .ok result) :
    ∃ translations,
      Attempted (initialBatches ids.ids (protectCues subtitle.entries) engine.batchSize ++
          missingPlan ids.ids (protectCues subtitle.entries) translations)
        (translateSubtitle engine replies request subtitle ids).2 ∧
      result.outcome.batchCount =
        (translateSubtitle engine replies request subtitle ids).2.length := by
  obtain ⟨terminology, translations, batchCount, log, translations', fallback, batchCount',
    entries, hinitial, hretry, -, rfl⟩ := translateSubtitle_eq_ok hcues h
  obtain ⟨done, -, hdone, hok⟩ := translateInitial_cases engine replies request ids.ids
    (protectCues subtitle.entries)
  obtain ⟨new, hnew, hlog, hcount⟩ := retryMissing_cases replies ids.ids
    (protectCues subtitle.entries) translations batchCount log
  rw [hinitial] at hdone hok
  rw [hretry] at hlog hcount
  obtain ⟨rfl, hbatch⟩ := hok _ _ _ rfl
  dsimp only at hlog hbatch
  refine ⟨translations, hlog ▸ hdone.append hnew, ?_⟩
  dsimp only
  rw [hcount _ _ _ rfl, hlog, hbatch, List.length_append]

/-- **How many requests a run sends.** The count a run reports is the number
of its requests, between one and two for each initial batch and at most two
more, and every cue is in at least one and at most four of them. -/
theorem translateSubtitle_requests (hcues : subtitle.entries ≠ [])
    (h : (translateSubtitle engine replies request subtitle ids).1 = .ok result) :
    let log := (translateSubtitle engine replies request subtitle ids).2
    let chunks := (subtitle.entries.length + engine.batchSize - 1) / engine.batchSize
    result.outcome.batchCount = log.length ∧
      chunks ≤ result.outcome.batchCount ∧ result.outcome.batchCount ≤ 2 * chunks + 2 ∧
      ∀ id ∈ ids.ids,
        1 ≤ log.countP (fun sent => id ∈ sent.ids) ∧ log.countP (fun sent => id ∈ sent.ids) ≤ 4 := by
  obtain ⟨translations, hplan, hcount⟩ := translateSubtitle_plan hcues h
  obtain ⟨hlower, hupper⟩ := hplan.length_bounds
  have hmissing := length_missingPlan_le ids.ids (protectCues subtitle.entries) translations
  rw [List.length_append, length_initialBatches engine.batchSize_pos, ids.length_eq]
    at hlower hupper
  refine ⟨hcount, by omega, by omega, fun id hid => ?_⟩
  obtain ⟨hlower, hupper⟩ := hplan.countP_bounds fun sent => id ∈ sent.ids
  have hflat := flatMap_ids_initialBatches ids.ids (protectCues subtitle.entries)
    engine.batchSize_pos
  have honce := countP_ids_eq_one (hflat ▸ ids.nodup) (hflat ▸ hid)
  have hatmost : (missingPlan ids.ids (protectCues subtitle.entries) translations).countP
      (fun sent => id ∈ sent.ids) ≤ _ := List.countP_le_length
  rw [List.countP_append] at hlower hupper
  omega

end Run

/-! ## A run -/

/-- A subtitle of two cues. -/
def twoCues : Subtitle :=
  parsedSubtitle .srt
    [⟨1, .fromMillis 0, .fromMillis 1000, "<i>yes</i>".toList, none⟩,
      ⟨2, .fromMillis 1000, .fromMillis 2000, "no".toList, none⟩]

/-- The ids of its cues. -/
def twoCueIds : CueIds twoCues.entries.length := ⟨["a".toList, "b".toList], rfl, by decide⟩

/-- A provider that leaves out every cue at first, and one of them still when
asked again. -/
def forgetfulReplies : Replies := fun k =>
  if k = 3 then .ok [("a".toList, "__SUBX_FMT_0_0__ja__SUBX_FMT_0_1__".toList)] else .ok []

/-- One cue a batch, translated by that provider. -/
def forgetfulRun : Except SubXError TranslationResult × Log :=
  translateSubtitle ⟨1, by decide⟩ forgetfulReplies ⟨"de".toList, []⟩ twoCues twoCueIds

theorem forgetfulRun_ok : ∃ result, forgetfulRun.1 = .ok result := by
  have hok : forgetfulRun.1.isOk = true := by decide +kernel
  rcases hrun : forgetfulRun.1 with err | result
  · rw [hrun] at hok
    cases hok
  · exact ⟨result, rfl⟩

theorem translateSubtitle_requests_forgetful :
    ∃ result, forgetfulRun.1 = .ok result ∧
      result.outcome.batchCount = forgetfulRun.2.length ∧
      2 ≤ result.outcome.batchCount ∧ result.outcome.batchCount ≤ 6 ∧
      ∀ id ∈ twoCueIds.ids, 1 ≤ forgetfulRun.2.countP (fun sent => id ∈ sent.ids) ∧
        forgetfulRun.2.countP (fun sent => id ∈ sent.ids) ≤ 4 := by
  obtain ⟨result, h⟩ := forgetfulRun_ok
  exact ⟨result, h, translateSubtitle_requests (by decide) h⟩

end SubxCore
