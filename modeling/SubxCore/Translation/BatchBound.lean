import SubxCore.Translation.Requests
/-!
# The batch of the missing cues

The ids that the accepted replies to the initial batches leave out are read
off the replies alone, without the engine: `omittedIds` goes through the
batches with the number of the next request. They are exactly the ids
missing when the initial phase ends, and all of them go into one request,
so every request of a run stays within the batch size when and only when
no more than a batch of them are left out.
-/

namespace SubxCore

open Text

variable {replies : Replies} {sent : SentRequest} {log : Log}

/-! ## What the replies leave out -/

/-- The accepted reply to a batch whose first request has number `k`, with
the number of requests it took. -/
def batchReply (replies : Replies) (k : ℕ) (ids : List Text) : Option (List (Text × Text) × ℕ) :=
  match readReply replies k ids with
  | .ok map => some (map, 1)
  | .error err =>
    if isUnknownCueIdError err then (readReply replies (k + 1) ids).toOption.map (·, 2) else none

/-- The ids that the accepted replies to some batches leave out, the first
request having number `k`; none when a batch has no accepted reply. -/
def omittedIds (replies : Replies) : List SentRequest → ℕ → Option (List Text)
  | [], _ => some []
  | sent :: batches, k =>
    (batchReply replies k sent.ids).bind fun (map, issued) =>
      (omittedIds replies batches (k + issued)).map fun rest =>
        sent.ids.filter (fun id => id ∉ map.map Prod.fst) ++ rest

theorem ids_of_batchReply {k issued : ℕ} {ids : List Text} {map : List (Text × Text)}
    (h : batchReply replies k ids = some (map, issued)) : ∀ id ∈ map.map Prod.fst, id ∈ ids := by
  unfold batchReply at h
  split at h
  · next hread =>
    cases h
    exact ids_of_readReply hread
  · split at h
    · rcases hread : readReply replies (k + 1) ids with err | map'
      · rw [hread] at h
        cases h
      · rw [hread] at h
        cases h
        exact ids_of_readReply hread
    · cases h

/-- What the engine takes from a batch is its accepted reply. -/
theorem translateBatch_toOption (replies : Replies) (sent : SentRequest) (log : Log) :
    (translateBatchWithUnknownRetry replies sent log).1.toOption =
      batchReply replies log.length sent.ids := by
  have hlen : (log ++ [sent]).length = log.length + 1 := List.length_append
  unfold translateBatchWithUnknownRetry translateBatchOnce batchReply
  rcases readReply replies log.length sent.ids with err | map
  · dsimp only
    split
    · rw [hlen]
      rcases readReply replies (log.length + 1) sent.ids with err' | map
      · dsimp only
        split <;> rfl
      · rfl
    · rfl
  · rfl

/-! ## What is missing after the initial batches -/

/-- A batch changes the translations of its own ids. -/
theorem translateBatches_of_notMem {id : Text} :
    ∀ {batches : List SentRequest} {translations translations' : TextMap} {count count' : ℕ}
      {log : Log}, id ∉ batches.flatMap SentRequest.ids →
      (translateBatches replies batches translations count log).1 = .ok (translations', count') →
      translations' id = translations id
  | [], _, _, _, _, _, _, h => by
    cases h
    rfl
  | sent :: batches, translations, translations', count, count', log, hid, h => by
    rw [List.flatMap_cons, List.mem_append, not_or] at hid
    have hreply := translateBatch_toOption replies sent log
    rw [translateBatches] at h
    rcases hrun : translateBatchWithUnknownRetry replies sent log with ⟨err | ⟨map, issued⟩, log'⟩
    · rw [hrun] at h
      cases h
    · rw [hrun] at h hreply
      rw [translateBatches_of_notMem hid.2 h]
      exact TextMap.insertAll_of_notMem fun hmem => hid.1 (ids_of_batchReply hreply.symm _ hmem)

/-- **The ids missing after some batches are the ids left out.** -/
theorem omittedIds_eq (replies : Replies) :
    ∀ (batches : List SentRequest) (translations : TextMap) (count : ℕ) (log : Log),
      (batches.flatMap SentRequest.ids).Nodup →
      (∀ id ∈ batches.flatMap SentRequest.ids, translations id = none) →
      omittedIds replies batches log.length =
        (translateBatches replies batches translations count log).1.toOption.map fun out =>
          (batches.flatMap SentRequest.ids).filter fun id => (out.1 id).isNone
  | [], _, _, _, _, _ => rfl
  | sent :: batches, translations, count, log, hnodup, hnone => by
    rw [List.flatMap_cons] at hnodup hnone
    obtain ⟨-, hrest, hdisjoint⟩ := List.nodup_append.1 hnodup
    obtain ⟨new, -, hlog, hdone⟩ := translateBatch_cases replies sent log
    have hreply := translateBatch_toOption replies sent log
    rw [omittedIds, translateBatches, ← hreply, List.flatMap_cons]
    rcases hrun : translateBatchWithUnknownRetry replies sent log with ⟨err | ⟨map, issued⟩, log'⟩
    · rfl
    rw [hrun] at hlog hdone hreply
    obtain rfl : log' = log ++ new := hlog
    have hids := ids_of_batchReply hreply.symm
    -- the ids of the later batches have no translation yet
    have hnone' : ∀ id ∈ batches.flatMap SentRequest.ids, translations.insertAll map id = none := by
      intro id hid
      rw [TextMap.insertAll_of_notMem fun hmem => hdisjoint id (hids id hmem) id hid rfl]
      exact hnone id (List.mem_append_right _ hid)
    have ih := omittedIds_eq replies batches (translations.insertAll map) (count + issued) (log ++ new)
      hrest hnone'
    rw [List.length_append, ← (hdone map issued rfl).issued_eq] at ih
    dsimp only [Except.toOption, Option.bind_some]
    rw [ih]
    rcases hlater : (translateBatches replies batches (translations.insertAll map)
      (count + issued) (log ++ new)).1 with err | ⟨translations', count'⟩
    · rfl
    dsimp only [Except.toOption, Option.map_some]
    rw [List.filter_append]
    congr 2
    -- and the later batches leave the ids of this one alone
    refine List.filter_congr fun id hid => ?_
    rw [translateBatches_of_notMem (fun hmem => hdisjoint id hid id hmem rfl) hlater]
    rcases translations.insertAll_cases map id with ⟨hmem, heq⟩ | ⟨text, hmem, heq⟩
    · rw [heq, hnone id (List.mem_append_left _ hid), Option.isNone_none, decide_eq_true hmem]
    · rw [heq, Option.isNone_some]
      exact decide_eq_false (not_not.2 (List.mem_map.2 ⟨_, hmem, rfl⟩))

theorem length_missingTranslationIndices (cueIds : List Text) (translations : TextMap) :
    (missingTranslationIndices cueIds translations).length =
      (cueIds.filter fun id => (translations id).isNone).length := by
  calc (missingTranslationIndices cueIds translations).length
      = (((List.range cueIds.length).map (cueIds.getD · [])).filter
          fun id => (translations id).isNone).length := by
        rw [List.filter_map, List.length_map]
        rfl
    _ = _ := by rw [map_getD_range]

/-! ## The bound -/

section Run

variable {engine : TranslationEngine} {request : TranslationRequest}
variable {cueIds : List Text} {protectedCues : List ProtectedCueText} {b : ℕ}

/-- The part of a run before the retry goes through exactly when the
terminology and every initial batch do, and then as many ids are missing as
the replies left out. -/
theorem translateInitial_toOption (engine : TranslationEngine) (replies : Replies)
    (request : TranslationRequest) (protectedCues : List ProtectedCueText)
    (hnodup : cueIds.Nodup) :
    ((translateInitial engine replies request cueIds protectedCues).1.toOption.map fun out =>
        (missingTranslationIndices cueIds out.2.1).length) =
      (extractTerminology replies).toOption.bind fun _ =>
        (omittedIds replies (initialBatches cueIds protectedCues engine.batchSize) 0).map
          List.length := by
  have hflat := flatMap_ids_initialBatches cueIds protectedCues engine.batchSize_pos
  have homitted := omittedIds_eq replies (initialBatches cueIds protectedCues engine.batchSize)
    (fun _ => none) 0 [] (by rwa [hflat]) fun _ _ => rfl
  rw [hflat, List.length_nil] at homitted
  unfold translateInitial
  rcases extractTerminology replies with err | generated
  · rfl
  dsimp only [Except.toOption, Option.bind_some]
  rw [homitted]
  rcases translateBatches replies (initialBatches cueIds protectedCues engine.batchSize)
    (fun _ => none) 0 [] with ⟨err | ⟨translations, batchCount⟩, log⟩
  · rfl
  · exact congrArg some (length_missingTranslationIndices cueIds translations)

variable {subtitle : Subtitle} {ids : CueIds subtitle.entries.length}

/-- The requests of a run, past the checks of its arguments. -/
theorem translateSubtitle_log (hlang : trim request.targetLanguage ≠ [])
    (hcues : subtitle.entries ≠ []) :
    (translateSubtitle engine replies request subtitle ids).2 =
      match translateInitial engine replies request ids.ids (protectCues subtitle.entries) with
      | (.error _, log) => log
      | (.ok (_, translations, batchCount), log) =>
        (retryMissing replies ids.ids (protectCues subtitle.entries) translations batchCount
          log).2 := by
  unfold translateSubtitle
  rw [if_neg hlang, if_neg hcues]
  dsimp only
  rcases translateInitial engine replies request ids.ids (protectCues subtitle.entries) with
    ⟨err | ⟨terminology, translations, batchCount⟩, log⟩
  · rfl
  dsimp only
  rcases retryMissing replies ids.ids (protectCues subtitle.entries) translations batchCount log with
    ⟨err | ⟨translations', fallback, batchCount'⟩, log'⟩
  · rfl
  dsimp only
  split <;> rfl

/-- The batch of missing cues is within the batch size when they are. -/
theorem forall_mem_missingPlan_iff {translations : TextMap} :
    (∀ sent ∈ missingPlan cueIds protectedCues translations, sent.cues.length ≤ b) ↔
      (missingTranslationIndices cueIds translations).length ≤ b := by
  unfold missingPlan
  split
  · next hnil =>
    rw [hnil]
    exact ⟨fun _ => Nat.zero_le b, fun _ _ h => by cases h⟩
  · rw [List.forall_mem_singleton, missingBatch, batchCues, List.length_map]

/-- **When every request is within the batch size.** Past the terminology
request and the checks of the arguments, exactly when the accepted replies
to the initial batches leave out no more cues than fit in one batch. -/
theorem translateSubtitle_within_batchSize_iff :
    (∀ sent ∈ (translateSubtitle engine replies request subtitle ids).2,
        sent.cues.length ≤ engine.batchSize) ↔
      (trim request.targetLanguage ≠ [] → (extractTerminology replies).isOk →
        ∀ omitted, omittedIds replies
            (initialBatches ids.ids (protectCues subtitle.entries) engine.batchSize) 0 = some omitted →
          omitted.length ≤ engine.batchSize) := by
  by_cases hlang : trim request.targetLanguage = []
  · unfold translateSubtitle
    rw [if_pos hlang]
    exact ⟨fun _ hne => absurd hlang hne, fun _ _ h => by cases h⟩
  by_cases hcues : subtitle.entries = []
  · have hids : ids.ids = [] := List.eq_nil_of_length_eq_zero (by rw [ids.length_eq, hcues]; rfl)
    have hlog : (translateSubtitle engine replies request subtitle ids).2 = [] := by
      unfold translateSubtitle
      rw [if_neg hlang, if_pos hcues]
    rw [hlog, hids]
    refine ⟨fun _ _ _ omitted h => ?_, fun _ _ h => by cases h⟩
    cases h
    exact Nat.zero_le _
  rw [translateSubtitle_log hlang hcues]
  obtain ⟨done, hpre, hdone, hok⟩ := translateInitial_cases engine replies request ids.ids
    (protectCues subtitle.entries)
  have hinitial : ∀ sent ∈ (translateInitial engine replies request ids.ids
      (protectCues subtitle.entries)).2, sent.cues.length ≤ engine.batchSize :=
    fun sent hsent => length_cues_le_of_mem_initialBatches (hpre.subset (hdone.mem_iff.1 hsent))
  have hcount := translateInitial_toOption engine replies request (protectCues subtitle.entries)
    ids.nodup
  rcases hrun : translateInitial engine replies request ids.ids (protectCues subtitle.entries) with
    ⟨err | ⟨terminology, translations, batchCount⟩, log⟩
  · -- the run ends before the retry, or with the terminology
    rw [hrun] at hinitial hcount
    refine ⟨fun _ _ hterms omitted h => ?_, fun _ => hinitial⟩
    rw [h] at hcount
    rcases hextract : extractTerminology replies with err' | terms
    · rw [hextract] at hterms
      cases hterms
    · rw [hextract] at hcount
      cases hcount
  rw [hrun] at hinitial hcount
  obtain ⟨new, hnew, hlog, -⟩ := retryMissing_cases replies ids.ids (protectCues subtitle.entries)
    translations batchCount log
  dsimp only at hinitial ⊢
  rw [hlog, List.forall_mem_append, and_iff_right hinitial]
  have hmissing : (∀ sent ∈ new, sent.cues.length ≤ engine.batchSize) ↔
      (missingTranslationIndices ids.ids translations).length ≤ engine.batchSize := by
    rw [← forall_mem_missingPlan_iff]
    exact forall_congr' fun sent => imp_congr_left hnew.mem_iff
  rw [hmissing]
  rcases hextract : extractTerminology replies with err | terms
  · rw [hextract] at hcount
    cases hcount
  rw [hextract] at hcount
  rcases homitted : omittedIds replies
    (initialBatches ids.ids (protectCues subtitle.entries) engine.batchSize) 0 with - | omitted
  · rw [homitted] at hcount
    cases hcount
  rw [homitted] at hcount
  have hlength : (missingTranslationIndices ids.ids translations).length = omitted.length :=
    Option.some.inj hcount
  rw [hlength]
  refine ⟨fun h _ _ omitted' h' => ?_, fun h => h hlang rfl omitted rfl⟩
  obtain rfl := Option.some.inj h'
  exact h

end Run

/-- **Two cues go out together where one is a batch.** Both are left out of
their own batches and are asked for again in one request. -/
theorem translateSubtitle_exceeds_batchSize :
    ¬ ∀ (engine : TranslationEngine) (replies : Replies) (request : TranslationRequest)
        (subtitle : Subtitle) (ids : CueIds subtitle.entries.length),
      ∀ sent ∈ (translateSubtitle engine replies request subtitle ids).2,
        sent.cues.length ≤ engine.batchSize := by
  intro h
  have hrun : ∀ sent ∈ forgetfulRun.2, sent.cues.length ≤ 1 := h _ _ _ _ _
  exact absurd hrun (by decide +kernel)

end SubxCore
