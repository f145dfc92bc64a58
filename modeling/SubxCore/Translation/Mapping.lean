import SubxCore.Translation.Requests
/-!
# Where translated texts come from

The initial batches, their second tries, the retry of missing cues and the
fallback all write one map from cue ids to texts. `Progress` is what they
keep: an entry of the map was given by an accepted reply for that id, and
whatever an accepted reply gives is in the map. At the end of a run every
cue has an entry, so its text is either a text given for its own id, with
its tags put back, or the fallback of an id that every accepted reply left
out.
-/

namespace SubxCore

open Text

variable {replies : Replies} {sent : SentRequest} {log new : Log}
variable {translations translations' : TextMap} {map : List (Text × Text)}
variable {cueIds : List Text} {protectedCues : List ProtectedCueText}

/-! ## The log grows -/

theorem Accepted.append {k : ℕ} (h : Accepted replies log k sent map) (new : Log) :
    Accepted replies (log ++ new) k sent map := by
  obtain ⟨hget, hread⟩ := h
  obtain ⟨hlt, -⟩ := List.getElem?_eq_some_iff.1 hget
  exact ⟨by rw [List.getElem?_append_left hlt, hget], hread⟩

theorem Accepted.of_append {k : ℕ} (h : Accepted replies (log ++ new) k sent map)
    (hk : k < log.length) : Accepted replies log k sent map :=
  ⟨by rw [← h.1, List.getElem?_append_left hk], h.2⟩

/-! ## What the map holds -/

/-- A text that an accepted reply gives for an id. -/
def Given (replies : Replies) (log : Log) (id text : Text) : Prop :=
  ∃ k sent map, Accepted replies log k sent map ∧ (id, text) ∈ map

/-- An id that a request of some phase carries, with an accepted reply. -/
def Asked (replies : Replies) (log : Log) (phase : Phase) (id : Text) : Prop :=
  ∃ k sent map, Accepted replies log k sent map ∧ sent.phase = phase ∧ id ∈ sent.ids

/-- An id that no accepted reply gives a text for. -/
def Omitted (replies : Replies) (log : Log) (id : Text) : Prop :=
  ∀ k sent map, Accepted replies log k sent map → id ∉ map.map Prod.fst

theorem Given.append {id text : Text} (h : Given replies log id text) (new : Log) :
    Given replies (log ++ new) id text := by
  obtain ⟨k, sent, map, hacc, hmem⟩ := h
  exact ⟨k, sent, map, hacc.append new, hmem⟩

theorem Asked.append {phase : Phase} {id : Text} (h : Asked replies log phase id) (new : Log) :
    Asked replies (log ++ new) phase id := by
  obtain ⟨k, sent, map, hacc, hphase, hmem⟩ := h
  exact ⟨k, sent, map, hacc.append new, hphase, hmem⟩

/-- **The map holds what the accepted replies gave.** -/
structure Progress (replies : Replies) (log : Log) (translations : TextMap) : Prop where
  given : ∀ id text, translations id = some text → Given replies log id text
  kept : ∀ id, translations id = none → Omitted replies log id

/-- Before the first request. -/
theorem Progress.nil (replies : Replies) : Progress replies [] fun _ => none where
  given _ _ h := by cases h
  kept _ _ k sent map h := by
    have hget := h.1
    rw [List.getElem?_nil] at hget
    cases hget

/-- A batch that goes through keeps it. -/
theorem Progress.insertAll {issued : ℕ} (h : Progress replies log translations)
    (hdone : BatchDone replies sent log new map issued) :
    Progress replies (log ++ new) (translations.insertAll map) where
  given id text heq := by
    rcases translations.insertAll_cases map id with ⟨-, hold⟩ | ⟨text', hmem, hnew⟩
    · exact (h.given id text (hold ▸ heq)).append new
    · obtain rfl := Option.some.inj (hnew.symm.trans heq)
      obtain ⟨k, hacc⟩ := hdone.last
      exact ⟨k, sent, map, hacc, hmem⟩
  kept id heq k sent' map' hacc := by
    rcases translations.insertAll_cases map id with ⟨hmem, hold⟩ | ⟨text', -, hnew⟩
    · by_cases hk : k < log.length
      · exact h.kept id (hold ▸ heq) k sent' map' (hacc.of_append hk)
      · obtain ⟨-, rfl⟩ := hdone.only k sent' map' (Nat.le_of_not_lt hk) hacc
        exact hmem
    · rw [hnew] at heq
      cases heq

/-- The request of a batch that went through. -/
theorem BatchDone.asked {issued : ℕ} (hdone : BatchDone replies sent log new map issued) :
    ∀ id ∈ sent.ids, Asked replies (log ++ new) sent.phase id := by
  intro id hid
  obtain ⟨k, hacc⟩ := hdone.last
  exact ⟨k, sent, map, hacc, rfl, hid⟩

/-! ## The phases -/

/-- One batch. -/
theorem batchDone_of_eq_ok {log' : Log} {issued : ℕ}
    (h : translateBatchWithUnknownRetry replies sent log = (.ok (map, issued), log')) :
    ∃ new, log' = log ++ new ∧ BatchDone replies sent log new map issued := by
  obtain ⟨new, -, hlog, hdone⟩ := translateBatch_cases replies sent log
  rw [h] at hlog hdone
  exact ⟨new, hlog, hdone map issued rfl⟩

/-- **The initial batches keep it**, and each of them is asked. -/
theorem translateBatches_progress :
    ∀ {batches : List SentRequest} {translations translations' : TextMap} {count count' : ℕ}
      {log log' : Log}, Progress replies log translations →
      translateBatches replies batches translations count log =
        (.ok (translations', count'), log') →
      (∃ new, log' = log ++ new) ∧ Progress replies log' translations' ∧
        ∀ sent ∈ batches, ∀ id ∈ sent.ids, Asked replies log' sent.phase id
  | [], _, _, _, _, log, _, hprogress, h => by
    cases h
    exact ⟨⟨[], (List.append_nil log).symm⟩, hprogress, fun _ hmem => by cases hmem⟩
  | sent :: batches, translations, translations', count, count', log, log', hprogress, h => by
    rw [translateBatches] at h
    rcases hrun : translateBatchWithUnknownRetry replies sent log with ⟨err | ⟨map, issued⟩, log₁⟩
    · rw [hrun] at h
      cases h
    rw [hrun] at h
    obtain ⟨new, rfl, hdone⟩ := batchDone_of_eq_ok hrun
    obtain ⟨⟨rest, rfl⟩, hprogress', hasked⟩ :=
      translateBatches_progress (hprogress.insertAll hdone) h
    refine ⟨⟨new ++ rest, List.append_assoc log new rest⟩, hprogress', fun sent' hsent => ?_⟩
    rcases List.mem_cons.1 hsent with rfl | hsent
    · exact fun id hid => (hdone.asked id hid).append rest
    · exact hasked sent' hsent

theorem phase_of_mem_initialBatches {b : ℕ} (h : sent ∈ initialBatches cueIds protectedCues b) :
    sent.phase = .initial := by
  obtain ⟨indices, -, rfl⟩ := List.mem_map.1 h
  rfl

theorem translateInitial_progress {engine : TranslationEngine} {request : TranslationRequest}
    {terminology : TextMap} {count : ℕ}
    (h : translateInitial engine replies request cueIds protectedCues =
      (.ok (terminology, translations, count), log)) :
    Progress replies log translations ∧ ∀ id ∈ cueIds, Asked replies log .initial id := by
  unfold translateInitial at h
  rcases hterms : extractTerminology replies with err | generated
  · rw [hterms] at h
    cases h
  rw [hterms] at h
  dsimp only at h
  rcases hrun : translateBatches replies (initialBatches cueIds protectedCues engine.batchSize)
    (fun _ => none) 0 [] with ⟨err | ⟨translations', count'⟩, log'⟩
  · rw [hrun] at h
    cases h
  rw [hrun] at h
  cases h
  obtain ⟨-, hprogress, hasked⟩ := translateBatches_progress (Progress.nil replies) hrun
  refine ⟨hprogress, fun id hid => ?_⟩
  rw [← flatMap_ids_initialBatches cueIds protectedCues engine.batchSize_pos] at hid
  obtain ⟨sent, hsent, hid⟩ := List.mem_flatMap.1 hid
  rw [← phase_of_mem_initialBatches hsent]
  exact hasked sent hsent id hid

/-- The ids that are missing. -/
theorem mem_missing_iff {id : Text} :
    id ∈ (missingTranslationIndices cueIds translations).map (cueIds.getD · []) ↔
      id ∈ cueIds ∧ translations id = none := by
  have hfilter : (missingTranslationIndices cueIds translations).map (cueIds.getD · []) =
      cueIds.filter fun id => (translations id).isNone := by
    conv_rhs => rw [← map_getD_range cueIds, List.filter_map]
    rfl
  rw [hfilter, List.mem_filter, Option.isNone_iff_eq_none]

/-- What the retry of missing cues leaves of a cue: a text given for its id,
or a fallback. -/
theorem retryMissing_cue {count count' : ℕ} {fallback : List Text} {log' : Log} {id : Text}
    (hprogress : Progress replies log translations)
    (h : retryMissing replies cueIds protectedCues translations count log =
      (.ok (translations', fallback, count'), log')) (hid : id ∈ cueIds) :
    (∃ new, log' = log ++ new) ∧ ∃ text, translations' id = some text ∧
      ((id ∉ fallback ∧ Given replies log' id text) ∨
        (id ∈ fallback ∧ Asked replies log' .missing id ∧ Omitted replies log' id)) := by
  unfold retryMissing at h
  split at h
  · next hnone =>
    cases h
    refine ⟨⟨[], (List.append_nil _).symm⟩, ?_⟩
    rcases htext : translations id with - | text
    · have hmem := mem_missing_iff.2 ⟨hid, htext⟩
      rw [hnone] at hmem
      cases hmem
    · exact ⟨text, rfl, Or.inl ⟨List.not_mem_nil, hprogress.given id text htext⟩⟩
  rcases hrun : translateBatchWithUnknownRetry replies
    (missingBatch cueIds protectedCues translations) log with ⟨err | ⟨map, issued⟩, log₁⟩
  · rw [hrun] at h
    cases h
  rw [hrun] at h
  cases h
  obtain ⟨new, rfl, hdone⟩ := batchDone_of_eq_ok hrun
  refine ⟨⟨new, rfl⟩, ?_⟩
  have hprogress' := hprogress.insertAll hdone
  have hkeys : ((((missingTranslationIndices cueIds (translations.insertAll map)).map
      (cueIds.getD · [])).map fun id => (id, ([] : Text)))).map Prod.fst =
      (missingTranslationIndices cueIds (translations.insertAll map)).map (cueIds.getD · []) := by
    rw [List.map_map]
    exact List.map_id _
  rcases htext : translations.insertAll map id with - | text
  · -- still missing: it was missing before, so the request carries it
    have hbefore : translations id = none := by
      rcases translations.insertAll_cases map id with ⟨-, heq⟩ | ⟨text, -, heq⟩
      · rw [← heq, htext]
      · rw [heq] at htext
        cases htext
    have hmem := mem_missing_iff.2 ⟨hid, htext⟩
    have hsent : id ∈ (missingBatch cueIds protectedCues translations).ids := by
      rw [missingBatch, ids_batchCues]
      exact mem_missing_iff.2 ⟨hid, hbefore⟩
    obtain ⟨text, htext'⟩ := Option.isSome_iff_exists.1
      (TextMap.insertAll_isSome (m := translations.insertAll map) (hkeys.symm ▸ hmem))
    exact ⟨text, htext', Or.inr ⟨hmem, hdone.asked id hsent, hprogress'.kept id htext⟩⟩
  · have hnot : id ∉ (missingTranslationIndices cueIds (translations.insertAll map)).map
        (cueIds.getD · []) := by
      rw [mem_missing_iff, htext]
      rintro ⟨-, h⟩
      cases h
    refine ⟨text, ?_, Or.inl ⟨hnot, hprogress'.given id text htext⟩⟩
    rw [TextMap.insertAll_of_notMem (hkeys.symm ▸ hnot), htext]

/-! ## The translated cues -/

theorem getElem?_protectCues (entries : List SubtitleEntry) (i : ℕ) :
    (protectCues entries)[i]? =
      entries[i]?.map fun entry => protectInlineFormatting entry.text i := by
  rw [protectCues, List.getElem?_map, List.getElem?_zipIdx, Option.map_map]
  simp [Function.comp_def]

/-- Each cue is translated by itself. -/
theorem reapply_eq_ok {fallback : List Text} :
    ∀ {entries out : List SubtitleEntry} {ids : List Text} {cues : List ProtectedCueText},
      ids.length = entries.length → cues.length = entries.length →
      reapply translations fallback entries ids cues = .ok out →
      out.length = entries.length ∧ ∀ (i : ℕ) (entry : SubtitleEntry) (id : Text)
        (cue : ProtectedCueText) (translated : SubtitleEntry), entries[i]? = some entry →
        ids[i]? = some id → cues[i]? = some cue → out[i]? = some translated →
        reapplyEntry translations fallback id cue entry = .ok translated
  | [], _, _, _, _, _, h => by
    rw [reapply] at h
    · cases h
      exact ⟨rfl, fun i _ _ _ _ hentry => by cases hentry⟩
    · intro _ _ _ _ _ _ h
      cases h
  | entry :: entries, out, [], _, hids, _, _ => by cases hids
  | entry :: entries, out, _, [], _, hcues, _ => by cases hcues
  | entry :: entries, out, id :: ids, cue :: cues, hids, hcues, h => by
    rw [reapply] at h
    obtain ⟨first, hfirst, h⟩ := Run.bind_eq_ok.1 h
    obtain ⟨rest, hrest, h⟩ := Run.bind_eq_ok.1 h
    cases h
    obtain ⟨hlen, hat⟩ := reapply_eq_ok (Nat.succ.inj hids) (Nat.succ.inj hcues) hrest
    refine ⟨congrArg (· + 1) hlen, fun i entry' id' cue' translated hentry hid hcue hout => ?_⟩
    rcases i with - | i
    · cases hentry
      cases hid
      cases hcue
      cases hout
      exact hfirst
    · exact hat i entry' id' cue' translated hentry hid hcue hout

/-- **Where the text of a cue comes from.** -/
inductive TextSource (replies : Replies) (log : Log) (id : Text) (cue : ProtectedCueText)
    (text : Text) : Prop
  /-- A text that an accepted reply gave for this id, asked for it. -/
  | restored {k : ℕ} {sent : SentRequest} {map : List (Text × Text)} {translated : Text} :
      Accepted replies log k sent map → id ∈ sent.ids → (id, translated) ∈ map →
      restoreInlineFormatting translated cue = .ok text → TextSource replies log id cue text
  /-- The fallback of an id left out by the accepted reply of its initial
  batch and by that of the retry of missing cues. -/
  | fallback : text = [] → Asked replies log .initial id → Asked replies log .missing id →
      Omitted replies log id → TextSource replies log id cue text

/-- **A run translates cue by cue.** Number, order, indices, times and styling
of the cues stay, and each text has a source of its own id. -/
theorem translateSubtitle_entries {engine : TranslationEngine} {request : TranslationRequest}
    {subtitle : Subtitle} {ids : CueIds subtitle.entries.length} {result : TranslationResult}
    (h : (translateSubtitle engine replies request subtitle ids).1 = .ok result) :
    result.subtitle.entries.length = subtitle.entries.length ∧
    ∀ (i : ℕ) (entry translated : SubtitleEntry) (id : Text), subtitle.entries[i]? = some entry →
      result.subtitle.entries[i]? = some translated → ids.ids[i]? = some id →
      translated.index = entry.index ∧ translated.startTime = entry.startTime ∧
      translated.endTime = entry.endTime ∧ translated.styling = entry.styling ∧
      TextSource replies (translateSubtitle engine replies request subtitle ids).2 id
        (protectInlineFormatting entry.text i) translated.text := by
  by_cases hcues : subtitle.entries = []
  · have hresult : result.subtitle = subtitle := by
      unfold translateSubtitle at h
      split at h
      · cases h
      · cases h
        rfl
    rw [hresult]
    refine ⟨rfl, fun i entry _ _ hentry => ?_⟩
    rw [hcues] at hentry
    cases hentry
  obtain ⟨terminology, translations, count, log, translations', fallback, count', entries,
    hinitial, hretry, hreapply, rfl⟩ := translateSubtitle_eq_ok hcues h
  obtain ⟨hprogress, hasked⟩ := translateInitial_progress hinitial
  have hprotect : (protectCues subtitle.entries).length = subtitle.entries.length := by
    rw [protectCues, List.length_map, List.length_zipIdx]
  obtain ⟨hlen, hat⟩ := reapply_eq_ok ids.length_eq hprotect hreapply
  refine ⟨hlen, fun i entry translated id hentry htranslated hid => ?_⟩
  have hcue : (protectCues subtitle.entries)[i]? = some (protectInlineFormatting entry.text i) := by
    rw [getElem?_protectCues, hentry]
    rfl
  have hmem : id ∈ ids.ids := List.mem_of_getElem? hid
  have happly := hat i entry id _ translated hentry hid hcue htranslated
  obtain ⟨⟨new, hlog⟩, text, htext, hsource⟩ := retryMissing_cue hprogress hretry hmem
  unfold reapplyEntry at happly
  rw [htext] at happly
  dsimp only at happly
  rcases hsource with ⟨hnot, k, sent, map, hacc, hgiven⟩ | ⟨hfallback, hmissing, homitted⟩
  · rw [if_neg hnot] at happly
    obtain ⟨restored, hrestore, happly⟩ := Run.bind_eq_ok.1 happly
    cases happly
    have hsent := ids_of_readReply hacc.2 id (List.mem_map.2 ⟨_, hgiven, rfl⟩)
    exact ⟨rfl, rfl, rfl, rfl, .restored hacc hsent hgiven hrestore⟩
  · rw [if_pos hfallback] at happly
    cases happly
    refine ⟨rfl, rfl, rfl, rfl, .fallback rfl ?_ hmissing homitted⟩
    rw [hlog]
    exact (hasked id hmem).append new

/-- One text is restored, the other falls back. -/
theorem translateSubtitle_entries_forgetful :
    ∃ result, forgetfulRun.1 = .ok result ∧
      result.subtitle.entries.map SubtitleEntry.text = ["<i>ja</i>".toList, []] ∧
      result.subtitle.entries.length = 2 ∧
      ∀ (i : ℕ) (entry translated : SubtitleEntry) (id : Text), twoCues.entries[i]? = some entry →
        result.subtitle.entries[i]? = some translated → twoCueIds.ids[i]? = some id →
        translated.index = entry.index ∧ translated.startTime = entry.startTime ∧
        translated.endTime = entry.endTime ∧ translated.styling = entry.styling ∧
        TextSource forgetfulReplies forgetfulRun.2 id (protectInlineFormatting entry.text i)
          translated.text := by
  obtain ⟨result, h⟩ := forgetfulRun_ok
  have htexts : forgetfulRun.1.toOption.map
      (fun result => result.subtitle.entries.map SubtitleEntry.text) =
        some ["<i>ja</i>".toList, []] := by decide +kernel
  rw [h] at htexts
  exact ⟨result, h, Option.some.inj htexts, translateSubtitle_entries h⟩

end SubxCore
