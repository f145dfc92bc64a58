import SubxCore.Common.Run
import SubxCore.Formats.Types
import SubxCore.Translation.Protect
import Mathlib.Logic.Function.Basic
/-!
# The translation engine

One run of `translate_subtitle` against a provider. The provider is a
function from the number of a request to its reply, request 0 being the
terminology pass; a reply is an error or the decoded list of pairs, and
every run of any provider is a run against some such function. The
translation requests are kept in a log, each with the part of the run that
sent it, and the log is there whether the run succeeds or fails. The
prompts themselves are not modelled: the engine hands them on and never
reads them.
-/

namespace SubxCore

open Text Function

/-- A map from texts to texts. -/
abbrev TextMap := Text → Option Text

/-- The entries of a list put into a map, one after the other. -/
def TextMap.insertAll (m : TextMap) (entries : List (Text × Text)) : TextMap :=
  entries.foldl (fun m e => update m e.1 (some e.2)) m

/-- An entry of a map is the one it had before, or one put in. -/
theorem TextMap.insertAll_cases (m : TextMap) (entries : List (Text × Text)) (id : Text) :
    (id ∉ entries.map Prod.fst ∧ m.insertAll entries id = m id) ∨
      ∃ text, (id, text) ∈ entries ∧ m.insertAll entries id = some text := by
  induction entries generalizing m with
  | nil => exact Or.inl ⟨List.not_mem_nil, rfl⟩
  | cons e entries ih =>
    rcases ih (update m e.1 (some e.2)) with ⟨hmem, heq⟩ | ⟨text, hmem, heq⟩
    · by_cases hid : id = e.1
      · subst hid
        exact Or.inr ⟨e.2, List.mem_cons_self, by rw [← update_self e.1 (some e.2) m]; exact heq⟩
      · refine Or.inl ⟨?_, heq.trans (update_of_ne hid _ _)⟩
        rw [List.map_cons, List.mem_cons, not_or]
        exact ⟨hid, hmem⟩
    · exact Or.inr ⟨text, List.mem_cons_of_mem _ hmem, heq⟩

theorem TextMap.insertAll_of_notMem {m : TextMap} {entries : List (Text × Text)} {id : Text}
    (h : id ∉ entries.map Prod.fst) : m.insertAll entries id = m id := by
  rcases m.insertAll_cases entries id with ⟨-, heq⟩ | ⟨text, hmem, -⟩
  · exact heq
  · exact absurd (List.mem_map.2 ⟨_, hmem, rfl⟩) h

theorem TextMap.insertAll_isSome {m : TextMap} {entries : List (Text × Text)} {id : Text}
    (h : id ∈ entries.map Prod.fst) : (m.insertAll entries id).isSome := by
  rcases m.insertAll_cases entries id with ⟨hmem, -⟩ | ⟨text, -, heq⟩
  · exact absurd h hmem
  · rw [heq]
    rfl

/-- What the provider answers to each request. -/
abbrev Replies := ℕ → Except SubXError (List (Text × Text))

/-! ## Requests and replies -/

/-- A glossary entry of the user. -/
structure GlossaryEntry where
  source : Text
  target : Text
  deriving DecidableEq, Repr

/-- What a file is translated to, as far as the engine itself looks at it. -/
structure TranslationRequest where
  targetLanguage : Text
  glossaryEntries : List GlossaryEntry
  deriving DecidableEq, Repr

/-- The part of a run a request belongs to. -/
inductive Phase
  | initial
  | missing
  deriving DecidableEq, Repr

/-- A translation request: cue ids and texts. -/
structure SentRequest where
  phase : Phase
  cues : List (Text × Text)
  deriving DecidableEq, Repr

/-- The cue ids of a request. -/
def SentRequest.ids (sent : SentRequest) : List Text := sent.cues.map Prod.fst

/-- The translation requests sent so far. -/
abbrev Log := List SentRequest

/-- One entry of a terminology reply. -/
def parseTerminologyEntry (terms : TextMap) (entry : Text × Text) : Except SubXError TextMap :=
  let source := trim entry.1
  let target := trim entry.2
  if source = [] ∨ target = [] then
    .error (.aiService "Terminology entry has empty source or target".toList)
  else if (terms source).isSome then
    .error (.aiService
      ("Terminology response contained duplicate source term: ".toList ++ source))
  else .ok (update terms source (some target))

/-- `parse_terminology_response`, of a decoded reply. -/
def parseTerminologyResponse (entries : List (Text × Text)) : Except SubXError TextMap :=
  entries.foldlM parseTerminologyEntry fun _ => none

/-- The marker of the error for an unknown cue id. -/
def unknownCueIdErrorMarker : Text := "Translation response contained unknown cue id".toList

/-- The error for an unknown cue id. -/
def unknownCueIdError (id : Text) : SubXError :=
  .aiService (unknownCueIdErrorMarker ++ ": ".toList ++ id)

/-- `is_unknown_cue_id_error`. -/
def isUnknownCueIdError : SubXError → Bool
  | .aiService message => containsStr unknownCueIdErrorMarker message
  | _ => false

/-- One entry of a translation reply, after the entries already taken. -/
def parseTranslationEntry (expectedIds : List Text) (taken : List (Text × Text))
    (entry : Text × Text) : Except SubXError (List (Text × Text)) :=
  let id := trim entry.1
  if id = [] then .error (.aiService "Translation entry has empty cue id".toList)
  else if id ∉ expectedIds then .error (unknownCueIdError id)
  else if id ∈ taken.map Prod.fst then
    .error (.aiService ("Translation response contained duplicate cue id: ".toList ++ id))
  else .ok (taken ++ [(id, entry.2)])

/-- `parse_translation_response_partial`, of a decoded reply. -/
def parseTranslationResponsePartial (entries : List (Text × Text)) (expectedIds : List Text) :
    Except SubXError (List (Text × Text)) :=
  entries.foldlM (parseTranslationEntry expectedIds) []

/-- A reply that is accepted is about the ids asked for. -/
theorem ids_of_parseTranslationResponsePartial {entries map : List (Text × Text)}
    {expectedIds : List Text} (h : parseTranslationResponsePartial entries expectedIds = .ok map) :
    ∀ id ∈ map.map Prod.fst, id ∈ expectedIds := by
  refine Run.foldlM_invariant (fun taken taken' entry _ htaken hstep => ?_)
    (P := fun taken => ∀ id ∈ taken.map Prod.fst, id ∈ expectedIds) (by simp) h
  unfold parseTranslationEntry at hstep
  dsimp only at hstep
  split at hstep
  · cases hstep
  split at hstep
  · cases hstep
  next hid =>
  split at hstep
  · cases hstep
  cases hstep
  intro id hmem
  rw [List.map_append, List.mem_append] at hmem
  rcases hmem with hmem | hmem
  · exact htaken id hmem
  · obtain rfl : id = trim entry.1 := List.mem_singleton.1 hmem
    exact not_not.1 hid

/-- The reply to translation request `k`, checked against its ids. -/
def readReply (replies : Replies) (k : ℕ) (ids : List Text) :
    Except SubXError (List (Text × Text)) :=
  replies (k + 1) >>= fun entries => parseTranslationResponsePartial entries ids

theorem ids_of_readReply {replies : Replies} {k : ℕ} {ids : List Text} {map : List (Text × Text)}
    (h : readReply replies k ids = .ok map) : ∀ id ∈ map.map Prod.fst, id ∈ ids := by
  obtain ⟨entries, -, hparse⟩ := Run.bind_eq_ok.1 h
  exact ids_of_parseTranslationResponsePartial hparse

/-! ## The engine -/

/-- The engine, with a batch size that `new` has checked. -/
structure TranslationEngine where
  batchSize : ℕ
  batchSize_pos : 0 < batchSize

/-- `TranslationEngine::new`. -/
def TranslationEngine.new (batchSize : ℕ) : Except SubXError TranslationEngine :=
  if h : batchSize = 0 then
    .error (.config "Translation batch size must be greater than 0".toList)
  else .ok ⟨batchSize, Nat.pos_of_ne_zero h⟩

/-- The ids of the cues, no two alike. -/
structure CueIds (n : ℕ) where
  ids : List Text
  length_eq : ids.length = n
  nodup : ids.Nodup

/-- What a translation is reported with. -/
structure TranslationOutcome where
  effectiveTerminology : TextMap
  translatedCueCount : ℕ
  batchCount : ℕ

/-- What a translation comes to. -/
structure TranslationResult where
  subtitle : Subtitle
  outcome : TranslationOutcome

/-- User glossary entries over generated terms. -/
def mergeTerminology (generated : TextMap) (glossary : List GlossaryEntry) : TextMap :=
  glossary.foldl
    (fun merged entry =>
      if trim entry.source = [] ∨ trim entry.target = [] then merged
      else update merged (trim entry.source) (some (trim entry.target)))
    generated

/-- The chunks from an index on; the first number bounds how many there are. -/
def chunkRangesFrom (batchSize total : ℕ) : ℕ → ℕ → List (List ℕ)
  | 0, _ => []
  | fuel + 1, start =>
    if start < total then
      let stop := min (start + batchSize) total
      List.range' start (stop - start) :: chunkRangesFrom batchSize total fuel stop
    else []

/-- `chunk_ranges`. Every chunk has an index, so there are at most `total`. -/
def chunkRanges (total batchSize : ℕ) : List (List ℕ) := chunkRangesFrom batchSize total total 0

/-- `missing_translation_indices`. -/
def missingTranslationIndices (cueIds : List Text) (translations : TextMap) : List ℕ :=
  (List.range cueIds.length).filter fun i => (translations (cueIds.getD i [])).isNone

/-- The cues of a batch, as they are sent. -/
def batchCues (cueIds : List Text) (protectedCues : List ProtectedCueText) (indices : List ℕ) :
    List (Text × Text) :=
  indices.map fun i => (cueIds.getD i [], (protectedCues.getD i ⟨[], [], []⟩).promptText)

/-- `translate_batch_once`. -/
def translateBatchOnce (replies : Replies) (sent : SentRequest) (log : Log) :
    Except SubXError (List (Text × Text)) × Log :=
  (readReply replies log.length sent.ids, log ++ [sent])

/-- `translate_batch_with_unknown_retry`. -/
def translateBatchWithUnknownRetry (replies : Replies) (sent : SentRequest) (log : Log) :
    Except SubXError (List (Text × Text) × ℕ) × Log :=
  match translateBatchOnce replies sent log with
  | (.ok map, log) => (.ok (map, 1), log)
  | (.error err, log) =>
    if isUnknownCueIdError err then
      match translateBatchOnce replies sent log with
      | (.ok map, log) => (.ok (map, 2), log)
      | (.error retryErr, log) =>
        if isUnknownCueIdError retryErr then
          (.error (.aiService
            (("Translation response still contained an unknown cue ID after retry; failing this " ++
              "file: ").toList ++ retryErr.display)), log)
        else (.error retryErr, log)
    else (.error err, log)

/-- The loop over the initial batches. -/
def translateBatches (replies : Replies) :
    List SentRequest → TextMap → ℕ → Log → Except SubXError (TextMap × ℕ) × Log
  | [], translations, batchCount, log => (.ok (translations, batchCount), log)
  | sent :: batches, translations, batchCount, log =>
    match translateBatchWithUnknownRetry replies sent log with
    | (.error err, log) => (.error err, log)
    | (.ok (map, issued), log) =>
      translateBatches replies batches (translations.insertAll map) (batchCount + issued) log

/-- The batches of the initial phase. -/
def initialBatches (cueIds : List Text) (protectedCues : List ProtectedCueText) (batchSize : ℕ) :
    List SentRequest :=
  (chunkRanges cueIds.length batchSize).map fun indices =>
    ⟨.initial, batchCues cueIds protectedCues indices⟩

/-- The request of `retry_missing_translations`. -/
def missingBatch (cueIds : List Text) (protectedCues : List ProtectedCueText)
    (translations : TextMap) : SentRequest :=
  ⟨.missing, batchCues cueIds protectedCues (missingTranslationIndices cueIds translations)⟩

/-- The translations of all cues after the retry of missing ones, with the
ids that fell back to an empty text and the number of requests. -/
def retryMissing (replies : Replies) (cueIds : List Text) (protectedCues : List ProtectedCueText)
    (translations : TextMap) (batchCount : ℕ) (log : Log) :
    Except SubXError (TextMap × List Text × ℕ) × Log :=
  if missingTranslationIndices cueIds translations = [] then
    (.ok (translations, [], batchCount), log)
  else
    match translateBatchWithUnknownRetry replies (missingBatch cueIds protectedCues translations)
        log with
    | (.error err, log) => (.error err, log)
    | (.ok (map, issued), log) =>
      let translations := translations.insertAll map
      let fallback := (missingTranslationIndices cueIds translations).map (cueIds.getD · [])
      (.ok (translations.insertAll (fallback.map fun id => (id, [])), fallback,
        batchCount + issued), log)

/-- The translated text of a cue. -/
def reapplyEntry (translations : TextMap) (fallback : List Text) (id : Text)
    (protectedCue : ProtectedCueText) (entry : SubtitleEntry) : Except SubXError SubtitleEntry :=
  match translations id with
  | none => .ok entry
  | some translated =>
    if id ∈ fallback then .ok { entry with text := [] }
    else do
      let text ← restoreInlineFormatting translated protectedCue
      return { entry with text := text }

/-- The translated texts of the cues, until a placeholder is not preserved. -/
def reapply (translations : TextMap) (fallback : List Text) :
    List SubtitleEntry → List Text → List ProtectedCueText → Except SubXError (List SubtitleEntry)
  | entry :: entries, id :: ids, cue :: cues => do
    let entry ← reapplyEntry translations fallback id cue entry
    let entries ← reapply translations fallback entries ids cues
    return entry :: entries
  | entries, _, _ => .ok entries

/-- The cues of a subtitle with their tags taken out. -/
def protectCues (entries : List SubtitleEntry) : List ProtectedCueText :=
  entries.zipIdx.map fun (entry, idx) => protectInlineFormatting entry.text idx

/-- `extract_terminology`, the first request. -/
def extractTerminology (replies : Replies) : Except SubXError TextMap :=
  replies 0 >>= parseTerminologyResponse

/-- The run up to the retry of missing cues: terminology, translations and
number of requests after the initial batches. -/
def translateInitial (engine : TranslationEngine) (replies : Replies) (request : TranslationRequest)
    (cueIds : List Text) (protectedCues : List ProtectedCueText) :
    Except SubXError (TextMap × TextMap × ℕ) × Log :=
  match extractTerminology replies with
  | .error err => (.error err, [])
  | .ok generated =>
    match translateBatches replies (initialBatches cueIds protectedCues engine.batchSize)
        (fun _ => none) 0 [] with
    | (.error err, log) => (.error err, log)
    | (.ok (translations, batchCount), log) =>
      (.ok (mergeTerminology generated request.glossaryEntries, translations, batchCount), log)

/-- `translate_subtitle`, with the translation requests it sent. -/
def translateSubtitle (engine : TranslationEngine) (replies : Replies)
    (request : TranslationRequest) (subtitle : Subtitle) (cueIds : CueIds subtitle.entries.length) :
    Except SubXError TranslationResult × Log :=
  if trim request.targetLanguage = [] then
    (.error (.config "Translation target language must be provided".toList), [])
  else if subtitle.entries = [] then
    (.ok ⟨subtitle, ⟨fun _ => none, 0, 0⟩⟩, [])
  else
    let protectedCues := protectCues subtitle.entries
    match translateInitial engine replies request cueIds.ids protectedCues with
    | (.error err, log) => (.error err, log)
    | (.ok (terminology, translations, batchCount), log) =>
      match retryMissing replies cueIds.ids protectedCues translations batchCount log with
      | (.error err, log) => (.error err, log)
      | (.ok (translations, fallback, batchCount), log) =>
        match reapply translations fallback subtitle.entries cueIds.ids protectedCues with
        | .error err => (.error err, log)
        | .ok entries =>
          (.ok ⟨{ subtitle with entries := entries }, ⟨terminology, entries.length, batchCount⟩⟩,
            log)

end SubxCore
