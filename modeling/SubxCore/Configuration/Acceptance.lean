import SubxCore.Configuration.Validator
/-!
# Acceptable settings

What the values are that a key accepts, said of the values themselves. A
text that passes under a key is that of an acceptable value
(`exists_accepts_of_passes`), and a configuration passes field by field
exactly when every setting is acceptable (`validateAllFields_eq_ok_iff`).
-/

namespace SubxCore.Configuration

open Text Decimal Kind

variable (urlScheme : Text → Option Text)

/-- **The values a key accepts.** -/
def Key.Accepts : (key : Key) → key.kind.Value → Prop
  | .aiProvider, v => v ∈ providerNames
  | .aiModel, v => trim v ≠ [] ∧ byteLen v ≤ 100
  | .aiApiKey, v => ∀ key ∈ v, key ≠ [] → 10 ≤ byteLen key
  | .aiBaseUrl, v => trim v = [] ∨ (urlScheme v).isSome
  | .aiTemperature, v => ¬ v < f32 0 0 ∧ ¬ f32 2 0 < v
  | .aiMaxTokens, v => 0 < v
  | .aiMaxSampleLength, v => 100 ≤ v ∧ v ≤ 10000
  | .aiRetryAttempts, v => 1 ≤ v ∧ v ≤ 10
  | .aiRetryDelayMs, v => 100 ≤ v ∧ v ≤ 30000
  | .aiRequestTimeoutSeconds, v => 10 ≤ v ∧ v ≤ 600
  | .aiApiVersion, v => ∀ version ∈ v, trim version ≠ []
  | .syncDefaultMethod, v => v ∈ ["auto", "vad", "manual"].map String.toList
  | .syncMaxOffsetSeconds, v => ¬ v < f32 1 (-1) ∧ ¬ f32 3600 0 < v
  | .syncVadEnabled, _ => True
  | .syncVadSensitivity, v => ¬ v < f32 0 0 ∧ ¬ f32 1 0 < v
  | .syncVadPaddingChunks, v => v ≤ 10
  | .syncVadMinSpeechDurationMs, _ => True
  | .formatsDefaultOutput, v => v ∈ ["srt", "ass", "vtt", "webvtt"].map String.toList
  | .formatsPreserveStyling, _ => True
  | .formatsDefaultEncoding, v => v ∈ ["utf-8", "gbk", "big5", "shift_jis"].map String.toList
  | .formatsEncodingDetectionConfidence, v => ¬ v < f32 0 0 ∧ ¬ f32 1 0 < v
  | .generalBackupEnabled, _ => True
  | .generalMaxConcurrentJobs, v => 1 ≤ v ∧ v ≤ 64
  | .generalTaskTimeoutSeconds, v => 30 ≤ v ∧ v ≤ 3600
  | .generalEnableProgressBar, _ => True
  | .generalWorkerIdleTimeoutSeconds, v => 10 ≤ v ∧ v ≤ 3600
  | .generalMaxSubtitleBytes, v => 1024 ≤ v ∧ v ≤ 1073741824
  | .generalMaxAudioBytes, v => 1024 ≤ v ∧ v ≤ 10737418240
  | .parallelMaxWorkers, v => 1 ≤ v ∧ v ≤ 64
  | .parallelTaskQueueSize, v => 100 ≤ v ∧ v ≤ 10000
  | .parallelEnableTaskPriorities, _ => True
  | .parallelAutoBalanceWorkers, _ => True
  | .parallelOverflowStrategy, v => v = .block ∨ v = .drop ∨ v = .expand
  | .translationBatchSize, v => 1 ≤ v ∧ v ≤ 1000
  | .translationDefaultTargetLanguage, v => ∀ lang ∈ v, lang ≠ [] → trim lang ≠ []

/-! ## Single checks -/

variable {urlScheme} {α : Type} {message value : Text}

@[simp] theorem passes_checkParsed {parsed : Option α} {check : α → Check} :
    (checkParsed parsed message check).passes = true ↔
      ∃ v, parsed = some v ∧ (check v).passes = true := by
  cases parsed <;> simp [checkParsed]

@[simp] theorem passes_validateApiKey :
    (validateApiKey value).passes = true ↔ value ≠ [] ∧ 10 ≤ byteLen value := by
  unfold validateApiKey
  split_ifs with h h' <;> simp_all

@[simp] theorem passes_validateAiModel :
    (validateAiModel value).passes = true ↔ trim value ≠ [] ∧ byteLen value ≤ 100 := by
  simp [validateAiModel]

@[simp] theorem passes_validateTemperature {v : F32} :
    (validateTemperature v).passes = true ↔ ¬ v < f32 0 0 ∧ ¬ f32 2 0 < v := by
  simp [validateTemperature]

@[simp] theorem passes_rangeF32 {lo hi v : F32} :
    (rangeF32 lo hi v).passes = true ↔ ¬ v < lo ∧ ¬ hi < v := by simp [rangeF32]

@[simp] theorem passes_range32 {lo hi v : UInt32} :
    (range32 lo hi v).passes = true ↔ lo ≤ v ∧ v ≤ hi := by simp [range32]

@[simp] theorem passes_range64 {lo hi v : UInt64} :
    (range64 lo hi v).passes = true ↔ lo ≤ v ∧ v ≤ hi := by simp [range64]

@[simp] theorem passes_positive32 {v : UInt32} :
    (validatePositiveNumber shown32 0 v).passes = true ↔ 0 < v := by
  rw [passes_validatePositiveNumber, Bool.not_eq_true', decide_eq_false_iff_not, UInt32.not_le]

@[simp] theorem passes_positive64 {v : UInt64} :
    (validatePositiveNumber shown64 0 v).passes = true ↔ 0 < v := by
  rw [passes_validatePositiveNumber, Bool.not_eq_true', decide_eq_false_iff_not, UInt64.not_le]

@[simp] theorem passes_parseBool :
    Check.passes ((parseBool value).map fun _ => ()) = true ↔
      ∃ b, (parseBool value).toOption = some b := by
  rcases parseBool value with error | b
  · exact iff_of_false (by rintro ⟨⟩) (by rintro ⟨b, ⟨⟩⟩)
  · exact iff_of_true rfl ⟨b, rfl⟩

/-! ## Texts under a key -/

/-- A provider that may be given is one in its canonical form. -/
theorem normalizeAiProvider_mem (h : value ∈ providerNames) :
    normalizeAiProvider value ∈ providerNames := by
  revert value
  decide

theorem parseStrategy_isSome_iff : value ∈ ["Block", "Drop", "Expand"].map String.toList ↔
    ∃ v, parseStrategy value = some v ∧ (v = .block ∨ v = .drop ∨ v = .expand) := by
  simp only [parseStrategy, List.map_cons, List.map_nil, List.mem_cons, List.not_mem_nil, or_false]
  split_ifs with h h' h'' <;> simp_all

/-- **A text passes under a key exactly when it is that of an acceptable value**;
the name of a provider has to be in canonical form, and a version has to be there. -/
theorem passes_checkKey_iff {key : Key} (hprovider : key ≠ .aiProvider)
    (hversion : key ≠ .aiApiVersion) : (checkKey urlScheme key value).passes = true ↔
      ∃ v, key.kind.parse value = some v ∧ key.Accepts urlScheme v := by
  cases key with
  | aiProvider => exact absurd rfl hprovider
  | aiApiVersion => exact absurd rfl hversion
  | aiModel | aiBaseUrl | syncDefaultMethod | formatsDefaultOutput | formatsDefaultEncoding =>
    simp [checkKey, Kind.parse, Key.Accepts]
  | aiApiKey | translationDefaultTargetLanguage =>
    by_cases h : value = [] <;> simp [checkKey, Kind.parse, Key.Accepts, h]
  | parallelOverflowStrategy =>
    rw [checkKey, passes_validateEnum, decide_eq_true_eq, parseStrategy_isSome_iff]
    rfl
  | syncVadEnabled | formatsPreserveStyling | generalBackupEnabled | generalEnableProgressBar
  | parallelEnableTaskPriorities | parallelAutoBalanceWorkers =>
    exact passes_parseBool.trans (exists_congr fun b => (and_iff_left trivial).symm)
  | syncVadMinSpeechDurationMs =>
    exact passes_checkParsed.trans (exists_congr fun v => and_congr_right fun _ =>
      iff_of_true rfl trivial)
  | aiMaxTokens =>
    exact passes_checkParsed.trans (exists_congr fun v => and_congr_right fun _ =>
      passes_positive32)
  | aiTemperature =>
    exact passes_checkParsed.trans (exists_congr fun v => and_congr_right fun _ =>
      passes_validateTemperature)
  | syncMaxOffsetSeconds | syncVadSensitivity | formatsEncodingDetectionConfidence =>
    exact passes_checkParsed.trans (exists_congr fun v => and_congr_right fun _ => passes_rangeF32)
  | aiRetryAttempts =>
    exact passes_checkParsed.trans (exists_congr fun v => and_congr_right fun _ => passes_range32)
  | syncVadPaddingChunks =>
    exact passes_checkParsed.trans (exists_congr fun v => and_congr_right fun _ =>
      passes_range32.trans (and_iff_right UInt32.zero_le))
  | aiMaxSampleLength | aiRetryDelayMs | aiRequestTimeoutSeconds | generalMaxConcurrentJobs
  | generalTaskTimeoutSeconds | generalWorkerIdleTimeoutSeconds | generalMaxSubtitleBytes
  | generalMaxAudioBytes | parallelMaxWorkers | parallelTaskQueueSize | translationBatchSize =>
    exact passes_checkParsed.trans (exists_congr fun v => and_congr_right fun _ => passes_range64)

/-- A text that passes is that of an acceptable value in any case. -/
theorem exists_accepts_of_passes {key : Key} (h : (checkKey urlScheme key value).passes = true) :
    ∃ v, key.kind.parse value = some v ∧ key.Accepts urlScheme v := by
  by_cases hprovider : key = .aiProvider
  · subst hprovider
    rw [checkKey, passes_bind, Bool.and_eq_true, passes_validateEnum, decide_eq_true_eq] at h
    exact ⟨_, rfl, normalizeAiProvider_mem h.2⟩
  by_cases hversion : key = .aiApiVersion
  · subst hversion
    rw [checkKey, passes_validateNonEmptyString, Bool.not_eq_true', decide_eq_false_iff_not] at h
    refine ⟨_, rfl, fun version hv => ?_⟩
    split_ifs at hv with hnil
    · cases hv
    · rwa [← Option.some.inj hv]
  exact (passes_checkKey_iff hprovider hversion).1 h

/-! ## Settings as texts -/

/-- The text a setting is checked as: what is optional may have none. -/
def Kind.shown : (kind : Kind) → kind.Value → Option Text
  | optional, v => v
  | kind, v => some (kind.display v)

theorem shownStrategy_mem_iff (v : OverflowStrategy) :
    shownStrategy v ∈ ["Block", "Drop", "Expand"].map String.toList ↔
      v = .block ∨ v = .drop ∨ v = .expand := by
  cases v <;> decide

theorem passes_display_iff {key : Key} {v : key.kind.Value} (hprovider : key ≠ .aiProvider)
    (hversion : key ≠ .aiApiVersion) (hshown : key.kind.shown v = some (key.kind.display v))
    (hparse : key.kind.parse (key.kind.display v) = some v) :
    (∀ s ∈ key.kind.shown v, (checkKey urlScheme key s).passes = true) ↔
      key.Accepts urlScheme v := by
  simp only [hshown, Option.mem_some_iff, forall_eq', passes_checkKey_iff hprovider hversion,
    hparse, Option.some.injEq, exists_eq_left']

/-- **A setting passes as a text exactly when it is acceptable.** -/
theorem passes_shown_iff {key : Key} {v : key.kind.Value} :
    (∀ s ∈ key.kind.shown v, (checkKey urlScheme key s).passes = true) ↔
      key.Accepts urlScheme v := by
  cases key with
  | aiProvider =>
    have hname : ∀ s ∈ providerNames, trim s ≠ [] := by decide
    simp only [Kind.shown, Kind.display, Option.mem_some_iff, forall_eq', checkKey, passes_bind,
      Bool.and_eq_true, passes_validateNonEmptyString, Bool.not_eq_true', decide_eq_false_iff_not,
      passes_validateEnum, decide_eq_true_eq, Key.Accepts, and_iff_right_iff_imp]
    exact hname v
  | aiApiVersion => simp [Kind.shown, checkKey, Key.Accepts]
  | aiApiKey | translationDefaultTargetLanguage =>
    refine forall₂_congr fun s _ => ?_
    by_cases h : s = [] <;> simp [checkKey, h]
  | parallelOverflowStrategy =>
    simp only [Kind.shown, Kind.display, Option.mem_some_iff, forall_eq', checkKey,
      passes_validateEnum, decide_eq_true_eq]
    exact shownStrategy_mem_iff v
  | aiModel | aiBaseUrl | syncDefaultMethod | formatsDefaultOutput | formatsDefaultEncoding =>
    exact passes_display_iff (by decide) (by decide) rfl rfl
  | syncVadEnabled | formatsPreserveStyling | generalBackupEnabled | generalEnableProgressBar
  | parallelEnableTaskPriorities | parallelAutoBalanceWorkers =>
    exact passes_display_iff (by decide) (by decide) rfl
      (congrArg Except.toOption (parseBool_shownFlag v))
  | aiTemperature | syncMaxOffsetSeconds | syncVadSensitivity
  | formatsEncodingDetectionConfidence =>
    exact passes_display_iff (by decide) (by decide) rfl (parseF32_display v)
  | aiMaxTokens | aiRetryAttempts | syncVadPaddingChunks | syncVadMinSpeechDurationMs =>
    exact passes_display_iff (by decide) (by decide) rfl (parseU32_shown32 v)
  | aiMaxSampleLength | aiRetryDelayMs | aiRequestTimeoutSeconds | generalMaxConcurrentJobs
  | generalTaskTimeoutSeconds | generalWorkerIdleTimeoutSeconds | generalMaxSubtitleBytes
  | generalMaxAudioBytes | parallelMaxWorkers | parallelTaskQueueSize | translationBatchSize =>
    exact passes_display_iff (by decide) (by decide) rfl (parseU64_shown64 v)

/-- The fields that are checked are the settings of all keys. -/
theorem shownFields_eq (config : Config) :
    shownFields config = Key.all.map fun key => (key, key.kind.shown (key.get config)) := rfl

/-- Checks in a row pass when each does. -/
theorem passes_forM {l : List α} {check : α → Check} :
    Check.passes (l.forM check) = true ↔ ∀ a ∈ l, (check a).passes = true := by
  induction l with
  | nil => exact iff_of_true rfl (by simp)
  | cons a l ih =>
    change Check.passes (check a >>= fun _ => l.forM check) = true ↔ _
    rw [passes_bind, Bool.and_eq_true, ih, List.forall_mem_cons]

/-- **A configuration passes field by field exactly when every setting is
acceptable.** -/
theorem validateAllFields_eq_ok_iff {config : Config} :
    validateAllFields urlScheme config = .ok () ↔
      ∀ key : Key, key.Accepts urlScheme (key.get config) := by
  rw [← passes_iff, validateAllFields, passes_forM, shownFields_eq, List.forall_mem_map]
  constructor
  · intro h key
    refine passes_shown_iff.1 fun s hs => ?_
    have := h key key.mem_all
    rw [Option.mem_def] at hs
    simpa only [hs, validateField, Key.ofName_name] using this
  · intro h key _
    cases hs : key.kind.shown (key.get config) with
    | none => rfl
    | some s =>
      simp only [validateField, Key.ofName_name]
      exact passes_shown_iff.2 (h key) s hs

end SubxCore.Configuration
