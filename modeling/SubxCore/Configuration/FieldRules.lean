import SubxCore.Configuration.SectionRules
/-!
# The rules of the fields and the rules of the sections

`validate_config` is not the stricter of the two validations. What it lets
through and the rules of the fields do not is `FieldRules`, and nothing
else: `validateAllFields_iff_fieldRules`.
-/

namespace SubxCore.Configuration

open Text Decimal Kind

variable {urlScheme : Text → Option Text} {config : Config}

/-! ## What the sections check -/

/-- A base URL that the rule of an endpoint lets through is acceptable, unless no rule
looks at it. -/
theorem accepts_baseUrl {ai : AIConfig} (h : ProviderRule urlScheme ai)
    (hprovider : normalizeAiProvider ai.provider ∈ canonicalProviders)
    (hanthropic : normalizeAiProvider ai.provider ≠ "anthropic".toList) :
    Key.Accepts urlScheme .aiBaseUrl ai.baseUrl := by
  have hsplit : ∀ name ∈ canonicalProviders, name ≠ "anthropic".toList →
      name ∈ hostedProviders ∨ name = "local".toList := by decide
  rcases hsplit _ hprovider hanthropic with hhosted | hlocal
  · rcases h.hostedUrl hhosted with hnil | hscheme
    · exact .inl (by rw [hnil]; rfl)
    · exact .inr (by rw [hscheme]; rfl)
  · exact .inr (h.localUrl hlocal).2

/-- A language that its section lets through is acceptable. -/
theorem accepts_language {lang : Option Text}
    (h : Key.SectionRule .translationDefaultTargetLanguage lang) :
    Key.Accepts urlScheme .translationDefaultTargetLanguage lang := fun name hname _ => h name hname

/-- So is a method, which its section lists in another order than the field. -/
theorem accepts_method {method : Text} (h : Key.SectionRule .syncDefaultMethod method) :
    Key.Accepts urlScheme .syncDefaultMethod method := by
  have hmethods : ∀ s ∈ ["vad", "auto", "manual"].map String.toList,
      s ∈ ["auto", "vad", "manual"].map String.toList := by decide
  exact hmethods _ h

/-! ## What is left to the fields -/

/-- **What the rules of the fields ask beyond those of the sections.** -/
structure FieldRules (urlScheme : Text → Option Text) (config : Config) : Prop where
  provider : config.ai.provider ∈ providerNames
  anthropic : normalizeAiProvider config.ai.provider = "anthropic".toList →
    0 < config.ai.maxTokens ∧
      (trim config.ai.baseUrl = [] ∨ (urlScheme config.ai.baseUrl).isSome)
  apiVersion : normalizeAiProvider config.ai.provider ≠ "azure-openai".toList →
    ∀ version ∈ config.ai.apiVersion, trim version ≠ []
  maxSampleLength : 100 ≤ config.ai.maxSampleLength ∧ config.ai.maxSampleLength ≤ 10000
  retryDelayMs : 100 ≤ config.ai.retryDelayMs ∧ config.ai.retryDelayMs ≤ 30000
  maxOffsetSeconds : ¬ config.sync.maxOffsetSeconds < f32 1 (-1)
  maxSubtitleBytes :
    1024 ≤ config.general.maxSubtitleBytes ∧ config.general.maxSubtitleBytes ≤ 1073741824
  maxAudioBytes :
    1024 ≤ config.general.maxAudioBytes ∧ config.general.maxAudioBytes ≤ 10737418240
  taskQueueSize : config.parallel.taskQueueSize ≤ 10000
  overflowStrategy : config.parallel.overflowStrategy = .block ∨
    config.parallel.overflowStrategy = .drop ∨ config.parallel.overflowStrategy = .expand

/-- **A configuration that passes section by section passes field by field exactly
when it keeps the rules that only the fields have.** -/
theorem validateAllFields_iff_fieldRules (h : validateConfig urlScheme config = .ok ()) :
    validateAllFields urlScheme config = .ok () ↔ FieldRules urlScheme config := by
  obtain ⟨hai, hrule⟩ := validateConfig_eq_ok_iff.1 h
  rw [validateAllFields_eq_ok_iff]
  constructor
  · intro hall
    exact ⟨hall .aiProvider, fun _ => ⟨hall .aiMaxTokens, hall .aiBaseUrl⟩,
      fun _ => hall .aiApiVersion, hall .aiMaxSampleLength, hall .aiRetryDelayMs,
      (hall .syncMaxOffsetSeconds).1, hall .generalMaxSubtitleBytes, hall .generalMaxAudioBytes,
      (hall .parallelTaskQueueSize).2, hall .parallelOverflowStrategy⟩
  · intro hfields key
    have hanthropic := hfields.anthropic
    have hversion := hfields.apiVersion
    have hsensitivity := hrule .syncVadSensitivity
    cases key with
    | aiProvider => exact hfields.provider
    | aiBaseUrl =>
      exact (em _).elim (fun h => (hanthropic h).2) (accepts_baseUrl hai (hrule .aiProvider))
    | aiMaxTokens => exact (em _).elim (fun h => (hanthropic h).1) hai.maxTokens
    | aiMaxSampleLength => exact hfields.maxSampleLength
    | aiRetryDelayMs => exact hfields.retryDelayMs
    | aiApiVersion => exact (em _).elim hai.azureVersion hversion
    | syncDefaultMethod => exact accepts_method (hrule .syncDefaultMethod)
    | syncMaxOffsetSeconds =>
      exact ⟨hfields.maxOffsetSeconds, (hrule .syncMaxOffsetSeconds).2⟩
    | syncVadSensitivity =>
      exact ⟨BinaryFloat.not_lt_of_le hsensitivity.1, BinaryFloat.not_lt_of_le hsensitivity.2⟩
    | generalMaxSubtitleBytes => exact hfields.maxSubtitleBytes
    | generalMaxAudioBytes => exact hfields.maxAudioBytes
    | parallelTaskQueueSize => exact ⟨hrule .parallelTaskQueueSize, hfields.taskQueueSize⟩
    | parallelOverflowStrategy => exact hfields.overflowStrategy
    | translationDefaultTargetLanguage =>
      exact accepts_language (hrule .translationDefaultTargetLanguage)
    -- for these the two rules are the same
    | aiModel => exact hrule .aiModel
    | aiApiKey => exact hrule .aiApiKey
    | aiTemperature => exact hrule .aiTemperature
    | aiRetryAttempts => exact hrule .aiRetryAttempts
    | aiRequestTimeoutSeconds => exact hrule .aiRequestTimeoutSeconds
    | syncVadPaddingChunks => exact hrule .syncVadPaddingChunks
    | formatsDefaultOutput => exact hrule .formatsDefaultOutput
    | formatsDefaultEncoding => exact hrule .formatsDefaultEncoding
    | formatsEncodingDetectionConfidence => exact hrule .formatsEncodingDetectionConfidence
    | generalMaxConcurrentJobs => exact hrule .generalMaxConcurrentJobs
    | generalTaskTimeoutSeconds => exact hrule .generalTaskTimeoutSeconds
    | generalWorkerIdleTimeoutSeconds => exact hrule .generalWorkerIdleTimeoutSeconds
    | parallelMaxWorkers => exact hrule .parallelMaxWorkers
    | translationBatchSize => exact hrule .translationBatchSize
    | syncVadEnabled | syncVadMinSpeechDurationMs | formatsPreserveStyling | generalBackupEnabled
    | generalEnableProgressBar | parallelEnableTaskPriorities | parallelAutoBalanceWorkers =>
      exact trivial

/-- The scheme of a URL, as far as the web goes. -/
def webScheme (url : Text) : Option Text :=
  if "https://".toList <+: url then some "https".toList
  else if "http://".toList <+: url then some "http".toList
  else none

/-- The defaults of a machine with eight processors are valid. -/
theorem validateConfig_default : validateConfig webScheme (.default 8) = .ok () :=
  passes_iff.1 (by decide +kernel)

end SubxCore.Configuration
