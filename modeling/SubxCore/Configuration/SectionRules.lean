import SubxCore.Configuration.Acceptance
/-!
# The rules of the sections

What `validate_config` lets through, said of the settings themselves. Most
settings are checked by themselves, wherever they are in the configuration
(`Key.SectionRule`); what is asked of an endpoint depends on its provider
(`ProviderRule`). There is nothing else to it: `validateConfig_eq_ok_iff`.
-/

namespace SubxCore.Configuration

open Text Decimal Kind

/-- The providers that have an arm, in their canonical form. -/
def canonicalProviders : List Text :=
  ["openai", "openrouter", "anthropic", "azure-openai", "local"].map String.toList

/-- The hosted providers whose base URL is checked. -/
def hostedProviders : List Text := ["openai", "openrouter", "azure-openai"].map String.toList

/-- **What the sections ask of a setting by itself.** -/
def Key.SectionRule : (key : Key) → key.kind.Value → Prop
  | .aiProvider, v => normalizeAiProvider v ∈ canonicalProviders
  | .aiModel, v => trim v ≠ [] ∧ byteLen v ≤ 100
  | .aiApiKey, v => ∀ key ∈ v, key ≠ [] → 10 ≤ byteLen key
  | .aiTemperature, v => ¬ v < f32 0 0 ∧ ¬ f32 2 0 < v
  | .aiRetryAttempts, v => 1 ≤ v ∧ v ≤ 10
  | .aiRequestTimeoutSeconds, v => 10 ≤ v ∧ v ≤ 600
  | .syncDefaultMethod, v => v ∈ ["vad", "auto", "manual"].map String.toList
  | .syncMaxOffsetSeconds, v => ¬ v ≤ f32 0 0 ∧ ¬ f32 3600 0 < v
  | .syncVadSensitivity, v => f32 0 0 ≤ v ∧ v ≤ f32 1 0
  | .syncVadPaddingChunks, v => v ≤ 10
  | .syncVadMinSpeechDurationMs, v => v ≤ 5000
  | .formatsDefaultOutput, v => v ∈ ["srt", "ass", "vtt", "webvtt"].map String.toList
  | .formatsDefaultEncoding, v => v ∈ ["utf-8", "gbk", "big5", "shift_jis"].map String.toList
  | .formatsEncodingDetectionConfidence, v => ¬ v < f32 0 0 ∧ ¬ f32 1 0 < v
  | .generalMaxConcurrentJobs, v => 1 ≤ v ∧ v ≤ 64
  | .generalTaskTimeoutSeconds, v => 30 ≤ v ∧ v ≤ 3600
  | .generalWorkerIdleTimeoutSeconds, v => 10 ≤ v ∧ v ≤ 3600
  | .parallelMaxWorkers, v => 1 ≤ v ∧ v ≤ 64
  | .parallelTaskQueueSize, v => 100 ≤ v
  | .translationBatchSize, v => 1 ≤ v ∧ v ≤ 1000
  | .translationDefaultTargetLanguage, v => ∀ lang ∈ v, trim lang ≠ []
  | .aiBaseUrl, _ | .aiMaxTokens, _ | .aiMaxSampleLength, _ | .aiRetryDelayMs, _
  | .aiApiVersion, _ | .syncVadEnabled, _ | .formatsPreserveStyling, _
  | .generalBackupEnabled, _ | .generalEnableProgressBar, _ | .generalMaxSubtitleBytes, _
  | .generalMaxAudioBytes, _ | .parallelEnableTaskPriorities, _
  | .parallelAutoBalanceWorkers, _ | .parallelOverflowStrategy, _ => True

/-- **What is asked of an endpoint, by its provider.** -/
structure EndpointRule (urlScheme : Text → Option Text) (ai : AIConfig) : Prop where
  openaiKey : normalizeAiProvider ai.provider = "openai".toList →
    ∀ key ∈ ai.apiKey, key ≠ [] → "sk-".toList <+: key
  maxTokens : normalizeAiProvider ai.provider ≠ "anthropic".toList → 0 < ai.maxTokens
  azureVersion : normalizeAiProvider ai.provider = "azure-openai".toList →
    ∀ version ∈ ai.apiVersion, trim version ≠ []
  hostedUrl : normalizeAiProvider ai.provider ∈ hostedProviders →
    ai.baseUrl = [] ∨ urlScheme ai.baseUrl = some "https".toList
  localUrl : normalizeAiProvider ai.provider = "local".toList →
    trim ai.baseUrl ≠ [] ∧ (urlScheme ai.baseUrl).isSome

/-- **What is asked of the provider and what comes with it.** With the provider that is
spelled `openai` a key may be missing but not empty. -/
structure ProviderRule (urlScheme : Text → Option Text) (ai : AIConfig) : Prop
    extends EndpointRule urlScheme ai where
  emptyKey : ai.provider = "openai".toList → ai.apiKey ≠ some []

variable {urlScheme : Text → Option Text} {config : Config} {ai : AIConfig}

/-! ## The AI section -/

theorem one_le32_iff {v : UInt32} : ¬ v ≤ 0 ↔ 1 ≤ v := by
  rw [UInt32.not_le, UInt32.lt_iff_toNat_lt, UInt32.le_iff_toNat_le]
  rfl

theorem one_le64_iff {v : UInt64} : ¬ v ≤ 0 ↔ 1 ≤ v := by
  rw [UInt64.not_le, UInt64.lt_iff_toNat_lt, UInt64.le_iff_toNat_le]
  rfl

@[simp] theorem passes_validateOptionalKey {apiKey : Option Text} :
    (validateOptionalKey apiKey).passes = true ↔ Key.SectionRule .aiApiKey apiKey := by
  cases apiKey with
  | none => exact iff_of_true rfl (by rintro key ⟨⟩)
  | some key => by_cases h : key = [] <;> simp [validateOptionalKey, Key.SectionRule, h]

@[simp] theorem passes_validateOpenaiKey {apiKey : Option Text} :
    (validateOpenaiKey apiKey).passes = true ↔ Key.SectionRule .aiApiKey apiKey ∧
      ∀ key ∈ apiKey, key ≠ [] → "sk-".toList <+: key := by
  cases apiKey with
  | none => exact iff_of_true rfl ⟨by rintro key ⟨⟩, by rintro key ⟨⟩⟩
  | some key => by_cases h : key = [] <;> simp [validateOpenaiKey, Key.SectionRule, h]

@[simp] theorem passes_validateHostedUrl {baseUrl provider : Text} :
    (validateHostedUrl urlScheme baseUrl provider).passes = true ↔
      baseUrl = [] ∨ urlScheme baseUrl = some "https".toList := by
  by_cases hnil : baseUrl = []
  · simp [validateHostedUrl, hnil]
  · rw [validateHostedUrl, if_pos hnil, passes_bind, Bool.and_eq_true, passes_validateUrlFormat,
      or_iff_right hnil, requireHttpsForHostedProvider]
    cases hscheme : urlScheme baseUrl with
    | none => simp
    | some scheme =>
      simp only [ite_not, Option.isSome_some, Bool.or_true, true_and, Option.some.injEq]
      split_ifs with h
      · exact iff_of_true rfl h
      · exact iff_of_false (by rintro ⟨⟩) h

@[simp] theorem passes_validateVersion {apiVersion : Option Text} :
    (validateVersion apiVersion).passes = true ↔ ∀ version ∈ apiVersion, trim version ≠ [] := by
  cases apiVersion <;> simp [validateVersion]

/-- With a provider in one of the arms, the rule of its endpoint is that of the arm. -/
theorem endpointRule_iff {canonical : Text} (h : normalizeAiProvider ai.provider = canonical) :
    EndpointRule urlScheme ai ↔
      (canonical = "openai".toList → ∀ key ∈ ai.apiKey, key ≠ [] → "sk-".toList <+: key) ∧
      (canonical ≠ "anthropic".toList → 0 < ai.maxTokens) ∧
      (canonical = "azure-openai".toList → ∀ version ∈ ai.apiVersion, trim version ≠ []) ∧
      (canonical ∈ hostedProviders → ai.baseUrl = [] ∨ urlScheme ai.baseUrl = some "https".toList) ∧
      (canonical = "local".toList → trim ai.baseUrl ≠ [] ∧ (urlScheme ai.baseUrl).isSome) := by
  subst h
  exact ⟨fun ⟨hkey, htokens, hversion, hhosted, hlocal⟩ => ⟨hkey, htokens, hversion, hhosted, hlocal⟩,
    fun ⟨hkey, htokens, hversion, hhosted, hlocal⟩ => ⟨hkey, htokens, hversion, hhosted, hlocal⟩⟩

/-- **What the arm of a provider checks.** -/
theorem passes_validateProvider : (validateProvider urlScheme ai).passes = true ↔
    normalizeAiProvider ai.provider ∈ canonicalProviders ∧ Key.SectionRule .aiApiKey ai.apiKey ∧
      Key.SectionRule .aiModel ai.model ∧ Key.SectionRule .aiTemperature ai.temperature ∧
      EndpointRule urlScheme ai := by
  simp only [validateProvider]
  split_ifs with hopenai hopenrouter hanthropic hazure hlocal
  · rw [endpointRule_iff hopenai, hopenai]
    simp +decide only [passes_bind, Bool.and_eq_true, passes_validateOpenaiKey,
      passes_validateAiModel, passes_validateTemperature, passes_positive32,
      passes_validateHostedUrl, Key.SectionRule, true_implies, false_implies, true_and, and_true]
    tauto
  · rw [endpointRule_iff hopenrouter, hopenrouter]
    simp +decide only [passes_bind, Bool.and_eq_true, passes_validateOptionalKey,
      passes_validateAiModel, passes_validateTemperature, passes_positive32,
      passes_validateHostedUrl, Key.SectionRule, true_implies, false_implies, true_and, and_true]
  · rw [endpointRule_iff hanthropic, hanthropic]
    simp +decide only [passes_bind, Bool.and_eq_true, passes_validateOptionalKey,
      passes_validateAiModel, passes_validateTemperature, Key.SectionRule, false_implies,
      true_and, and_true]
  · rw [endpointRule_iff hazure, hazure]
    simp +decide only [passes_bind, Bool.and_eq_true, passes_validateOptionalKey,
      passes_validateAiModel, passes_validateTemperature, passes_positive32,
      passes_validateVersion, passes_validateHostedUrl, Key.SectionRule, true_implies,
      false_implies, true_and, and_true]
  · rw [endpointRule_iff hlocal, hlocal]
    simp +decide only [passes_bind, Bool.and_eq_true, passes_validateOptionalKey,
      passes_validateAiModel, passes_validateTemperature, passes_positive32, passes_refuseIf,
      passes_validateUrlFormat, Bool.or_eq_true, Bool.not_eq_true', decide_eq_true_eq,
      decide_eq_false_iff_not, Key.SectionRule, true_implies, false_implies, true_and]
    tauto
  · refine iff_of_false (by rintro ⟨⟩) fun h => ?_
    have hnone : normalizeAiProvider ai.provider ∉ canonicalProviders := by
      simp only [canonicalProviders, List.map_cons, List.map_nil, List.mem_cons,
        List.not_mem_nil, or_false, not_or]
      exact ⟨hopenai, hopenrouter, hanthropic, hazure, hlocal⟩
    exact hnone h.1

/-- A provider that has an arm is no white space. -/
theorem trim_ne_nil_of_canonical {value : Text}
    (h : normalizeAiProvider value ∈ canonicalProviders) : trim value ≠ [] := by
  intro hnil
  rw [normalizeAiProvider, hnil] at h
  exact absurd h (by decide)

theorem passes_validateAiConfig : (validateAiConfig urlScheme ai).passes = true ↔
    (Key.SectionRule .aiProvider ai.provider ∧ Key.SectionRule .aiApiKey ai.apiKey ∧
      Key.SectionRule .aiModel ai.model ∧ Key.SectionRule .aiTemperature ai.temperature ∧
      EndpointRule urlScheme ai) ∧ Key.SectionRule .aiRetryAttempts ai.retryAttempts ∧
      Key.SectionRule .aiRequestTimeoutSeconds ai.requestTimeoutSeconds := by
  simp only [validateAiConfig, passes_bind, passes_orElse, passes_validateNonEmptyString,
    passes_validatePositiveNumber, passes_refuseIf, Bool.and_eq_true, Bool.not_eq_true',
    decide_eq_false_iff_not, passes_validateProvider, passes_range64, gt_iff_lt, UInt32.not_lt,
    one_le32_iff, Key.SectionRule]
  constructor
  · rintro ⟨-, hprovider, hretry, hmax, htimeout⟩
    exact ⟨hprovider, ⟨hretry, hmax⟩, htimeout⟩
  · rintro ⟨hprovider, ⟨hretry, hmax⟩, htimeout⟩
    exact ⟨trim_ne_nil_of_canonical hprovider.1, hprovider, hretry, hmax, htimeout⟩

/-! ## The other sections -/

theorem passes_validateSyncConfig {sync : SyncConfig} : (validateSyncConfig sync).passes = true ↔
    Key.SectionRule .syncDefaultMethod sync.defaultMethod ∧
      Key.SectionRule .syncMaxOffsetSeconds sync.maxOffsetSeconds ∧
      Key.SectionRule .syncVadSensitivity sync.vad.sensitivity ∧
      Key.SectionRule .syncVadPaddingChunks sync.vad.paddingChunks ∧
      Key.SectionRule .syncVadMinSpeechDurationMs sync.vad.minSpeechDurationMs := by
  simp only [validateSyncConfig, VadConfig.validate, passes_bind, passes_validateEnum,
    passes_validatePositiveNumber, passes_refuseIf, Bool.and_eq_true, Bool.not_eq_true',
    decide_eq_true_eq, decide_eq_false_iff_not, not_not, gt_iff_lt, UInt32.not_lt,
    Key.SectionRule]
  exact and_congr_right fun _ => and_assoc.symm

theorem passes_validateGeneralConfig {general : GeneralConfig} :
    (validateGeneralConfig general).passes = true ↔
      Key.SectionRule .generalMaxConcurrentJobs general.maxConcurrentJobs ∧
      Key.SectionRule .generalTaskTimeoutSeconds general.taskTimeoutSeconds ∧
      Key.SectionRule .generalWorkerIdleTimeoutSeconds general.workerIdleTimeoutSeconds := by
  simp only [validateGeneralConfig, passes_bind, passes_orElse, passes_validatePositiveNumber,
    passes_refuseIf, Bool.and_eq_true, Bool.not_eq_true', decide_eq_false_iff_not, passes_range64,
    gt_iff_lt, UInt64.not_lt, one_le64_iff, Key.SectionRule]
  exact and_assoc.symm

theorem passes_validateFormatsConfig {formats : FormatsConfig} :
    (validateFormatsConfig formats).passes = true ↔
      Key.SectionRule .formatsDefaultOutput formats.defaultOutput ∧
      Key.SectionRule .formatsDefaultEncoding formats.defaultEncoding ∧
      Key.SectionRule .formatsEncodingDetectionConfidence
        formats.encodingDetectionConfidence := by
  have houtputs : ∀ s ∈ ["srt", "ass", "vtt", "webvtt"].map String.toList, trim s ≠ [] := by decide
  have hencodings : ∀ s ∈ ["utf-8", "gbk", "big5", "shift_jis"].map String.toList, trim s ≠ [] := by
    decide
  simp only [validateFormatsConfig, passes_bind, passes_orElse, passes_validateNonEmptyString,
    passes_validateEnum, Bool.and_eq_true, Bool.not_eq_true', decide_eq_true_eq,
    decide_eq_false_iff_not, passes_rangeF32, Key.SectionRule]
  constructor
  · rintro ⟨-, houtput, -, hencoding, hconfidence⟩
    exact ⟨houtput, hencoding, hconfidence⟩
  · rintro ⟨houtput, hencoding, hconfidence⟩
    exact ⟨houtputs _ houtput, houtput, hencodings _ hencoding, hencoding, hconfidence⟩

theorem passes_validateParallelConfig {parallel : ParallelConfig} :
    (validateParallelConfig parallel).passes = true ↔
      Key.SectionRule .parallelMaxWorkers parallel.maxWorkers ∧
      Key.SectionRule .parallelTaskQueueSize parallel.taskQueueSize := by
  simp only [validateParallelConfig, passes_bind, passes_validatePositiveNumber, passes_refuseIf,
    Bool.and_eq_true, Bool.not_eq_true', decide_eq_false_iff_not, gt_iff_lt, UInt64.not_lt,
    one_le64_iff, Key.SectionRule]
  constructor
  · rintro ⟨hworkers, hmax, -, hqueue⟩
    exact ⟨⟨hworkers, hmax⟩, hqueue⟩
  · rintro ⟨⟨hworkers, hmax⟩, hqueue⟩
    exact ⟨hworkers, hmax, UInt64.le_trans (by decide) hqueue, hqueue⟩

theorem passes_validateTranslationConfig {translation : TranslationConfig} :
    (validateTranslationConfig translation).passes = true ↔
      Key.SectionRule .translationBatchSize translation.batchSize ∧
      Key.SectionRule .translationDefaultTargetLanguage translation.defaultTargetLanguage := by
  have hlanguage : (validateLanguage translation.defaultTargetLanguage).passes = true ↔
      ∀ lang ∈ translation.defaultTargetLanguage, trim lang ≠ [] := by
    cases translation.defaultTargetLanguage <;> simp [validateLanguage]
  have hbatch : ¬ translation.batchSize = 0 ↔ 1 ≤ translation.batchSize := by
    rw [← one_le64_iff, UInt64.not_le, UInt64.pos_iff_ne_zero]
  simp only [validateTranslationConfig, passes_bind, passes_refuseIf, Bool.and_eq_true,
    Bool.not_eq_true', decide_eq_false_iff_not, gt_iff_lt, UInt64.not_lt, hlanguage, hbatch,
    Key.SectionRule]
  exact and_assoc.symm

/-- **What `validate_config` lets through**: the settings keep the rules of their
sections, each by itself, and those of the provider together. -/
theorem validateConfig_eq_ok_iff : validateConfig urlScheme config = .ok () ↔
    ProviderRule urlScheme config.ai ∧ ∀ key : Key, key.SectionRule (key.get config) := by
  rw [← passes_iff]
  simp only [validateConfig, validateConfigConsistency, passes_bind, Bool.and_eq_true,
    passes_validateAiConfig, passes_validateSyncConfig, passes_validateGeneralConfig,
    passes_validateFormatsConfig, passes_validateParallelConfig,
    passes_validateTranslationConfig, passes_refuseIf, Bool.not_eq_true', decide_eq_false_iff_not,
    not_and]
  constructor
  · rintro ⟨⟨⟨hprovider, hkey, hmodel, htemperature, hendpoint⟩, hretry, htimeout⟩,
      ⟨hmethod, hoffset, hsensitivity, hpadding, hduration⟩, ⟨hjobs, htask, hidle⟩,
      ⟨houtput, hencoding, hconfidence⟩, ⟨hworkers, hqueue⟩, ⟨hbatch, hlanguage⟩, hempty⟩
    refine ⟨⟨hendpoint, hempty⟩, fun key => ?_⟩
    cases key with
    | _ => first | exact trivial | assumption
  · rintro ⟨⟨hendpoint, hempty⟩, hrule⟩
    exact ⟨⟨⟨hrule .aiProvider, hrule .aiApiKey, hrule .aiModel, hrule .aiTemperature, hendpoint⟩,
        hrule .aiRetryAttempts, hrule .aiRequestTimeoutSeconds⟩,
      ⟨hrule .syncDefaultMethod, hrule .syncMaxOffsetSeconds, hrule .syncVadSensitivity,
        hrule .syncVadPaddingChunks, hrule .syncVadMinSpeechDurationMs⟩,
      ⟨hrule .generalMaxConcurrentJobs, hrule .generalTaskTimeoutSeconds,
        hrule .generalWorkerIdleTimeoutSeconds⟩,
      ⟨hrule .formatsDefaultOutput, hrule .formatsDefaultEncoding,
        hrule .formatsEncodingDetectionConfidence⟩,
      ⟨hrule .parallelMaxWorkers, hrule .parallelTaskQueueSize⟩,
      ⟨hrule .translationBatchSize, hrule .translationDefaultTargetLanguage⟩, hempty⟩

/-! ## A setting that is put -/

/-- **A value that fits into a configuration**: it keeps the rule of its section, the
other settings keep theirs, and with it in its place the provider keeps its own. -/
structure Key.Fits (urlScheme : Text → Option Text) (key : Key) (v : key.kind.Value)
    (old : Config) : Prop where
  own : key.SectionRule v
  others : ∀ other ≠ key, other.SectionRule (other.get old)
  provider : ProviderRule urlScheme (key.put v old).ai

/-- **What the sections let through with a setting put into it.** -/
theorem validateConfig_put_iff {key : Key} {v : key.kind.Value} {old : Config} :
    validateConfig urlScheme (key.put v old) = .ok () ↔ key.Fits urlScheme v old := by
  rw [validateConfig_eq_ok_iff]
  constructor
  · rintro ⟨hprovider, hrule⟩
    refine ⟨?_, fun other hother => ?_, hprovider⟩
    · rw [← key.get_put v old]
      exact hrule key
    · rw [← Key.get_put_of_ne hother v old]
      exact hrule other
  · rintro ⟨hown, hothers, hprovider⟩
    refine ⟨hprovider, fun other => ?_⟩
    by_cases hother : other = key
    · subst hother
      rwa [Key.get_put]
    · rw [Key.get_put_of_ne hother]
      exact hothers other hother

/-- The settings that the provider's rule looks at. -/
def providerKeys : List Key := [.aiProvider, .aiApiKey, .aiBaseUrl, .aiMaxTokens, .aiApiVersion]

/-- Any other setting has no part in what is asked of the provider. -/
theorem providerRule_put_iff {key : Key} {v : key.kind.Value} {old : Config}
    (h : key ∉ providerKeys) :
    ProviderRule urlScheme (key.put v old).ai ↔ ProviderRule urlScheme old.ai := by
  cases key with
  | aiProvider | aiApiKey | aiBaseUrl | aiMaxTokens | aiApiVersion => exact absurd (by decide) h
  | _ =>
    constructor
    · rintro ⟨⟨hkey, htokens, hversion, hhosted, hlocal⟩, hempty⟩
      exact ⟨⟨hkey, htokens, hversion, hhosted, hlocal⟩, hempty⟩
    · rintro ⟨⟨hkey, htokens, hversion, hhosted, hlocal⟩, hempty⟩
      exact ⟨⟨hkey, htokens, hversion, hhosted, hlocal⟩, hempty⟩

end SubxCore.Configuration
