import SubxCore.Configuration.FieldValidator
/-!
# Validation by section

`validate_config`, which checks a configuration section by section and then
across sections. What it only logs is left out.
-/

namespace SubxCore.Configuration

open Text Decimal Kind

variable (urlScheme : Text → Option Text)

/-- `local_provider_hint`. -/
def localProviderHint : Text :=
  ("If you intended to call an OpenAI-compatible local or LAN endpoint, " ++
    "set `ai.provider = \"local\"` (or `ollama`) and configure `ai.base_url` " ++
    "to your endpoint.").toList

/-- `require_https_for_hosted_provider`. -/
def requireHttpsForHostedProvider (baseUrl provider : Text) : Check :=
  match urlScheme baseUrl with
  | none => .error (.config ("Invalid URL format: ".toList ++ baseUrl))
  | some scheme =>
    if scheme ≠ "https".toList then
      .error (.config ("ai.base_url uses unsupported scheme `".toList ++ scheme ++
        "://` for hosted provider `".toList ++ provider ++
        "`; hosted providers require HTTPS. ".toList ++ localProviderHint))
    else .ok ()

/-- The check of a key that may be missing or empty. -/
def validateOptionalKey (apiKey : Option Text) : Check :=
  match apiKey with
  | some key => if key ≠ [] then validateApiKey key else .ok ()
  | none => .ok ()

/-- The check of the key of OpenAI. -/
def validateOpenaiKey (apiKey : Option Text) : Check :=
  match apiKey with
  | some key =>
    if key ≠ [] then do
      validateApiKey key
      refuseIf (¬ "sk-".toList <+: key) "OpenAI API key must start with 'sk-'".toList
    else .ok ()
  | none => .ok ()

/-- The check of the version of Azure OpenAI. -/
def validateVersion (apiVersion : Option Text) : Check :=
  match apiVersion with
  | some version =>
    refuseIf (trim version = []) "Azure OpenAI api_version must not be empty".toList
  | none => .ok ()

/-- The check of a base URL that may be empty, for a hosted provider. -/
def validateHostedUrl (baseUrl provider : Text) : Check :=
  if baseUrl ≠ [] then do
    validateUrlFormat urlScheme baseUrl
    requireHttpsForHostedProvider urlScheme baseUrl provider
  else .ok ()

/-- The arm of a provider in `validate_ai_config`. -/
def validateProvider (ai : AIConfig) : Check :=
  let canonical := normalizeAiProvider ai.provider
  if canonical = "openai".toList then do
    validateOpenaiKey ai.apiKey
    validateAiModel ai.model
    validateTemperature ai.temperature
    validatePositiveNumber shown32 0 ai.maxTokens
    validateHostedUrl urlScheme ai.baseUrl "openai".toList
  else if canonical = "openrouter".toList then do
    validateOptionalKey ai.apiKey
    validateAiModel ai.model
    validateTemperature ai.temperature
    validatePositiveNumber shown32 0 ai.maxTokens
    validateHostedUrl urlScheme ai.baseUrl "openrouter".toList
  else if canonical = "anthropic".toList then do
    validateOptionalKey ai.apiKey
    validateAiModel ai.model
    validateTemperature ai.temperature
  else if canonical = "azure-openai".toList then do
    validateOptionalKey ai.apiKey
    validateAiModel ai.model
    validateTemperature ai.temperature
    validatePositiveNumber shown32 0 ai.maxTokens
    validateVersion ai.apiVersion
    validateHostedUrl urlScheme ai.baseUrl "azure-openai".toList
  else if canonical = "local".toList then do
    validateOptionalKey ai.apiKey
    refuseIf (trim ai.baseUrl = []) ("ai.base_url is required when ai.provider is `local` " ++
      "(e.g. http://localhost:11434/v1 for Ollama, " ++
      "http://localhost:1234/v1 for LM Studio, " ++
      "http://localhost:8080/v1 for llama.cpp's llama-server)").toList
    validateUrlFormat urlScheme ai.baseUrl
    validateAiModel ai.model
    validateTemperature ai.temperature
    validatePositiveNumber shown32 0 ai.maxTokens
  else
    .error (.config ("Unsupported AI provider: ".toList ++ ai.provider ++
      ". Supported providers: openai, openrouter, anthropic, azure-openai, local".toList))

/-- `validate_ai_config`. -/
def validateAiConfig (ai : AIConfig) : Check := do
  validateNonEmptyString ai.provider "AI provider".toList
  validateProvider urlScheme ai
  validatePositiveNumber shown32 0 ai.retryAttempts
  refuseIf (ai.retryAttempts > 10) "Retry count cannot exceed 10 times".toList
  orElse (range64 10 600 ai.requestTimeoutSeconds)
    "Request timeout must be between 10 and 600 seconds".toList

/-- `VadConfig::validate`. -/
def VadConfig.validate (vad : VadConfig) : Check := do
  refuseIf (¬ (f32 0 0 ≤ vad.sensitivity ∧ vad.sensitivity ≤ f32 1 0))
    "VAD sensitivity must be between 0.0 and 1.0".toList
  refuseIf (vad.paddingChunks > 10) "VAD padding_chunks must not exceed 10".toList
  refuseIf (vad.minSpeechDurationMs > 5000)
    "VAD min_speech_duration_ms must not exceed 5000ms".toList

/-- `validate_sync_config`. -/
def validateSyncConfig (sync : SyncConfig) : Check := do
  validateEnum sync.defaultMethod (["vad", "auto", "manual"].map String.toList)
  validatePositiveNumber BinaryFloat.display (f32 0 0) sync.maxOffsetSeconds
  refuseIf (sync.maxOffsetSeconds > f32 3600 0)
    ("sync.max_offset_seconds should not exceed 3600 seconds (1 hour). " ++
      "If a larger value is needed, please verify the sync requirements are reasonable.").toList
  sync.vad.validate

/-- `validate_general_config`. -/
def validateGeneralConfig (general : GeneralConfig) : Check := do
  validatePositiveNumber shown64 0 general.maxConcurrentJobs
  refuseIf (general.maxConcurrentJobs > 64) "Maximum concurrent jobs should not exceed 64".toList
  orElse (range64 30 3600 general.taskTimeoutSeconds)
    "Task timeout must be between 30 and 3600 seconds".toList
  orElse (range64 10 3600 general.workerIdleTimeoutSeconds)
    "Worker idle timeout must be between 10 and 3600 seconds".toList

/-- `validate_formats_config`. -/
def validateFormatsConfig (formats : FormatsConfig) : Check := do
  validateNonEmptyString formats.defaultOutput "Default output format".toList
  validateEnum formats.defaultOutput (["srt", "ass", "vtt", "webvtt"].map String.toList)
  validateNonEmptyString formats.defaultEncoding "Default encoding".toList
  validateEnum formats.defaultEncoding (["utf-8", "gbk", "big5", "shift_jis"].map String.toList)
  orElse (rangeF32 (f32 0 0) (f32 1 0) formats.encodingDetectionConfidence)
    "Encoding detection confidence must be between 0.0 and 1.0".toList

/-- `validate_parallel_config`. -/
def validateParallelConfig (parallel : ParallelConfig) : Check := do
  validatePositiveNumber shown64 0 parallel.maxWorkers
  refuseIf (parallel.maxWorkers > 64) "Maximum workers should not exceed 64".toList
  validatePositiveNumber shown64 0 parallel.taskQueueSize
  refuseIf (parallel.taskQueueSize < 100) "Task queue size should be at least 100".toList

/-- The check of a language that may be missing. -/
def validateLanguage (lang : Option Text) : Check :=
  match lang with
  | some lang =>
    refuseIf (trim lang = []) "translation.default_target_language must not be empty".toList
  | none => .ok ()

/-- `validate_translation_config`. -/
def validateTranslationConfig (translation : TranslationConfig) : Check := do
  refuseIf (translation.batchSize = 0) "translation.batch_size must be greater than zero".toList
  refuseIf (translation.batchSize > 1000) "translation.batch_size should not exceed 1000".toList
  validateLanguage translation.defaultTargetLanguage

/-- `validate_config_consistency`. -/
def validateConfigConsistency (config : Config) : Check :=
  refuseIf (config.ai.provider = "openai".toList ∧ config.ai.apiKey = some [])
    "OpenAI provider is selected but API key is empty".toList

/-- `validate_config`. -/
def validateConfig (config : Config) : Check := do
  validateAiConfig urlScheme config.ai
  validateSyncConfig config.sync
  validateGeneralConfig config.general
  validateFormatsConfig config.formats
  validateParallelConfig config.parallel
  validateTranslationConfig config.translation
  validateConfigConsistency config

end SubxCore.Configuration
