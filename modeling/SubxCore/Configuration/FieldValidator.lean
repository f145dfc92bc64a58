import SubxCore.Configuration.Keys
/-!
# Validation by key

`validate_field`, which checks a text under a key, and
`validate_all_fields`, which checks every setting of a configuration as the
text it is shown as.
-/

namespace SubxCore.Configuration

open Text Decimal Kind

variable (urlScheme : Text → Option Text)

/-- A number that is read, or an error, and what is checked of it. -/
def checkParsed {α : Type} (parsed : Option α) (message : Text) (check : α → Check) : Check :=
  match parsed with
  | none => .error (.config message)
  | some value => check value

/-- `validate_range` of an unsigned number. -/
def range32 (min max value : UInt32) : Check := validateRange shown32 value min max

/-- `validate_range` of an unsigned number. -/
def range64 (min max value : UInt64) : Check := validateRange shown64 value min max

/-- `validate_range` of a floating-point number. -/
def rangeF32 (min max value : F32) : Check := validateRange BinaryFloat.display value min max

/-- The providers a key may be given. -/
def providerNames : List Text :=
  ["openai", "anthropic", "local", "ollama", "openrouter", "azure-openai"].map String.toList

/-- What `validate_field` does under a key. -/
def checkKey (key : Key) (value : Text) : Check :=
  match key with
  | .aiProvider => do
    validateNonEmptyString value "AI provider".toList
    validateEnum value providerNames
  | .aiModel => validateAiModel value
  | .aiApiKey => if value ≠ [] then validateApiKey value else .ok ()
  | .aiBaseUrl => validateUrlFormat urlScheme value
  | .aiTemperature =>
    checkParsed (parseF32 value) "Temperature must be a number".toList validateTemperature
  | .aiMaxTokens =>
    checkParsed (parseU32 value) "Max tokens must be a positive integer".toList
      (validatePositiveNumber shown32 0)
  | .aiMaxSampleLength =>
    checkParsed (parseU64 value) "Max sample length must be a positive integer".toList
      (range64 100 10000)
  | .aiRetryAttempts =>
    checkParsed (parseU32 value) "Retry attempts must be a positive integer".toList (range32 1 10)
  | .aiRetryDelayMs =>
    checkParsed (parseU64 value) "Retry delay must be a positive integer".toList
      (range64 100 30000)
  | .aiRequestTimeoutSeconds =>
    checkParsed (parseU64 value) "Request timeout must be a positive integer".toList
      (range64 10 600)
  | .aiApiVersion => validateNonEmptyString value "Azure OpenAI API version".toList
  | .syncDefaultMethod => validateEnum value (["auto", "vad", "manual"].map String.toList)
  | .syncMaxOffsetSeconds =>
    checkParsed (parseF32 value) "Max offset must be a number".toList
      (rangeF32 (f32 1 (-1)) (f32 3600 0))
  | .syncVadEnabled => (parseBool value).map fun _ => ()
  | .syncVadSensitivity =>
    checkParsed (parseF32 value) "VAD sensitivity must be a number".toList
      (rangeF32 (f32 0 0) (f32 1 0))
  | .syncVadPaddingChunks =>
    checkParsed (parseU32 value) "Padding chunks must be a non-negative integer".toList
      (range32 0 10)
  | .syncVadMinSpeechDurationMs =>
    checkParsed (parseU32 value) "Min speech duration must be a non-negative integer".toList
      fun _ => .ok ()
  | .formatsDefaultOutput =>
    validateEnum value (["srt", "ass", "vtt", "webvtt"].map String.toList)
  | .formatsPreserveStyling => (parseBool value).map fun _ => ()
  | .formatsDefaultEncoding =>
    validateEnum value (["utf-8", "gbk", "big5", "shift_jis"].map String.toList)
  | .formatsEncodingDetectionConfidence =>
    checkParsed (parseF32 value) "Encoding detection confidence must be a number".toList
      (rangeF32 (f32 0 0) (f32 1 0))
  | .generalBackupEnabled => (parseBool value).map fun _ => ()
  | .generalMaxConcurrentJobs =>
    checkParsed (parseU64 value) "Max concurrent jobs must be a positive integer".toList
      (range64 1 64)
  | .generalTaskTimeoutSeconds =>
    checkParsed (parseU64 value) "Task timeout must be a positive integer".toList
      (range64 30 3600)
  | .generalEnableProgressBar => (parseBool value).map fun _ => ()
  | .generalWorkerIdleTimeoutSeconds =>
    checkParsed (parseU64 value) "Worker idle timeout must be a positive integer".toList
      (range64 10 3600)
  | .generalMaxSubtitleBytes =>
    checkParsed (parseU64 value) "max_subtitle_bytes must be a positive integer".toList
      (range64 1024 1073741824)
  | .generalMaxAudioBytes =>
    checkParsed (parseU64 value) "max_audio_bytes must be a positive integer".toList
      (range64 1024 10737418240)
  | .parallelMaxWorkers =>
    checkParsed (parseU64 value) "Max workers must be a positive integer".toList (range64 1 64)
  | .parallelTaskQueueSize =>
    checkParsed (parseU64 value) "Task queue size must be a positive integer".toList
      (range64 100 10000)
  | .parallelEnableTaskPriorities => (parseBool value).map fun _ => ()
  | .parallelAutoBalanceWorkers => (parseBool value).map fun _ => ()
  | .parallelOverflowStrategy =>
    validateEnum value (["Block", "Drop", "Expand"].map String.toList)
  | .translationBatchSize =>
    checkParsed (parseU64 value) "Translation batch size must be a positive integer".toList
      (range64 1 1000)
  | .translationDefaultTargetLanguage =>
    if value ≠ [] then
      validateNonEmptyString value "translation.default_target_language".toList
    else .ok ()

/-- The error of a key that is none. -/
def unknownKey (key : Text) : SubXError :=
  .config ("Unknown configuration key: ".toList ++ key)

/-- `validate_field`. -/
def validateField (key value : Text) : Check :=
  match Key.ofName key with
  | some key => checkKey urlScheme key value
  | none => .error (unknownKey key)

/-- The settings that are checked of a configuration, in their order, each as the
text it is checked as; what is optional is checked when it is there. -/
def shownFields (config : Config) : List (Key × Option Text) :=
  let ai := config.ai
  let sync := config.sync
  let formats := config.formats
  let general := config.general
  let parallel := config.parallel
  let translation := config.translation
  [(.aiProvider, some ai.provider),
    (.aiModel, some ai.model),
    (.aiApiKey, ai.apiKey),
    (.aiBaseUrl, some ai.baseUrl),
    (.aiTemperature, some ai.temperature.display),
    (.aiMaxTokens, some (shown32 ai.maxTokens)),
    (.aiMaxSampleLength, some (shown64 ai.maxSampleLength)),
    (.aiRetryAttempts, some (shown32 ai.retryAttempts)),
    (.aiRetryDelayMs, some (shown64 ai.retryDelayMs)),
    (.aiRequestTimeoutSeconds, some (shown64 ai.requestTimeoutSeconds)),
    (.aiApiVersion, ai.apiVersion),
    (.syncDefaultMethod, some sync.defaultMethod),
    (.syncMaxOffsetSeconds, some sync.maxOffsetSeconds.display),
    (.syncVadEnabled, some (shownFlag sync.vad.enabled)),
    (.syncVadSensitivity, some sync.vad.sensitivity.display),
    (.syncVadPaddingChunks, some (shown32 sync.vad.paddingChunks)),
    (.syncVadMinSpeechDurationMs, some (shown32 sync.vad.minSpeechDurationMs)),
    (.formatsDefaultOutput, some formats.defaultOutput),
    (.formatsPreserveStyling, some (shownFlag formats.preserveStyling)),
    (.formatsDefaultEncoding, some formats.defaultEncoding),
    (.formatsEncodingDetectionConfidence, some formats.encodingDetectionConfidence.display),
    (.generalBackupEnabled, some (shownFlag general.backupEnabled)),
    (.generalMaxConcurrentJobs, some (shown64 general.maxConcurrentJobs)),
    (.generalTaskTimeoutSeconds, some (shown64 general.taskTimeoutSeconds)),
    (.generalEnableProgressBar, some (shownFlag general.enableProgressBar)),
    (.generalWorkerIdleTimeoutSeconds, some (shown64 general.workerIdleTimeoutSeconds)),
    (.generalMaxSubtitleBytes, some (shown64 general.maxSubtitleBytes)),
    (.generalMaxAudioBytes, some (shown64 general.maxAudioBytes)),
    (.parallelMaxWorkers, some (shown64 parallel.maxWorkers)),
    (.parallelTaskQueueSize, some (shown64 parallel.taskQueueSize)),
    (.parallelEnableTaskPriorities, some (shownFlag parallel.enableTaskPriorities)),
    (.parallelAutoBalanceWorkers, some (shownFlag parallel.autoBalanceWorkers)),
    (.parallelOverflowStrategy, some (shownStrategy parallel.overflowStrategy)),
    (.translationBatchSize, some (shown64 translation.batchSize)),
    (.translationDefaultTargetLanguage, translation.defaultTargetLanguage)]

/-- `validate_all_fields`. -/
def validateAllFields (config : Config) : Check :=
  (shownFields config).forM fun (key, value) =>
    match value with
    | some value => validateField urlScheme key.name value
    | none => .ok ()

end SubxCore.Configuration
