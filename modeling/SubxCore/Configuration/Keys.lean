import SubxCore.Configuration.Validation
/-!
# Keys

The keys under which single settings are read and written, and what each
stands for. A setting has a kind, which says how its value is read from a
text and shown as one; what is read is shown as a text that is read the
same (`Kind.parse_display`). `Key.get_put` and `Key.get_put_of_ne` say what
writing one setting does to all of them.
-/

namespace SubxCore.Configuration

open Text Decimal

/-! ## Kinds -/

/-- How a setting is read and shown. -/
inductive Kind
  | provider
  | text
  | optional
  | flag
  | u32
  | u64
  | float
  | strategy
  deriving DecidableEq

namespace Kind

/-- The values of a kind. -/
abbrev Value : Kind → Type
  | provider => Text
  | text => Text
  | optional => Option Text
  | flag => Bool
  | u32 => UInt32
  | u64 => UInt64
  | float => F32
  | strategy => OverflowStrategy

/-- `str::parse::<u32>`. -/
def parseU32 (s : Text) : Option UInt32 := (parseUnsigned u32Max s).toOption.map UInt32.ofNat

/-- `str::parse::<u64>`. -/
def parseU64 (s : Text) : Option UInt64 := (parseUnsigned u64Max s).toOption.map UInt64.ofNat

/-- `str::parse::<f32>`. -/
def parseF32 (s : Text) : Option F32 := BinaryFloat.parse binary32 s

/-- The strategies that have a name among the settings. -/
def parseStrategy (s : Text) : Option OverflowStrategy :=
  if s = "Block".toList then some .block
  else if s = "Drop".toList then some .drop
  else if s = "Expand".toList then some .expand
  else none

/-- `{:?}` of a strategy. -/
def shownStrategy : OverflowStrategy → Text
  | .block => "Block".toList
  | .drop => "Drop".toList
  | .expand => "Expand".toList
  | .dropOldest => "DropOldest".toList
  | .reject => "Reject".toList

/-- `{}` of a flag. -/
def shownFlag (b : Bool) : Text := if b then "true".toList else "false".toList

/-- What a text says, read as a kind. -/
def parse : (kind : Kind) → Text → Option kind.Value
  | provider, s => some (normalizeAiProvider s)
  | text, s => some s
  | optional, s => some (if s = [] then none else some s)
  | flag, s => (parseBool s).toOption
  | u32, s => parseU32 s
  | u64, s => parseU64 s
  | float, s => parseF32 s
  | strategy, s => parseStrategy s

/-- A value as a text. -/
def display : (kind : Kind) → kind.Value → Text
  | provider, value => value
  | text, value => value
  | optional, value => value.getD []
  | flag, value => shownFlag value
  | u32, value => shown32 value
  | u64, value => shown64 value
  | float, value => value.display
  | strategy, value => shownStrategy value

/-! ## Reading what is shown -/

theorem parseU32_shown32 (n : UInt32) : parseU32 (shown32 n) = some n := by
  have h : n.toNat ≤ u32Max := Nat.le_of_lt_succ n.toNat_lt
  simp [parseU32, shown32, parseUnsigned_decimal h, Except.toOption]

theorem parseU64_shown64 (n : UInt64) : parseU64 (shown64 n) = some n := by
  have h : n.toNat ≤ u64Max := Nat.le_of_lt_succ n.toNat_lt
  simp [parseU64, shown64, parseUnsigned_decimal h, Except.toOption]

theorem parseF32_display (x : F32) : parseF32 x.display = some x := BinaryFloat.parse_display x

theorem parseBool_shownFlag (b : Bool) : parseBool (shownFlag b) = .ok b := by
  cases b <;> rfl

theorem shownStrategy_of_parseStrategy {s : Text} {x : OverflowStrategy}
    (h : parseStrategy s = some x) : shownStrategy x = s := by
  unfold parseStrategy at h
  split_ifs at h with hs hs' hs'' <;> obtain rfl := Option.some.inj h <;> exact Eq.symm ‹_›

end Kind

/-! ## Canonical providers -/

/-- A canonical provider is its own canonical form. -/
theorem normalizeAiProvider_idem (value : Text) :
    normalizeAiProvider (normalizeAiProvider value) = normalizeAiProvider value := by
  have hlower : ((trim value).map Char.toLower).map Char.toLower =
      (trim value).map Char.toLower := by
    rw [List.map_map]
    exact List.map_congr_left fun c _ => toLower_toLower c
  by_cases h : (trim value).map Char.toLower = "ollama".toList
  · rw [show normalizeAiProvider value = "local".toList by simp only [normalizeAiProvider, h, if_true]]
    decide
  · have hvalue : normalizeAiProvider value = (trim value).map Char.toLower := by
      simp only [normalizeAiProvider, if_neg h]
    rw [hvalue]
    simp only [normalizeAiProvider, trim_map_toLower_trim, hlower, if_neg h]

/-- **What is read of a text is shown as one that is read the same.** -/
theorem Kind.parse_display {kind : Kind} {s : Text} {value : kind.Value}
    (h : kind.parse s = some value) : kind.parse (kind.display value) = some value := by
  cases kind with
  | provider =>
    obtain rfl := Option.some.inj h
    exact congrArg some (normalizeAiProvider_idem s)
  | text => rfl
  | optional =>
    obtain rfl := Option.some.inj h
    by_cases hs : s = [] <;> simp [parse, display, hs]
  | flag => simp only [parse, display, parseBool_shownFlag, Except.toOption]
  | u32 => exact parseU32_shown32 value
  | u64 => exact parseU64_shown64 value
  | float => exact parseF32_display value
  | strategy => rw [show display .strategy value = s from shownStrategy_of_parseStrategy h, h]

/-! ## The keys -/

/-- The keys of single settings. -/
inductive Key
  | aiProvider
  | aiModel
  | aiApiKey
  | aiBaseUrl
  | aiTemperature
  | aiMaxTokens
  | aiMaxSampleLength
  | aiRetryAttempts
  | aiRetryDelayMs
  | aiRequestTimeoutSeconds
  | aiApiVersion
  | syncDefaultMethod
  | syncMaxOffsetSeconds
  | syncVadEnabled
  | syncVadSensitivity
  | syncVadPaddingChunks
  | syncVadMinSpeechDurationMs
  | formatsDefaultOutput
  | formatsPreserveStyling
  | formatsDefaultEncoding
  | formatsEncodingDetectionConfidence
  | generalBackupEnabled
  | generalMaxConcurrentJobs
  | generalTaskTimeoutSeconds
  | generalEnableProgressBar
  | generalWorkerIdleTimeoutSeconds
  | generalMaxSubtitleBytes
  | generalMaxAudioBytes
  | parallelMaxWorkers
  | parallelTaskQueueSize
  | parallelEnableTaskPriorities
  | parallelAutoBalanceWorkers
  | parallelOverflowStrategy
  | translationBatchSize
  | translationDefaultTargetLanguage
  deriving DecidableEq

namespace Key

/-- A key as it is written. -/
def name : Key → Text
  | aiProvider => "ai.provider".toList
  | aiModel => "ai.model".toList
  | aiApiKey => "ai.api_key".toList
  | aiBaseUrl => "ai.base_url".toList
  | aiTemperature => "ai.temperature".toList
  | aiMaxTokens => "ai.max_tokens".toList
  | aiMaxSampleLength => "ai.max_sample_length".toList
  | aiRetryAttempts => "ai.retry_attempts".toList
  | aiRetryDelayMs => "ai.retry_delay_ms".toList
  | aiRequestTimeoutSeconds => "ai.request_timeout_seconds".toList
  | aiApiVersion => "ai.api_version".toList
  | syncDefaultMethod => "sync.default_method".toList
  | syncMaxOffsetSeconds => "sync.max_offset_seconds".toList
  | syncVadEnabled => "sync.vad.enabled".toList
  | syncVadSensitivity => "sync.vad.sensitivity".toList
  | syncVadPaddingChunks => "sync.vad.padding_chunks".toList
  | syncVadMinSpeechDurationMs => "sync.vad.min_speech_duration_ms".toList
  | formatsDefaultOutput => "formats.default_output".toList
  | formatsPreserveStyling => "formats.preserve_styling".toList
  | formatsDefaultEncoding => "formats.default_encoding".toList
  | formatsEncodingDetectionConfidence => "formats.encoding_detection_confidence".toList
  | generalBackupEnabled => "general.backup_enabled".toList
  | generalMaxConcurrentJobs => "general.max_concurrent_jobs".toList
  | generalTaskTimeoutSeconds => "general.task_timeout_seconds".toList
  | generalEnableProgressBar => "general.enable_progress_bar".toList
  | generalWorkerIdleTimeoutSeconds => "general.worker_idle_timeout_seconds".toList
  | generalMaxSubtitleBytes => "general.max_subtitle_bytes".toList
  | generalMaxAudioBytes => "general.max_audio_bytes".toList
  | parallelMaxWorkers => "parallel.max_workers".toList
  | parallelTaskQueueSize => "parallel.task_queue_size".toList
  | parallelEnableTaskPriorities => "parallel.enable_task_priorities".toList
  | parallelAutoBalanceWorkers => "parallel.auto_balance_workers".toList
  | parallelOverflowStrategy => "parallel.overflow_strategy".toList
  | translationBatchSize => "translation.batch_size".toList
  | translationDefaultTargetLanguage => "translation.default_target_language".toList

/-- All the keys, section by section. -/
def all : List Key :=
  [aiProvider, aiModel, aiApiKey, aiBaseUrl, aiTemperature, aiMaxTokens, aiMaxSampleLength,
    aiRetryAttempts, aiRetryDelayMs, aiRequestTimeoutSeconds, aiApiVersion, syncDefaultMethod,
    syncMaxOffsetSeconds, syncVadEnabled, syncVadSensitivity, syncVadPaddingChunks,
    syncVadMinSpeechDurationMs, formatsDefaultOutput, formatsPreserveStyling,
    formatsDefaultEncoding, formatsEncodingDetectionConfidence, generalBackupEnabled,
    generalMaxConcurrentJobs, generalTaskTimeoutSeconds, generalEnableProgressBar,
    generalWorkerIdleTimeoutSeconds, generalMaxSubtitleBytes, generalMaxAudioBytes,
    parallelMaxWorkers, parallelTaskQueueSize, parallelEnableTaskPriorities,
    parallelAutoBalanceWorkers, parallelOverflowStrategy, translationBatchSize,
    translationDefaultTargetLanguage]

/-- The key that is written so. -/
def ofName (s : Text) : Option Key := all.find? fun key => key.name = s

/-- The kind of the setting. -/
abbrev kind : Key → Kind
  | aiProvider => .provider
  | aiModel | aiBaseUrl | syncDefaultMethod | formatsDefaultOutput | formatsDefaultEncoding => .text
  | aiApiKey | aiApiVersion | translationDefaultTargetLanguage => .optional
  | aiTemperature | syncMaxOffsetSeconds | syncVadSensitivity
  | formatsEncodingDetectionConfidence => .float
  | aiMaxTokens | aiRetryAttempts | syncVadPaddingChunks | syncVadMinSpeechDurationMs => .u32
  | aiMaxSampleLength | aiRetryDelayMs | aiRequestTimeoutSeconds | generalMaxConcurrentJobs
  | generalTaskTimeoutSeconds | generalWorkerIdleTimeoutSeconds | generalMaxSubtitleBytes
  | generalMaxAudioBytes | parallelMaxWorkers | parallelTaskQueueSize | translationBatchSize => .u64
  | syncVadEnabled | formatsPreserveStyling | generalBackupEnabled | generalEnableProgressBar
  | parallelEnableTaskPriorities | parallelAutoBalanceWorkers => .flag
  | parallelOverflowStrategy => .strategy

/-- The setting of a key. -/
def get : (key : Key) → Config → key.kind.Value
  | aiProvider, c => c.ai.provider
  | aiModel, c => c.ai.model
  | aiApiKey, c => c.ai.apiKey
  | aiBaseUrl, c => c.ai.baseUrl
  | aiTemperature, c => c.ai.temperature
  | aiMaxTokens, c => c.ai.maxTokens
  | aiMaxSampleLength, c => c.ai.maxSampleLength
  | aiRetryAttempts, c => c.ai.retryAttempts
  | aiRetryDelayMs, c => c.ai.retryDelayMs
  | aiRequestTimeoutSeconds, c => c.ai.requestTimeoutSeconds
  | aiApiVersion, c => c.ai.apiVersion
  | syncDefaultMethod, c => c.sync.defaultMethod
  | syncMaxOffsetSeconds, c => c.sync.maxOffsetSeconds
  | syncVadEnabled, c => c.sync.vad.enabled
  | syncVadSensitivity, c => c.sync.vad.sensitivity
  | syncVadPaddingChunks, c => c.sync.vad.paddingChunks
  | syncVadMinSpeechDurationMs, c => c.sync.vad.minSpeechDurationMs
  | formatsDefaultOutput, c => c.formats.defaultOutput
  | formatsPreserveStyling, c => c.formats.preserveStyling
  | formatsDefaultEncoding, c => c.formats.defaultEncoding
  | formatsEncodingDetectionConfidence, c => c.formats.encodingDetectionConfidence
  | generalBackupEnabled, c => c.general.backupEnabled
  | generalMaxConcurrentJobs, c => c.general.maxConcurrentJobs
  | generalTaskTimeoutSeconds, c => c.general.taskTimeoutSeconds
  | generalEnableProgressBar, c => c.general.enableProgressBar
  | generalWorkerIdleTimeoutSeconds, c => c.general.workerIdleTimeoutSeconds
  | generalMaxSubtitleBytes, c => c.general.maxSubtitleBytes
  | generalMaxAudioBytes, c => c.general.maxAudioBytes
  | parallelMaxWorkers, c => c.parallel.maxWorkers
  | parallelTaskQueueSize, c => c.parallel.taskQueueSize
  | parallelEnableTaskPriorities, c => c.parallel.enableTaskPriorities
  | parallelAutoBalanceWorkers, c => c.parallel.autoBalanceWorkers
  | parallelOverflowStrategy, c => c.parallel.overflowStrategy
  | translationBatchSize, c => c.translation.batchSize
  | translationDefaultTargetLanguage, c => c.translation.defaultTargetLanguage

/-- A configuration with one setting changed. -/
def put : (key : Key) → key.kind.Value → Config → Config
  | aiProvider, v, c => { c with ai.provider := v }
  | aiModel, v, c => { c with ai.model := v }
  | aiApiKey, v, c => { c with ai.apiKey := v }
  | aiBaseUrl, v, c => { c with ai.baseUrl := v }
  | aiTemperature, v, c => { c with ai.temperature := v }
  | aiMaxTokens, v, c => { c with ai.maxTokens := v }
  | aiMaxSampleLength, v, c => { c with ai.maxSampleLength := v }
  | aiRetryAttempts, v, c => { c with ai.retryAttempts := v }
  | aiRetryDelayMs, v, c => { c with ai.retryDelayMs := v }
  | aiRequestTimeoutSeconds, v, c => { c with ai.requestTimeoutSeconds := v }
  | aiApiVersion, v, c => { c with ai.apiVersion := v }
  | syncDefaultMethod, v, c => { c with sync.defaultMethod := v }
  | syncMaxOffsetSeconds, v, c => { c with sync.maxOffsetSeconds := v }
  | syncVadEnabled, v, c => { c with sync.vad.enabled := v }
  | syncVadSensitivity, v, c => { c with sync.vad.sensitivity := v }
  | syncVadPaddingChunks, v, c => { c with sync.vad.paddingChunks := v }
  | syncVadMinSpeechDurationMs, v, c => { c with sync.vad.minSpeechDurationMs := v }
  | formatsDefaultOutput, v, c => { c with formats.defaultOutput := v }
  | formatsPreserveStyling, v, c => { c with formats.preserveStyling := v }
  | formatsDefaultEncoding, v, c => { c with formats.defaultEncoding := v }
  | formatsEncodingDetectionConfidence, v, c =>
    { c with formats.encodingDetectionConfidence := v }
  | generalBackupEnabled, v, c => { c with general.backupEnabled := v }
  | generalMaxConcurrentJobs, v, c => { c with general.maxConcurrentJobs := v }
  | generalTaskTimeoutSeconds, v, c => { c with general.taskTimeoutSeconds := v }
  | generalEnableProgressBar, v, c => { c with general.enableProgressBar := v }
  | generalWorkerIdleTimeoutSeconds, v, c => { c with general.workerIdleTimeoutSeconds := v }
  | generalMaxSubtitleBytes, v, c => { c with general.maxSubtitleBytes := v }
  | generalMaxAudioBytes, v, c => { c with general.maxAudioBytes := v }
  | parallelMaxWorkers, v, c => { c with parallel.maxWorkers := v }
  | parallelTaskQueueSize, v, c => { c with parallel.taskQueueSize := v }
  | parallelEnableTaskPriorities, v, c => { c with parallel.enableTaskPriorities := v }
  | parallelAutoBalanceWorkers, v, c => { c with parallel.autoBalanceWorkers := v }
  | parallelOverflowStrategy, v, c => { c with parallel.overflowStrategy := v }
  | translationBatchSize, v, c => { c with translation.batchSize := v }
  | translationDefaultTargetLanguage, v, c => { c with translation.defaultTargetLanguage := v }

theorem mem_all (key : Key) : key ∈ all := by cases key <;> decide

/-- A key is found under its name. -/
theorem ofName_name (key : Key) : ofName key.name = some key := by cases key <;> decide

theorem name_of_ofName {s : Text} {key : Key} (h : ofName s = some key) : key.name = s := by
  simpa using List.find?_some h

/-- A key is given by its name. -/
theorem eq_of_name {key key' : Key} (h : key.name = key'.name) : key = key' := by
  rw [← Option.some_inj, ← ofName_name key, h, ofName_name]

/-- What has been written is read. -/
theorem get_put (key : Key) (value : key.kind.Value) (c : Config) :
    key.get (key.put value c) = value := by
  cases key <;> rfl

/-- **Writing one setting leaves the others.** -/
theorem get_put_of_ne {key key' : Key} (h : key' ≠ key) (value : key.kind.Value) (c : Config) :
    key'.get (key.put value c) = key'.get c := by
  cases key <;> cases key' <;> first | rfl | exact absurd rfl h

end Key

end SubxCore.Configuration
