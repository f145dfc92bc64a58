import SubxCore.Configuration.Keys
/-!
# Reading a configuration from a document

What the derived `Deserialize` of `Config` and its sections does with a
document. The document, and how its values are read as single settings, is
the matter of the crate it comes from.
-/

namespace SubxCore.Configuration

/-- The values of a format's documents, and how they are read. -/
structure Format (V : Type) where
  /-- The fields of a table. -/
  entries : V → Option (Text → Option V)
  string : V → Option Text
  boolean : V → Option Bool
  unsigned32 : V → Option UInt32
  unsigned64 : V → Option UInt64
  float : V → Option F32
  strategy : V → Option OverflowStrategy
  path : V → Option Text
  /-- `as_str` of the value as one of JSON. -/
  asStr : V → Option Text

variable {V α : Type} (F : Format V)

/-- A field that has to be there. -/
def required (fields : Text → Option V) (name : String) (decode : V → Option α) : Option α :=
  (fields name.toList).bind decode

/-- A field that may be missing. -/
def optional (fields : Text → Option V) (name : String) (decode : V → Option α) :
    Option (Option α) :=
  match fields name.toList with
  | none => some none
  | some value => (decode value).map some

/-- `AIConfig` of a table. -/
def deserializeAi (value : V) : Option AIConfig := do
  let fields ← F.entries value
  let provider ← required fields "provider" F.string
  let apiKey ← optional fields "api_key" F.string
  let model ← required fields "model" F.string
  let baseUrl ← required fields "base_url" F.string
  let maxSampleLength ← required fields "max_sample_length" F.unsigned64
  let temperature ← required fields "temperature" F.float
  let maxTokens ← required fields "max_tokens" F.unsigned32
  let retryAttempts ← required fields "retry_attempts" F.unsigned32
  let retryDelayMs ← required fields "retry_delay_ms" F.unsigned64
  let requestTimeoutSeconds ← required fields "request_timeout_seconds" F.unsigned64
  let apiVersion ← optional fields "api_version" F.string
  return { provider, apiKey, model, baseUrl, maxSampleLength, temperature, maxTokens,
           retryAttempts, retryDelayMs, requestTimeoutSeconds, apiVersion }

/-- `FormatsConfig` of a table. -/
def deserializeFormats (value : V) : Option FormatsConfig := do
  let fields ← F.entries value
  let defaultOutput ← required fields "default_output" F.string
  let preserveStyling ← required fields "preserve_styling" F.boolean
  let defaultEncoding ← required fields "default_encoding" F.string
  let encodingDetectionConfidence ← required fields "encoding_detection_confidence" F.float
  return { defaultOutput, preserveStyling, defaultEncoding, encodingDetectionConfidence }

/-- `VadConfig` of a table. -/
def deserializeVad (value : V) : Option VadConfig := do
  let fields ← F.entries value
  let enabled ← required fields "enabled" F.boolean
  let sensitivity ← required fields "sensitivity" F.float
  let paddingChunks ← required fields "padding_chunks" F.unsigned32
  let minSpeechDurationMs ← required fields "min_speech_duration_ms" F.unsigned32
  return { enabled, sensitivity, paddingChunks, minSpeechDurationMs }

/-- `SyncConfig` of a table. -/
def deserializeSync (value : V) : Option SyncConfig := do
  let fields ← F.entries value
  let defaultMethod ← required fields "default_method" F.string
  let maxOffsetSeconds ← required fields "max_offset_seconds" F.float
  let vad ← required fields "vad" (deserializeVad F)
  return { defaultMethod, maxOffsetSeconds, vad, legacy := .skipped }

/-- `GeneralConfig` of a table. -/
def deserializeGeneral (value : V) : Option GeneralConfig := do
  let fields ← F.entries value
  let backupEnabled ← required fields "backup_enabled" F.boolean
  let maxConcurrentJobs ← required fields "max_concurrent_jobs" F.unsigned64
  let taskTimeoutSeconds ← required fields "task_timeout_seconds" F.unsigned64
  let workspace ← required fields "workspace" F.path
  let enableProgressBar ← required fields "enable_progress_bar" F.boolean
  let workerIdleTimeoutSeconds ← required fields "worker_idle_timeout_seconds" F.unsigned64
  let maxSubtitleBytes ← required fields "max_subtitle_bytes" F.unsigned64
  let maxAudioBytes ← required fields "max_audio_bytes" F.unsigned64
  return { backupEnabled, maxConcurrentJobs, taskTimeoutSeconds, workspace, enableProgressBar,
           workerIdleTimeoutSeconds, maxSubtitleBytes, maxAudioBytes }

/-- `ParallelConfig` of a table. -/
def deserializeParallel (value : V) : Option ParallelConfig := do
  let fields ← F.entries value
  let maxWorkers ← required fields "max_workers" F.unsigned64
  let overflowStrategy ← required fields "overflow_strategy" F.strategy
  let taskQueueSize ← required fields "task_queue_size" F.unsigned64
  let enableTaskPriorities ← required fields "enable_task_priorities" F.boolean
  let autoBalanceWorkers ← required fields "auto_balance_workers" F.boolean
  return { maxWorkers, overflowStrategy, taskQueueSize, enableTaskPriorities, autoBalanceWorkers }

/-- `TranslationConfig` of a table. -/
def deserializeTranslation (value : V) : Option TranslationConfig := do
  let fields ← F.entries value
  let batchSize ← required fields "batch_size" F.unsigned64
  let defaultTargetLanguage ← optional fields "default_target_language" F.string
  return { batchSize, defaultTargetLanguage }

/-- `Config` of a table. The section on translation may be missing as a whole. -/
def deserializeConfig (value : V) : Option Config := do
  let fields ← F.entries value
  let ai ← required fields "ai" (deserializeAi F)
  let formats ← required fields "formats" (deserializeFormats F)
  let sync ← required fields "sync" (deserializeSync F)
  let general ← required fields "general" (deserializeGeneral F)
  let parallel ← required fields "parallel" (deserializeParallel F)
  let translation ← optional fields "translation" (deserializeTranslation F)
  let loadedFrom ← optional fields "loaded_from" F.path
  return { ai, formats, sync, general, parallel, loadedFrom,
           translation := translation.getD .default }

end SubxCore.Configuration
