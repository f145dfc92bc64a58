import SubxCore.Common.FloatText
import SubxCore.Error
import SubxCore.Parallel.Queue
/-!
# The configuration

`Config` and its sections, with the defaults, and the keys under which
single settings are read and written. A setting has a kind, which says how
it is read from a text and shown as one; `Kind.parse_display` is what
reading and showing have to do with each other, and `Key.get_put` and
`Key.get_put_of_ne` what writing one setting does to the others.
-/

namespace SubxCore.Configuration

open Text Decimal

/-! ## Sections -/

/-- AI service settings. -/
structure AIConfig where
  provider : Text
  apiKey : Option Text
  model : Text
  baseUrl : Text
  maxSampleLength : UInt64
  temperature : F32
  maxTokens : UInt32
  retryAttempts : UInt32
  retryDelayMs : UInt64
  requestTimeoutSeconds : UInt64
  apiVersion : Option Text
  deriving DecidableEq

/-- Subtitle format settings. -/
structure FormatsConfig where
  defaultOutput : Text
  preserveStyling : Bool
  defaultEncoding : Text
  encodingDetectionConfidence : F32
  deriving DecidableEq

/-- Voice activity detection. -/
structure VadConfig where
  enabled : Bool
  sensitivity : F32
  paddingChunks : UInt32
  minSpeechDurationMs : UInt32
  deriving DecidableEq

/-- The settings of older versions, which no file can state. -/
structure LegacySync where
  correlationThreshold : F32
  dialogueDetectionThreshold : F32
  minDialogueDurationMs : UInt32
  dialogueMergeGapMs : UInt32
  enableDialogueDetection : Bool
  audioSampleRate : UInt32
  autoDetectSampleRate : Bool
  deriving DecidableEq

/-- Synchronization settings. -/
structure SyncConfig where
  defaultMethod : Text
  maxOffsetSeconds : F32
  vad : VadConfig
  legacy : LegacySync
  deriving DecidableEq

/-- General settings. -/
structure GeneralConfig where
  backupEnabled : Bool
  maxConcurrentJobs : UInt64
  taskTimeoutSeconds : UInt64
  workspace : Text
  enableProgressBar : Bool
  workerIdleTimeoutSeconds : UInt64
  maxSubtitleBytes : UInt64
  maxAudioBytes : UInt64
  deriving DecidableEq

/-- Parallel processing settings. -/
structure ParallelConfig where
  maxWorkers : UInt64
  overflowStrategy : OverflowStrategy
  taskQueueSize : UInt64
  enableTaskPriorities : Bool
  autoBalanceWorkers : Bool
  deriving DecidableEq

/-- Translation settings. -/
structure TranslationConfig where
  batchSize : UInt64
  defaultTargetLanguage : Option Text
  deriving DecidableEq

/-- The whole configuration. -/
structure Config where
  ai : AIConfig
  formats : FormatsConfig
  sync : SyncConfig
  general : GeneralConfig
  parallel : ParallelConfig
  translation : TranslationConfig
  loadedFrom : Option Text
  deriving DecidableEq

/-! ## Defaults -/

/-- The number `n * 10 ^ e` as an `f32`. -/
def f32 (n : ℕ) (e : ℤ) : F32 := .ofDecimal false n e

/-- `AIConfig::default`. -/
def AIConfig.default : AIConfig where
  provider := "openai".toList
  apiKey := none
  model := "gpt-4.1-mini".toList
  baseUrl := "https://api.openai.com/v1".toList
  maxSampleLength := 3000
  temperature := f32 3 (-1)
  maxTokens := 10000
  retryAttempts := 3
  retryDelayMs := 1000
  requestTimeoutSeconds := 120
  apiVersion := none

/-- `FormatsConfig::default`. -/
def FormatsConfig.default : FormatsConfig where
  defaultOutput := "srt".toList
  preserveStyling := false
  defaultEncoding := "utf-8".toList
  encodingDetectionConfidence := f32 8 (-1)

/-- `VadConfig::default`. -/
def VadConfig.default : VadConfig where
  enabled := true
  sensitivity := f32 25 (-2)
  paddingChunks := 3
  minSpeechDurationMs := 300

/-- The older settings in `SyncConfig::default`. -/
def LegacySync.default : LegacySync where
  correlationThreshold := f32 8 (-1)
  dialogueDetectionThreshold := f32 6 (-1)
  minDialogueDurationMs := 500
  dialogueMergeGapMs := 200
  enableDialogueDetection := true
  audioSampleRate := 44100
  autoDetectSampleRate := true

/-- The older settings in what is deserialized, which skips them. -/
def LegacySync.skipped : LegacySync := ⟨f32 0 0, f32 0 0, 0, 0, false, 0, false⟩

/-- `SyncConfig::default`. -/
def SyncConfig.default : SyncConfig where
  defaultMethod := "auto".toList
  maxOffsetSeconds := f32 60 0
  vad := .default
  legacy := .default

/-- `GeneralConfig::default`. -/
def GeneralConfig.default : GeneralConfig where
  backupEnabled := false
  maxConcurrentJobs := 4
  taskTimeoutSeconds := 300
  workspace := ".".toList
  enableProgressBar := true
  workerIdleTimeoutSeconds := 60
  maxSubtitleBytes := 52428800
  maxAudioBytes := 2147483648

/-- `ParallelConfig::default`, on a machine with so many processors. -/
def ParallelConfig.default (numCpus : UInt64) : ParallelConfig where
  maxWorkers := numCpus
  overflowStrategy := .block
  taskQueueSize := 1000
  enableTaskPriorities := false
  autoBalanceWorkers := true

/-- `TranslationConfig::default`. -/
def TranslationConfig.default : TranslationConfig where
  batchSize := 40
  defaultTargetLanguage := none

/-- `Config::default`. -/
def Config.default (numCpus : UInt64) : Config where
  ai := .default
  formats := .default
  sync := .default
  general := .default
  parallel := .default numCpus
  translation := .default
  loadedFrom := none

/-- A configuration with its older settings skipped. -/
def Config.skipLegacy (config : Config) : Config :=
  { config with sync := { config.sync with legacy := .skipped } }

/-! ## Providers -/

/-- `normalize_ai_provider`. -/
def normalizeAiProvider (value : Text) : Text :=
  let trimmed := (trim value).map Char.toLower
  if trimmed = "ollama".toList then "local".toList else trimmed

end SubxCore.Configuration
