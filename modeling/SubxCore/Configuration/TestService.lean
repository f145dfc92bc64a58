import SubxCore.Configuration.SetAndGet
/-!
# The configuration service for tests

`TestConfigService` holds a configuration in memory and sets values in it
by a table of its own, which checks a text and puts its value in one go.
`setKey_eq_ok_iff` says which texts that table takes, and as what.
-/

namespace SubxCore.Configuration

open Text Decimal Kind Program

/-! ## Texts in a range -/

/-- A number that is read of a text, in a range, or an error. -/
def validateParsedRange {α : Type} [LT α] [DecidableLT α] (noun : String)
    (parse : Text → Option α) (shown : α → Text) (value : Text) (min max : α) :
    Except SubXError α :=
  match parse value with
  | none => .error (.config ("Invalid ".toList ++ noun.toList ++ " value: ".toList ++ value))
  | some parsed =>
    if parsed < min ∨ max < parsed then
      .error (.config ("Value ".toList ++ shown parsed ++ " is out of range [".toList ++
        shown min ++ ", ".toList ++ shown max ++ "]".toList))
    else .ok parsed

/-- `validate_float_range`. -/
def validateFloatRange (value : Text) (min max : F32) : Except SubXError F32 :=
  validateParsedRange "float" parseF32 BinaryFloat.display value min max

/-- `validate_uint_range`. -/
def validateUintRange (value : Text) (min max : UInt32) : Except SubXError UInt32 :=
  validateParsedRange "integer" parseU32 shown32 value min max

/-- `validate_u64_range`. -/
def validateU64Range (value : Text) (min max : UInt64) : Except SubXError UInt64 :=
  validateParsedRange "u64" parseU64 shown64 value min max

/-- `validate_usize_range`. -/
def validateUsizeRange (value : Text) (min max : UInt64) : Except SubXError UInt64 :=
  validateParsedRange "usize" parseU64 shown64 value min max

/-- The texts that `validate_url` takes for one. -/
def IsWebUrl (value : Text) : Prop :=
  "http://".toList <+: value ∨ "https://".toList <+: value

instance {value : Text} : Decidable (IsWebUrl value) := inferInstanceAs (Decidable (_ ∨ _))

/-- `validate_url`. -/
def validateUrl (value : Text) : Check :=
  refuseIf (¬ IsWebUrl value) ("Invalid URL format: ".toList ++ value ++
    ". Must start with http:// or https://".toList)

/-! ## The older keys -/

/-- The keys that only the service for tests has. -/
inductive LegacyKey
  | correlationThreshold
  | dialogueDetectionThreshold
  | minDialogueDurationMs
  | dialogueMergeGapMs
  | enableDialogueDetection
  | audioSampleRate
  | autoDetectSampleRate
  deriving DecidableEq

namespace LegacyKey

/-- A key as it is written. -/
def name : LegacyKey → Text
  | correlationThreshold => "sync.correlation_threshold".toList
  | dialogueDetectionThreshold => "sync.dialogue_detection_threshold".toList
  | minDialogueDurationMs => "sync.min_dialogue_duration_ms".toList
  | dialogueMergeGapMs => "sync.dialogue_merge_gap_ms".toList
  | enableDialogueDetection => "sync.enable_dialogue_detection".toList
  | audioSampleRate => "sync.audio_sample_rate".toList
  | autoDetectSampleRate => "sync.auto_detect_sample_rate".toList

/-- All of them. -/
def all : List LegacyKey :=
  [correlationThreshold, dialogueDetectionThreshold, minDialogueDurationMs, dialogueMergeGapMs,
    enableDialogueDetection, audioSampleRate, autoDetectSampleRate]

/-- The key that is written so. -/
def ofName (s : Text) : Option LegacyKey := all.find? fun key => key.name = s

/-- A key is found under its name. -/
theorem ofName_name (key : LegacyKey) : ofName key.name = some key := by cases key <;> decide

theorem name_of_ofName {s : Text} {key : LegacyKey} (h : ofName s = some key) : key.name = s := by
  simpa using List.find?_some h

/-- A key is given by its name. -/
theorem eq_of_name {key key' : LegacyKey} (h : key.name = key'.name) : key = key' := by
  rw [← Option.some_inj, ← ofName_name key, h, ofName_name]

/-- The other service does not know them. -/
theorem ofName_name_eq_none (key : LegacyKey) : Key.ofName key.name = none := by
  rw [Key.ofName, List.find?_eq_none]
  intro other _
  rw [decide_eq_true_iff]
  -- literals are told apart before they are taken apart
  cases key <;> cases other <;> exact fun h => absurd (String.toList_inj.1 h) (by decide)

/-- **The texts that are set under an older key.** -/
def Takes : LegacyKey → Text → Prop
  | correlationThreshold, value | dialogueDetectionThreshold, value =>
    ∃ v, parseF32 value = some v ∧ ¬ v < f32 0 0 ∧ ¬ f32 1 0 < v
  | minDialogueDurationMs, value => ∃ v, parseU32 value = some v ∧ 100 ≤ v ∧ v ≤ 5000
  | dialogueMergeGapMs, value => ∃ v, parseU32 value = some v ∧ 50 ≤ v ∧ v ≤ 2000
  | audioSampleRate, value => ∃ v, parseU32 value = some v ∧ 8000 ≤ v ∧ v ≤ 192000
  | enableDialogueDetection, value | autoDetectSampleRate, value =>
    ∃ b, (parseBool value).toOption = some b

end LegacyKey

/-! ## The table -/

namespace TestConfigService

/-- What `validate_and_set_value` does under a key. -/
def setKey (key : Key) (value : Text) (config : Config) : Except Halt Config :=
  match key with
  | .aiProvider => do
    orFail (validateEnum value providerNames)
    return { config with ai.provider := normalizeAiProvider value }
  | .aiApiKey =>
    if value ≠ [] then do
      orFail (validateApiKey value)
      return { config with ai.apiKey := some value }
    else return { config with ai.apiKey := none }
  | .aiModel => return { config with ai.model := value }
  | .aiBaseUrl => do
    orFail (validateUrl value)
    return { config with ai.baseUrl := value }
  | .aiMaxSampleLength => do
    let v ← orFail (validateUsizeRange value 100 10000)
    return { config with ai.maxSampleLength := v }
  | .aiTemperature => do
    let v ← orFail (validateFloatRange value (f32 0 0) (f32 1 0))
    return { config with ai.temperature := v }
  | .aiMaxTokens => do
    let v ← orFail (validateUintRange value 1 100000)
    return { config with ai.maxTokens := v }
  | .aiRetryAttempts => do
    let v ← orFail (validateUintRange value 1 10)
    return { config with ai.retryAttempts := v }
  | .aiRetryDelayMs => do
    let v ← orFail (validateU64Range value 100 30000)
    return { config with ai.retryDelayMs := v }
  | .aiRequestTimeoutSeconds => do
    let v ← orFail (validateU64Range value 10 600)
    return { config with ai.requestTimeoutSeconds := v }
  | .formatsDefaultOutput => do
    orFail (validateEnum value (["srt", "ass", "vtt", "webvtt"].map String.toList))
    return { config with formats.defaultOutput := value }
  | .formatsPreserveStyling => do
    let v ← orFail (parseBool value)
    return { config with formats.preserveStyling := v }
  | .formatsDefaultEncoding => do
    orFail (validateEnum value (["utf-8", "gbk", "big5", "shift_jis"].map String.toList))
    return { config with formats.defaultEncoding := value }
  | .formatsEncodingDetectionConfidence => do
    let v ← orFail (validateFloatRange value (f32 0 0) (f32 1 0))
    return { config with formats.encodingDetectionConfidence := v }
  | .syncMaxOffsetSeconds => do
    let v ← orFail (validateFloatRange value (f32 0 0) (f32 300 0))
    return { config with sync.maxOffsetSeconds := v }
  | .syncDefaultMethod => do
    orFail (validateEnum value (["auto", "vad"].map String.toList))
    return { config with sync.defaultMethod := value }
  | .syncVadEnabled => do
    let v ← orFail (parseBool value)
    return { config with sync.vad.enabled := v }
  | .syncVadSensitivity => do
    let v ← orFail (validateFloatRange value (f32 0 0) (f32 1 0))
    return { config with sync.vad.sensitivity := v }
  | .syncVadPaddingChunks => do
    let v ← orFail (validateUintRange value 0 4294967295)
    return { config with sync.vad.paddingChunks := v }
  | .syncVadMinSpeechDurationMs => do
    let v ← orFail (validateUintRange value 0 4294967295)
    return { config with sync.vad.minSpeechDurationMs := v }
  | .generalBackupEnabled => do
    let v ← orFail (parseBool value)
    return { config with general.backupEnabled := v }
  | .generalMaxConcurrentJobs => do
    let v ← orFail (validateUsizeRange value 1 64)
    return { config with general.maxConcurrentJobs := v }
  | .generalTaskTimeoutSeconds => do
    let v ← orFail (validateU64Range value 30 3600)
    return { config with general.taskTimeoutSeconds := v }
  | .generalEnableProgressBar => do
    let v ← orFail (parseBool value)
    return { config with general.enableProgressBar := v }
  | .generalWorkerIdleTimeoutSeconds => do
    let v ← orFail (validateU64Range value 10 3600)
    return { config with general.workerIdleTimeoutSeconds := v }
  | .generalMaxSubtitleBytes => do
    let v ← orFail (validateU64Range value 1024 1073741824)
    return { config with general.maxSubtitleBytes := v }
  | .generalMaxAudioBytes => do
    let v ← orFail (validateU64Range value 1024 10737418240)
    return { config with general.maxAudioBytes := v }
  | .parallelMaxWorkers => do
    let v ← orFail (validateUsizeRange value 1 64)
    return { config with parallel.maxWorkers := v }
  | .parallelTaskQueueSize => do
    let v ← orFail (validateUsizeRange value 100 10000)
    return { config with parallel.taskQueueSize := v }
  | .parallelEnableTaskPriorities => do
    let v ← orFail (parseBool value)
    return { config with parallel.enableTaskPriorities := v }
  | .parallelAutoBalanceWorkers => do
    let v ← orFail (parseBool value)
    return { config with parallel.autoBalanceWorkers := v }
  | .parallelOverflowStrategy => do
    orFail (validateEnum value (["Block", "Drop", "Expand"].map String.toList))
    let v ← unwrapped (parseStrategy value)
    return { config with parallel.overflowStrategy := v }
  -- these three have no arm in its table
  | .aiApiVersion | .translationBatchSize | .translationDefaultTargetLanguage =>
    .error (.failed (unknownKey key.name))

/-- What it does under an older key. -/
def setLegacyKey (key : LegacyKey) (value : Text) (config : Config) : Except Halt Config :=
  match key with
  | .correlationThreshold => do
    let v ← orFail (validateFloatRange value (f32 0 0) (f32 1 0))
    return { config with sync.legacy.correlationThreshold := v }
  | .dialogueDetectionThreshold => do
    let v ← orFail (validateFloatRange value (f32 0 0) (f32 1 0))
    return { config with sync.legacy.dialogueDetectionThreshold := v }
  | .minDialogueDurationMs => do
    let v ← orFail (validateUintRange value 100 5000)
    return { config with sync.legacy.minDialogueDurationMs := v }
  | .dialogueMergeGapMs => do
    let v ← orFail (validateUintRange value 50 2000)
    return { config with sync.legacy.dialogueMergeGapMs := v }
  | .enableDialogueDetection => do
    let v ← orFail (parseBool value)
    return { config with sync.legacy.enableDialogueDetection := v }
  | .audioSampleRate => do
    let v ← orFail (validateUintRange value 8000 192000)
    return { config with sync.legacy.audioSampleRate := v }
  | .autoDetectSampleRate => do
    let v ← orFail (parseBool value)
    return { config with sync.legacy.autoDetectSampleRate := v }

/-- `validate_and_set_value`. -/
def validateAndSetValue (config : Config) (key value : Text) : Except Halt Config :=
  match Key.ofName key with
  | some key => setKey key value config
  | none =>
    match LegacyKey.ofName key with
    | some key => setLegacyKey key value config
    | none => .error (.failed (unknownKey key))

/-- A program of the service, on the configuration it holds. -/
abbrev Task (α : Type) := Program Config Halt α

/-- `load_for_repair`. -/
def loadForRepair : Task Config := step fun config => (.ok config, config)

/-- The configuration that is held from now on. -/
def store (config : Config) : Task Unit := step fun _ => (.ok (), config)

/-- `set_config_value`. -/
def setConfigValue (key value : Text) : Task Unit := do
  let cfg ← loadForRepair
  let cfg ← Program.ofExcept (validateAndSetValue cfg key value)
  store cfg

/-! ## Which texts are set -/

/-- What is asked of a text under a key and of its value; under most keys it is what
the other service asks. -/
def Asks (urlScheme : Text → Option Text) : (key : Key) → Text → key.kind.Value → Prop
  | .aiProvider, value, _ => value ∈ providerNames
  | .aiModel, _, _ => True
  | .aiBaseUrl, value, _ => IsWebUrl value
  | .aiTemperature, _, v => ¬ v < f32 0 0 ∧ ¬ f32 1 0 < v
  | .aiMaxTokens, _, v => 1 ≤ v ∧ v ≤ 100000
  | .aiApiVersion, _, _ => False
  | .syncDefaultMethod, value, _ => value ∈ ["auto", "vad"].map String.toList
  | .syncMaxOffsetSeconds, _, v => ¬ v < f32 0 0 ∧ ¬ f32 300 0 < v
  | .syncVadPaddingChunks, _, _ => True
  | .translationBatchSize, _, _ => False
  | .translationDefaultTargetLanguage, _, _ => False
  | key, _, v => key.Accepts urlScheme v

/-- **The texts that are set under a key**, and the values they are set as. -/
def Takes (urlScheme : Text → Option Text) (key : Key) (value : Text) (v : key.kind.Value) : Prop :=
  key.kind.parse value = some v ∧ Asks urlScheme key value v

section Arms

variable {urlScheme : Text → Option Text} {config new : Config} {key : Key} {value : Text}

/-- A text that is checked and then set. -/
theorem checked_eq_ok {check : Check} {v : key.kind.Value} (hparse : key.kind.parse value = some v)
    (hset : setKey key value config = (do orFail check; return key.put v config))
    (hcheck : check.passes = true ↔ Asks urlScheme key value v) :
    setKey key value config = .ok new ↔
      ∃ w, Takes urlScheme key value w ∧ new = key.put w config := by
  simp only [Takes, hparse, Option.some.injEq, and_assoc, exists_eq_left', ← hcheck, hset]
  rcases check with e | ⟨⟨⟩⟩
  · exact iff_of_false (by rintro ⟨⟩) (by rintro ⟨⟨⟩, -⟩)
  · exact ⟨fun h => ⟨rfl, (Except.ok.inj h).symm⟩, fun h => congrArg Except.ok h.2.symm⟩

/-- A value that is read and then set. -/
theorem read_eq_ok {read : Except SubXError key.kind.Value}
    (hset : setKey key value config = (do let v ← orFail read; return key.put v config))
    (hread : ∀ v, read.toOption = some v ↔ Takes urlScheme key value v) :
    setKey key value config = .ok new ↔ ∃ v, Takes urlScheme key value v ∧ new = key.put v config := by
  rw [hset, orFail_map_eq_ok]
  exact exists_congr fun v => and_congr_left fun _ => hread v

theorem toOption_validateParsedRange {α : Type} [LT α] [DecidableLT α] {noun : String}
    {parse : Text → Option α} {shown : α → Text} {lo hi v : α} :
    (validateParsedRange noun parse shown value lo hi).toOption = some v ↔
      parse value = some v ∧ ¬ v < lo ∧ ¬ hi < v := by
  unfold validateParsedRange
  cases parse value with
  | none => exact iff_of_false (by rintro ⟨⟩) (by rintro ⟨⟨⟩, -⟩)
  | some w =>
    simp only [Option.some.injEq]
    split_ifs with h
    · refine iff_of_false (by rintro ⟨⟩) ?_
      rintro ⟨rfl, hlo, hhi⟩
      exact h.elim hlo hhi
    · rw [not_or] at h
      constructor
      · intro hw
        obtain rfl := Option.some.inj hw
        exact ⟨rfl, h⟩
      · rintro ⟨rfl, -⟩
        rfl

theorem toOption_range32 {lo hi v : UInt32} :
    (validateUintRange value lo hi).toOption = some v ↔
      parseU32 value = some v ∧ lo ≤ v ∧ v ≤ hi := by
  rw [validateUintRange, toOption_validateParsedRange, UInt32.not_lt, UInt32.not_lt]

theorem toOption_range64 {noun : String} {lo hi v : UInt64} :
    (validateParsedRange noun parseU64 shown64 value lo hi).toOption = some v ↔
      parseU64 value = some v ∧ lo ≤ v ∧ v ≤ hi := by
  rw [toOption_validateParsedRange, UInt64.not_lt, UInt64.not_lt]

/-- A range that is all of `u32` asks nothing. -/
theorem toOption_range32_full {v : UInt32} :
    (validateUintRange value 0 4294967295).toOption = some v ↔ parseU32 value = some v ∧ True := by
  have hmax : v ≤ 4294967295 := UInt32.le_iff_toNat_le.2 (Nat.le_of_lt_succ v.toNat_lt)
  rw [toOption_range32]
  exact and_congr_right fun _ => iff_of_true ⟨UInt32.zero_le, hmax⟩ trivial

/-- A key of the provider may be empty, which is none. -/
theorem setKey_aiApiKey_eq_ok : setKey .aiApiKey value config = .ok new ↔
    ∃ v, Takes urlScheme .aiApiKey value v ∧ new = Key.put .aiApiKey v config := by
  by_cases hnil : value = []
  · subst hnil
    have hset : setKey .aiApiKey [] config =
      (do orFail (.ok ()); return Key.put .aiApiKey none config) := rfl
    exact checked_eq_ok rfl hset (iff_of_true rfl (by rintro key ⟨⟩))
  · have hparse : Key.aiApiKey.kind.parse value = some (some value) := congrArg some (if_neg hnil)
    refine checked_eq_ok hparse (if_pos hnil) ?_
    rw [passes_validateApiKey]
    simp [Asks, Key.Accepts, hnil]

/-- The names of the strategies are those that are read as one. -/
theorem setKey_parallelOverflowStrategy_eq_ok :
    setKey .parallelOverflowStrategy value config = .ok new ↔
      ∃ v, Takes urlScheme .parallelOverflowStrategy value v ∧
        new = Key.put .parallelOverflowStrategy v config := by
  constructor
  · intro h
    obtain ⟨⟨⟩, hcheck, hput⟩ := Run.bind_eq_ok.1 h
    obtain ⟨v, hv, hnew⟩ := unwrapped_map_eq_ok.1 hput
    rw [orFail, Run.mapError_eq_ok, ← passes_iff, passes_validateEnum, decide_eq_true_iff,
      parseStrategy_isSome_iff] at hcheck
    obtain ⟨w, hw, hasks⟩ := hcheck
    obtain rfl := Option.some.inj (hv.symm.trans hw)
    exact ⟨v, ⟨hv, hasks⟩, hnew⟩
  · rintro ⟨v, ⟨hv, hasks⟩, hnew⟩
    have hcheck : (validateEnum value (["Block", "Drop", "Expand"].map String.toList)).passes =
        true := by
      rw [passes_validateEnum, decide_eq_true_iff]
      exact parseStrategy_isSome_iff.2 ⟨v, hv, hasks⟩
    exact Run.bind_eq_ok.2 ⟨(), Run.mapError_eq_ok.2 (passes_iff.1 hcheck),
      unwrapped_map_eq_ok.2 ⟨v, hv, hnew⟩⟩

/-- **What is set under a key** is a text that is taken, as the value it is taken as. -/
theorem setKey_eq_ok_iff : setKey key value config = .ok new ↔
    ∃ v, Takes urlScheme key value v ∧ new = key.put v config := by
  cases key with
  | aiProvider | formatsDefaultOutput | formatsDefaultEncoding | syncDefaultMethod =>
    refine checked_eq_ok rfl rfl ?_
    rw [passes_validateEnum, decide_eq_true_iff]
    rfl
  | aiBaseUrl =>
    refine checked_eq_ok rfl rfl ?_
    rw [validateUrl, passes_refuseIf, Bool.not_eq_true', decide_eq_false_iff_not, not_not]
    rfl
  | aiModel =>
    have hset : setKey .aiModel value config =
      (do orFail (.ok ()); return Key.put .aiModel value config) := rfl
    exact checked_eq_ok rfl hset (iff_of_true rfl trivial)
  | aiApiKey => exact setKey_aiApiKey_eq_ok
  | parallelOverflowStrategy => exact setKey_parallelOverflowStrategy_eq_ok
  | aiApiVersion | translationBatchSize | translationDefaultTargetLanguage =>
    refine iff_of_false (by rintro ⟨⟩) ?_
    rintro ⟨v, ⟨-, hasks⟩, -⟩
    exact hasks
  | aiTemperature | formatsEncodingDetectionConfidence | syncMaxOffsetSeconds
  | syncVadSensitivity => exact read_eq_ok rfl fun v => toOption_validateParsedRange
  | aiMaxTokens | aiRetryAttempts => exact read_eq_ok rfl fun v => toOption_range32
  | syncVadPaddingChunks | syncVadMinSpeechDurationMs =>
    exact read_eq_ok rfl fun v => toOption_range32_full
  | aiMaxSampleLength | aiRetryDelayMs | aiRequestTimeoutSeconds | generalMaxConcurrentJobs
  | generalTaskTimeoutSeconds | generalWorkerIdleTimeoutSeconds | generalMaxSubtitleBytes
  | generalMaxAudioBytes | parallelMaxWorkers | parallelTaskQueueSize =>
    exact read_eq_ok rfl fun v => toOption_range64
  | formatsPreserveStyling | syncVadEnabled | generalBackupEnabled | generalEnableProgressBar
  | parallelEnableTaskPriorities | parallelAutoBalanceWorkers =>
    exact read_eq_ok rfl fun v => (and_iff_left trivial).symm

/-- **What is set under an older key** is a text that it takes. -/
theorem exists_setLegacyKey_iff (config : Config) {key : LegacyKey} :
    (∃ new, setLegacyKey key value config = .ok new) ↔ key.Takes value := by
  have hread {α : Type} {read : Except SubXError α} {place : α → Config} :
      (∃ new, (do let v ← orFail read; return place v : Except Halt Config) = .ok new) ↔
        ∃ v, read.toOption = some v := by
    simp only [orFail_map_eq_ok]
    exact ⟨fun ⟨_, v, hv, _⟩ => ⟨v, hv⟩, fun ⟨v, hv⟩ => ⟨_, v, hv, rfl⟩⟩
  cases key with
  | correlationThreshold | dialogueDetectionThreshold =>
    exact hread.trans (exists_congr fun v => toOption_validateParsedRange)
  | minDialogueDurationMs | dialogueMergeGapMs | audioSampleRate =>
    exact hread.trans (exists_congr fun v => toOption_range32)
  | enableDialogueDetection | autoDetectSampleRate => exact hread

/-! ## No panics -/

/-- A check does not panic, and what comes after it does not when it passed. -/
theorem orFail_bind_ne_panicked {α β : Type} {x : Except SubXError α} {f : α → Except Halt β}
    (hf : ∀ a, x = .ok a → f a ≠ .error .panicked) :
    (orFail x >>= f) ≠ .error .panicked := by
  cases x with
  | error e => rintro ⟨⟩
  | ok a => exact hf a rfl

theorem setKey_ne_panicked : setKey key value config ≠ .error .panicked := by
  cases key with
  | aiModel | aiApiVersion | translationBatchSize | translationDefaultTargetLanguage =>
    rintro ⟨⟩
  | aiApiKey =>
    unfold setKey
    split_ifs
    · exact orFail_bind_ne_panicked fun _ _ => nofun
    · rintro ⟨⟩
  | parallelOverflowStrategy =>
    refine orFail_bind_ne_panicked fun _ hcheck => ?_
    -- what passed is the name of a strategy
    rw [← passes_iff, passes_validateEnum, decide_eq_true_iff, parseStrategy_isSome_iff] at hcheck
    obtain ⟨v, hv, -⟩ := hcheck
    rw [hv]
    rintro ⟨⟩
  | _ => exact orFail_bind_ne_panicked fun _ _ => nofun

theorem setLegacyKey_ne_panicked {key : LegacyKey} :
    setLegacyKey key value config ≠ .error .panicked := by
  cases key <;> exact orFail_bind_ne_panicked fun _ _ => nofun

theorem validateAndSetValue_ne_panicked {name : Text} :
    validateAndSetValue config name value ≠ .error .panicked := by
  unfold validateAndSetValue
  split
  · exact setKey_ne_panicked
  · split
    · exact setLegacyKey_ne_panicked
    · rintro ⟨⟩

end Arms

end TestConfigService

end SubxCore.Configuration
