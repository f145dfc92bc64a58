import SubxCore.Common.Machine
import SubxCore.Common.Program
import SubxCore.Configuration.Loading
/-!
# The configuration service

`ProductionConfigService` as programs on the file and the cache. Writing
the file can fail at every system call it makes, which is up to the call; a
write that fails leaves what it has written so far.
-/

namespace SubxCore.Configuration

open Text Kind

variable {V : Type}

/-! ## Setting and getting single values -/

/-- How a call ends that does not return a value. -/
inductive Halt
  | failed (error : SubXError)
  | panicked
  deriving DecidableEq

/-- A result whose errors are those of a call. -/
def orFail {α : Type} (result : Except SubXError α) : Except Halt α := result.mapError .failed

/-- `parse().unwrap()`. -/
def unwrapped {α : Type} : Option α → Except Halt α
  | some value => .ok value
  | none => .error .panicked

/-- What `set_value_internal` does under a key. -/
def setKey (key : Key) (value : Text) (config : Config) : Except Halt Config :=
  match key with
  | .aiProvider => .ok { config with ai.provider := normalizeAiProvider value }
  | .aiApiKey => .ok { config with ai.apiKey := if value ≠ [] then some value else none }
  | .aiModel => .ok { config with ai.model := value }
  | .aiBaseUrl => .ok { config with ai.baseUrl := value }
  | .aiMaxSampleLength => do
    let v ← unwrapped (parseU64 value)
    return { config with ai.maxSampleLength := v }
  | .aiTemperature => do
    let v ← unwrapped (parseF32 value)
    return { config with ai.temperature := v }
  | .aiMaxTokens => do
    let v ← unwrapped (parseU32 value)
    return { config with ai.maxTokens := v }
  | .aiRetryAttempts => do
    let v ← unwrapped (parseU32 value)
    return { config with ai.retryAttempts := v }
  | .aiRetryDelayMs => do
    let v ← unwrapped (parseU64 value)
    return { config with ai.retryDelayMs := v }
  | .aiRequestTimeoutSeconds => do
    let v ← unwrapped (parseU64 value)
    return { config with ai.requestTimeoutSeconds := v }
  | .aiApiVersion => .ok { config with ai.apiVersion := if value ≠ [] then some value else none }
  | .formatsDefaultOutput => .ok { config with formats.defaultOutput := value }
  | .formatsPreserveStyling => do
    let v ← orFail (parseBool value)
    return { config with formats.preserveStyling := v }
  | .formatsDefaultEncoding => .ok { config with formats.defaultEncoding := value }
  | .formatsEncodingDetectionConfidence => do
    let v ← unwrapped (parseF32 value)
    return { config with formats.encodingDetectionConfidence := v }
  | .syncMaxOffsetSeconds => do
    let v ← unwrapped (parseF32 value)
    return { config with sync.maxOffsetSeconds := v }
  | .syncDefaultMethod => .ok { config with sync.defaultMethod := value }
  | .syncVadEnabled => do
    let v ← orFail (parseBool value)
    return { config with sync.vad.enabled := v }
  | .syncVadSensitivity => do
    let v ← unwrapped (parseF32 value)
    return { config with sync.vad.sensitivity := v }
  | .syncVadPaddingChunks => do
    let v ← unwrapped (parseU32 value)
    return { config with sync.vad.paddingChunks := v }
  | .syncVadMinSpeechDurationMs => do
    let v ← unwrapped (parseU32 value)
    return { config with sync.vad.minSpeechDurationMs := v }
  | .generalBackupEnabled => do
    let v ← orFail (parseBool value)
    return { config with general.backupEnabled := v }
  | .generalMaxConcurrentJobs => do
    let v ← unwrapped (parseU64 value)
    return { config with general.maxConcurrentJobs := v }
  | .generalTaskTimeoutSeconds => do
    let v ← unwrapped (parseU64 value)
    return { config with general.taskTimeoutSeconds := v }
  | .generalEnableProgressBar => do
    let v ← orFail (parseBool value)
    return { config with general.enableProgressBar := v }
  | .generalWorkerIdleTimeoutSeconds => do
    let v ← unwrapped (parseU64 value)
    return { config with general.workerIdleTimeoutSeconds := v }
  | .generalMaxSubtitleBytes => do
    let v ← unwrapped (parseU64 value)
    return { config with general.maxSubtitleBytes := v }
  | .generalMaxAudioBytes => do
    let v ← unwrapped (parseU64 value)
    return { config with general.maxAudioBytes := v }
  | .parallelMaxWorkers => do
    let v ← unwrapped (parseU64 value)
    return { config with parallel.maxWorkers := v }
  | .parallelTaskQueueSize => do
    let v ← unwrapped (parseU64 value)
    return { config with parallel.taskQueueSize := v }
  | .parallelEnableTaskPriorities => do
    let v ← orFail (parseBool value)
    return { config with parallel.enableTaskPriorities := v }
  | .parallelAutoBalanceWorkers => do
    let v ← orFail (parseBool value)
    return { config with parallel.autoBalanceWorkers := v }
  | .parallelOverflowStrategy =>
    if value = "Block".toList then .ok { config with parallel.overflowStrategy := .block }
    else if value = "Drop".toList then .ok { config with parallel.overflowStrategy := .drop }
    else if value = "Expand".toList then .ok { config with parallel.overflowStrategy := .expand }
    else .error .panicked
  | .translationBatchSize => do
    let v ← unwrapped (parseU64 value)
    return { config with translation.batchSize := v }
  | .translationDefaultTargetLanguage =>
    .ok { config with
      translation.defaultTargetLanguage := if value = [] then none else some value }

/-- `set_value_internal`. -/
def setValueInternal (config : Config) (key value : Text) : Except Halt Config :=
  match Key.ofName key with
  | some key => setKey key value config
  | none => .error (.failed (unknownKey key))

/-- `validate_and_set_value`. -/
def validateAndSetValue (urlScheme : Text → Option Text) (config : Config) (key value : Text) :
    Except Halt Config := do
  let value := if key = "ai.provider".toList then normalizeAiProvider value else value
  orFail (validateField urlScheme key value)
  let config ← setValueInternal config key value
  orFail (validateConfig urlScheme config)
  return config

/-- **A value is set** when its field, its type and then the sections let it. -/
theorem validateAndSetValue_eq_ok {urlScheme : Text → Option Text} {old config : Config}
    {key value : Text} :
    validateAndSetValue urlScheme old key value = .ok config ↔
      let value := if key = "ai.provider".toList then normalizeAiProvider value else value
      validateField urlScheme key value = .ok () ∧ setValueInternal old key value = .ok config ∧
        validateConfig urlScheme config = .ok () := by
  simp only [validateAndSetValue, orFail, Run.bind_eq_ok, Run.mapError_eq_ok]
  constructor
  · rintro ⟨u, hfield, new, hset, v, hvalid, hnew⟩
    cases hnew
    exact ⟨hfield, hset, hvalid⟩
  · rintro ⟨hfield, hset, hvalid⟩
    exact ⟨(), hfield, config, hset, (), hvalid, rfl⟩

/-- What `read_config_value_from` reads under a key; under one there is nothing. -/
def readKey (config : Config) (key : Key) : Option Text :=
  match key with
  | .aiProvider => some config.ai.provider
  | .aiModel => some config.ai.model
  | .aiApiKey => some (config.ai.apiKey.getD [])
  | .aiBaseUrl => some config.ai.baseUrl
  | .aiMaxSampleLength => some (shown64 config.ai.maxSampleLength)
  | .aiTemperature => some config.ai.temperature.display
  | .aiMaxTokens => some (shown32 config.ai.maxTokens)
  | .aiRetryAttempts => some (shown32 config.ai.retryAttempts)
  | .aiRetryDelayMs => some (shown64 config.ai.retryDelayMs)
  | .aiRequestTimeoutSeconds => some (shown64 config.ai.requestTimeoutSeconds)
  | .aiApiVersion => none
  | .formatsDefaultOutput => some config.formats.defaultOutput
  | .formatsDefaultEncoding => some config.formats.defaultEncoding
  | .formatsPreserveStyling => some (shownFlag config.formats.preserveStyling)
  | .formatsEncodingDetectionConfidence =>
    some config.formats.encodingDetectionConfidence.display
  | .syncDefaultMethod => some config.sync.defaultMethod
  | .syncMaxOffsetSeconds => some config.sync.maxOffsetSeconds.display
  | .syncVadEnabled => some (shownFlag config.sync.vad.enabled)
  | .syncVadSensitivity => some config.sync.vad.sensitivity.display
  | .syncVadPaddingChunks => some (shown32 config.sync.vad.paddingChunks)
  | .syncVadMinSpeechDurationMs => some (shown32 config.sync.vad.minSpeechDurationMs)
  | .generalBackupEnabled => some (shownFlag config.general.backupEnabled)
  | .generalMaxConcurrentJobs => some (shown64 config.general.maxConcurrentJobs)
  | .generalTaskTimeoutSeconds => some (shown64 config.general.taskTimeoutSeconds)
  | .generalEnableProgressBar => some (shownFlag config.general.enableProgressBar)
  | .generalWorkerIdleTimeoutSeconds => some (shown64 config.general.workerIdleTimeoutSeconds)
  | .generalMaxSubtitleBytes => some (shown64 config.general.maxSubtitleBytes)
  | .generalMaxAudioBytes => some (shown64 config.general.maxAudioBytes)
  | .parallelMaxWorkers => some (shown64 config.parallel.maxWorkers)
  | .parallelTaskQueueSize => some (shown64 config.parallel.taskQueueSize)
  | .parallelEnableTaskPriorities => some (shownFlag config.parallel.enableTaskPriorities)
  | .parallelAutoBalanceWorkers => some (shownFlag config.parallel.autoBalanceWorkers)
  | .parallelOverflowStrategy => some (shownStrategy config.parallel.overflowStrategy)
  | .translationBatchSize => some (shown64 config.translation.batchSize)
  | .translationDefaultTargetLanguage => some (config.translation.defaultTargetLanguage.getD [])

/-- `read_config_value_from`. -/
def readConfigValueFrom (config : Config) (key : Text) : Except SubXError Text :=
  match (Key.ofName key).bind (readKey config) with
  | some value => .ok value
  | none => .error (unknownKey key)

/-! ## The file and the cache -/

/-- The file, and the configuration that is cached. -/
structure State where
  file : ConfigFile
  cache : Option Config
  deriving DecidableEq

/-- Where writing the file fails. -/
inductive WriteFault
  /-- The directory of the file cannot be made. -/
  | parent (message : Text)
  /-- The file cannot be opened. -/
  | opening (message : Text)
  /-- Writing stops after so many bytes. -/
  | writing (written : ℕ) (message : Text)
  /-- The permissions of the file cannot be changed. -/
  | permissions (message : Text)
  deriving DecidableEq

namespace WriteFault

/-- Why it fails. -/
def message : WriteFault → Text
  | parent message | opening message | writing _ message | permissions message => message

/-- What is in the file afterwards; opening it truncates it. -/
def leaves : WriteFault → (content : List UInt8) → ConfigFile → ConfigFile
  | parent _, _, file => file
  | opening _, _, file => file
  | writing written _, content, _ => some (content.take written)
  | permissions _, content, _ => some content

end WriteFault

/-- A program of the service. -/
abbrev Task (α : Type) := Program State Halt α

open Program

/-- A result that is no matter of the file or the cache. -/
def pureResult {α : Type} (result : Except SubXError α) : Task α :=
  Program.ofExcept (orFail result)

/-- The file. -/
def readFile : Task ConfigFile := step fun s => (.ok s.file, s)

/-- The cache. -/
def readCache : Task (Option Config) := step fun s => (.ok s.cache, s)

/-- A new cache. -/
def writeCache (cache : Option Config) : Task Unit := step fun s => (.ok (), { s with cache })

/-- `secure_write_config_file`, its error in the words of its callers. -/
def secureWriteConfigFile (fault : Option WriteFault) (content : Text) : Task Unit :=
  step fun s => match fault with
    | none => (.ok (), { s with file := some (utf8 content) })
    | some fault =>
      (.error (.failed (.config ("Failed to write config file: ".toList ++ fault.message))),
        { s with file := fault.leaves (utf8 content) s.file })

namespace Service

variable (S : Service V)

/-- `toml::to_string_pretty`, its error in the words of its callers. -/
def serialize (config : Config) : Except SubXError Text :=
  (S.crates.toStringPretty config).mapError fun e =>
    .config ("TOML serialization error: ".toList ++ e)

/-- `get_config`. -/
def getConfig : Task Config := do
  match ← readCache with
  | some config => return config
  | none =>
    let file ← readFile
    let config ← pureResult (S.loadAndValidate file)
    writeCache (some config)
    return config

/-- `reload`. -/
def reload : Task Unit := do
  writeCache none
  let _ ← S.getConfig

/-- `save_config_to_file`, with the path of the configuration file. -/
def saveConfigToFile (fault : Option WriteFault) : Task Unit := do
  let config ← S.getConfig
  let content ← pureResult (S.serialize config)
  secureWriteConfigFile fault content

/-- `save_config`. -/
def saveConfig (fault : Option WriteFault) : Task Unit := do
  let _ ← S.getConfig
  let _ ← pureResult S.configFilePath
  S.saveConfigToFile fault

/-- `get_config_value`. -/
def getConfigValue (key : Text) : Task Text := do
  let config ← S.getConfig
  pureResult (readConfigValueFrom config key)

/-- The configuration that `set_config_value` writes. -/
def edited (file : ConfigFile) (key value : Text) : Except Halt Config := do
  let config ← orFail (S.loadForRepair file)
  validateAndSetValue S.crates.urlScheme config key value

/-- `set_config_value`. -/
def setConfigValue (fault : Option WriteFault) (key value : Text) : Task Unit := do
  let file ← readFile
  let config ← Program.ofExcept (S.edited file key value)
  let _ ← pureResult S.configFilePath
  let content ← pureResult (S.serialize config)
  secureWriteConfigFile fault content
  writeCache (some config)

/-- `reset_to_defaults`. -/
def resetToDefaults (fault : Option WriteFault) : Task Unit := do
  let _ ← pureResult S.configFilePath
  let content ← pureResult (S.serialize (.default S.numCpus))
  secureWriteConfigFile fault content
  S.reload

/-- `load_for_repair`, as a program. -/
def repairView : Task Config := do
  let file ← readFile
  pureResult (S.loadForRepair file)

/-! ## Runs -/

variable {S} {s s' : State} {config : Config} {key value content : Text}
  {fault : Option WriteFault} {e : SubXError} {halt : Halt}

section Steps

variable {α β : Type} {f : α → Task β} {a : α}

@[simp] theorem exec_readFile_bind {f : ConfigFile → Task β} :
    (readFile >>= f).exec s = (f s.file).exec s := exec_bind_of_ok (x := readFile) rfl

@[simp] theorem exec_readCache_bind {f : Option Config → Task β} :
    (readCache >>= f).exec s = (f s.cache).exec s := exec_bind_of_ok (x := readCache) rfl

@[simp] theorem exec_writeCache_bind {cache : Option Config} {f : Unit → Task β} :
    (writeCache cache >>= f).exec s = (f ()).exec { s with cache } :=
  exec_bind_of_ok (x := writeCache cache) rfl

@[simp] theorem exec_pureResult_bind_ok : (pureResult (.ok a) >>= f).exec s = (f a).exec s :=
  exec_bind_of_ok (x := pureResult (.ok a)) rfl

@[simp] theorem exec_pureResult_bind_error {f : α → Task β} :
    (pureResult (.error e) >>= f).exec s = (.error (.failed e), s) :=
  exec_bind_of_error (x := pureResult (.error e)) rfl

@[simp] theorem exec_secureWriteConfigFile_bind_none {f : Unit → Task β} :
    (secureWriteConfigFile none content >>= f).exec s =
      (f ()).exec { s with file := some (utf8 content) } :=
  exec_bind_of_ok (x := secureWriteConfigFile none content) rfl

@[simp] theorem exec_secureWriteConfigFile_bind_some {fault : WriteFault} {f : Unit → Task β} :
    (secureWriteConfigFile (some fault) content >>= f).exec s =
      (.error (.failed (.config ("Failed to write config file: ".toList ++ fault.message))),
        { s with file := fault.leaves (utf8 content) s.file }) :=
  exec_bind_of_error (x := secureWriteConfigFile (some fault) content) rfl

end Steps

/-- A configuration that is cached is returned. -/
theorem exec_getConfig_of_cached (h : s.cache = some config) :
    S.getConfig.exec s = (.ok config, s) := by
  rw [getConfig, exec_readCache_bind, h]
  rfl

/-- One that is not is loaded, and cached. -/
theorem exec_getConfig_of_loaded (hcache : s.cache = none)
    (h : S.loadAndValidate s.file = .ok config) :
    S.getConfig.exec s = (.ok config, { s with cache := some config }) := by
  rw [getConfig, exec_readCache_bind, hcache]
  simp only
  rw [exec_readFile_bind, h]
  rfl

/-- Unless that fails. -/
theorem exec_getConfig_of_error (hcache : s.cache = none)
    (h : S.loadAndValidate s.file = .error e) :
    S.getConfig.exec s = (.error (.failed e), s) := by
  rw [getConfig, exec_readCache_bind, hcache]
  simp only
  rw [exec_readFile_bind, h]
  rfl

/-- **What is written** is what is shown of the file, with the value set. -/
theorem edited_eq_ok {file : ConfigFile} :
    S.edited file key value = .ok config ↔ ∃ old, S.loadForRepair file = .ok old ∧
      validateAndSetValue S.crates.urlScheme old key value = .ok config := by
  simp only [edited, orFail, Run.bind_eq_ok, Run.mapError_eq_ok]

/-- The configuration of a state: the one that is cached, or what is loaded. -/
def current (S : Service V) (s : State) : Except SubXError Config :=
  match s.cache with
  | some config => .ok config
  | none => S.loadAndValidate s.file

/-- **Getting the configuration** caches it. -/
theorem exec_getConfig_of_ok (h : S.current s = .ok config) :
    S.getConfig.exec s = (.ok config, { s with cache := some config }) := by
  unfold current at h
  split at h
  · next cached hcache =>
    obtain rfl := Except.ok.inj h
    rw [exec_getConfig_of_cached hcache, ← hcache]
  · next hcache => exact exec_getConfig_of_loaded hcache h

theorem current_of_cached (h : s.cache = some config) : S.current s = .ok config := by
  rw [current, h]

/-- A configuration that cannot be got leaves everything as it is. -/
theorem exec_getConfig_error (h : S.current s = .error e) :
    S.getConfig.exec s = (.error (.failed e), s) := by
  unfold current at h
  split at h
  · cases h
  · next hcache => exact exec_getConfig_of_error hcache h

/-- Loading again is loading what is in the file. -/
theorem exec_reload : S.reload.exec s =
    match S.loadAndValidate s.file with
    | .ok config => (.ok (), { s with cache := some config })
    | .error e => (.error (.failed e), { s with cache := none }) := by
  rw [reload, exec_writeCache_bind]
  cases h : S.loadAndValidate s.file with
  | ok config =>
    rw [exec_bind_of_ok (exec_getConfig_of_loaded (s := { s with cache := none }) rfl h), exec_pure]
  | error e =>
    rw [exec_bind_of_error (exec_getConfig_of_error (s := { s with cache := none }) rfl h)]

/-- What cannot be got cannot be saved. -/
theorem exec_saveConfig_error (h : S.current s = .error e) :
    (S.saveConfig fault).exec s = (.error (.failed e), s) :=
  exec_bind_of_error (exec_getConfig_error h)

/-- Saving gets the configuration first, and then puts it into the file. -/
theorem exec_saveConfig (h : S.current s = .ok config) : (S.saveConfig fault).exec s =
    (do let _ ← pureResult S.configFilePath
        let content ← pureResult (S.serialize config)
        secureWriteConfigFile fault content : Task Unit).exec { s with cache := some config } := by
  rw [saveConfig, exec_bind_of_ok (exec_getConfig_of_ok h)]
  cases S.configFilePath with
  | error e => rfl
  | ok path =>
    rw [exec_pureResult_bind_ok, exec_pureResult_bind_ok, saveConfigToFile,
      exec_bind_of_ok (exec_getConfig_of_ok (current_of_cached rfl))]

/-- A value is looked up in the configuration that is cached. -/
theorem exec_getConfigValue_of_cached (h : s.cache = some config) :
    (S.getConfigValue key).exec s = (orFail (readConfigValueFrom config key), s) := by
  rw [getConfigValue, exec_bind_of_ok (exec_getConfig_of_cached h)]
  rfl

/-- A value that is not written leaves everything as it is. -/
theorem exec_setConfigValue_of_error (h : S.edited s.file key value = .error halt) :
    (S.setConfigValue fault key value).exec s = (.error halt, s) := by
  rw [setConfigValue, exec_readFile_bind, h]
  rfl

/-- Editing the configuration takes the path of the file. -/
theorem configFilePath_of_edited {file : ConfigFile} (h : S.edited file key value = .ok config) :
    ∃ path, S.configFilePath = .ok path := by
  cases hpath : S.configFilePath with
  | ok path => exact ⟨path, rfl⟩
  | error e =>
    rw [edited, loadForRepair, hpath] at h
    cases h

/-- So does one whose configuration cannot be put into TOML. -/
theorem exec_setConfigValue_of_unserialized (h : S.edited s.file key value = .ok config)
    (hserialize : S.serialize config = .error e) :
    (S.setConfigValue fault key value).exec s = (.error (.failed e), s) := by
  obtain ⟨path, hpath⟩ := configFilePath_of_edited h
  rw [setConfigValue, exec_readFile_bind, h, exec_bind_of_ok (exec_ofExcept _), hpath,
    exec_pureResult_bind_ok, hserialize, exec_pureResult_bind_error]

/-- A write that fails may leave another file. -/
theorem exec_setConfigValue_of_fault {fault : WriteFault}
    (h : S.edited s.file key value = .ok config) (hserialize : S.serialize config = .ok content) :
    (S.setConfigValue (some fault) key value).exec s =
      (.error (.failed (.config ("Failed to write config file: ".toList ++ fault.message))),
        { s with file := fault.leaves (utf8 content) s.file }) := by
  obtain ⟨path, hpath⟩ := configFilePath_of_edited h
  rw [setConfigValue, exec_readFile_bind, h, exec_bind_of_ok (exec_ofExcept _), hpath,
    exec_pureResult_bind_ok, hserialize, exec_pureResult_bind_ok,
    exec_secureWriteConfigFile_bind_some]

/-- One that goes through leaves the new configuration, in the file and in the cache. -/
theorem exec_setConfigValue_of_ok (h : S.edited s.file key value = .ok config)
    (hserialize : S.serialize config = .ok content) :
    (S.setConfigValue none key value).exec s = (.ok (), ⟨some (utf8 content), some config⟩) := by
  obtain ⟨path, hpath⟩ := configFilePath_of_edited h
  rw [setConfigValue, exec_readFile_bind, h, exec_bind_of_ok (exec_ofExcept _), hpath,
    exec_pureResult_bind_ok, hserialize, exec_pureResult_bind_ok,
    exec_secureWriteConfigFile_bind_none]
  rfl

/-- **A value that is set** has been checked, written and cached. -/
theorem exec_setConfigValue_eq_ok {s' : State}
    (h : (S.setConfigValue fault key value).exec s = (.ok (), s')) :
    ∃ config content, S.edited s.file key value = .ok config ∧
      S.serialize config = .ok content ∧ s' = ⟨some (utf8 content), some config⟩ := by
  cases hedited : S.edited s.file key value with
  | error halt =>
    rw [exec_setConfigValue_of_error hedited] at h
    cases h
  | ok config =>
    cases hserialize : S.serialize config with
    | error e =>
      rw [exec_setConfigValue_of_unserialized hedited hserialize] at h
      cases h
    | ok content =>
      cases fault with
      | some fault =>
        rw [exec_setConfigValue_of_fault hedited hserialize] at h
        cases h
      | none =>
        rw [exec_setConfigValue_of_ok hedited hserialize] at h
        cases h
        exact ⟨config, content, rfl, hserialize, rfl⟩

end Service

end SubxCore.Configuration
