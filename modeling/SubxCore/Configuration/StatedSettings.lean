import SubxCore.Configuration.Coherence
import SubxCore.Configuration.ProviderScope
/-!
# What a file states and what is loaded

A document states settings at their places. When all of it makes a
configuration, every setting that it states is in there. When it does not,
four texts of the section on the AI service are salvaged, and everything
else the document states is lost without a message unless it happens to be
what the defaults say: `honoured_iff`.
-/

namespace SubxCore.Configuration

open Text Kind Program

variable {V : Type}

/-! ## Settings and their places -/

/-- The value at a place of a document. -/
def Format.lookup (F : Format V) : V → List Text → Option V
  | value, [] => some value
  | value, name :: path =>
    ((F.entries value).bind fun fields => fields name).bind fun value => F.lookup value path

/-- A value read as one of a kind. -/
def Kind.decode (F : Format V) : (kind : Kind) → V → Option kind.Value
  | provider, value => F.string value
  | text, value => F.string value
  | optional, value => (F.string value).map some
  | flag, value => F.boolean value
  | u32, value => F.unsigned32 value
  | u64, value => F.unsigned64 value
  | float, value => F.float value
  | strategy, value => F.strategy value

/-- A value as it is kept: a provider is, in its canonical form. -/
def Kind.kept : (kind : Kind) → kind.Value → kind.Value
  | provider, value => normalizeAiProvider value
  | text, value | optional, value | flag, value | u32, value | u64, value | float, value
  | strategy, value => value

/-- The place of a key in a document. -/
def Key.path : Key → List Text
  | aiProvider => ["ai".toList, "provider".toList]
  | aiModel => ["ai".toList, "model".toList]
  | aiApiKey => ["ai".toList, "api_key".toList]
  | aiBaseUrl => ["ai".toList, "base_url".toList]
  | aiTemperature => ["ai".toList, "temperature".toList]
  | aiMaxTokens => ["ai".toList, "max_tokens".toList]
  | aiMaxSampleLength => ["ai".toList, "max_sample_length".toList]
  | aiRetryAttempts => ["ai".toList, "retry_attempts".toList]
  | aiRetryDelayMs => ["ai".toList, "retry_delay_ms".toList]
  | aiRequestTimeoutSeconds => ["ai".toList, "request_timeout_seconds".toList]
  | aiApiVersion => ["ai".toList, "api_version".toList]
  | syncDefaultMethod => ["sync".toList, "default_method".toList]
  | syncMaxOffsetSeconds => ["sync".toList, "max_offset_seconds".toList]
  | syncVadEnabled => ["sync".toList, "vad".toList, "enabled".toList]
  | syncVadSensitivity => ["sync".toList, "vad".toList, "sensitivity".toList]
  | syncVadPaddingChunks => ["sync".toList, "vad".toList, "padding_chunks".toList]
  | syncVadMinSpeechDurationMs =>
    ["sync".toList, "vad".toList, "min_speech_duration_ms".toList]
  | formatsDefaultOutput => ["formats".toList, "default_output".toList]
  | formatsPreserveStyling => ["formats".toList, "preserve_styling".toList]
  | formatsDefaultEncoding => ["formats".toList, "default_encoding".toList]
  | formatsEncodingDetectionConfidence =>
    ["formats".toList, "encoding_detection_confidence".toList]
  | generalBackupEnabled => ["general".toList, "backup_enabled".toList]
  | generalMaxConcurrentJobs => ["general".toList, "max_concurrent_jobs".toList]
  | generalTaskTimeoutSeconds => ["general".toList, "task_timeout_seconds".toList]
  | generalEnableProgressBar => ["general".toList, "enable_progress_bar".toList]
  | generalWorkerIdleTimeoutSeconds => ["general".toList, "worker_idle_timeout_seconds".toList]
  | generalMaxSubtitleBytes => ["general".toList, "max_subtitle_bytes".toList]
  | generalMaxAudioBytes => ["general".toList, "max_audio_bytes".toList]
  | parallelMaxWorkers => ["parallel".toList, "max_workers".toList]
  | parallelTaskQueueSize => ["parallel".toList, "task_queue_size".toList]
  | parallelEnableTaskPriorities => ["parallel".toList, "enable_task_priorities".toList]
  | parallelAutoBalanceWorkers => ["parallel".toList, "auto_balance_workers".toList]
  | parallelOverflowStrategy => ["parallel".toList, "overflow_strategy".toList]
  | translationBatchSize => ["translation".toList, "batch_size".toList]
  | translationDefaultTargetLanguage =>
    ["translation".toList, "default_target_language".toList]

/-- The place of a key is its name. -/
theorem Key.intercalate_path :
    ∀ key ∈ Key.all, List.intercalate ".".toList key.path = key.name := by
  decide +kernel

/-- What a file may state: the settings of the keys, two that have no key, and the
sections. -/
inductive Setting
  | single (key : Key)
  | workspace
  | loadedFrom
  | ai | formats | sync | vad | general | parallel | translation
  deriving DecidableEq

namespace Setting

/-- The place of a setting. -/
def path : Setting → List Text
  | single key => key.path
  | workspace => ["general".toList, "workspace".toList]
  | loadedFrom => ["loaded_from".toList]
  | ai => ["ai".toList]
  | formats => ["formats".toList]
  | sync => ["sync".toList]
  | vad => ["sync".toList, "vad".toList]
  | general => ["general".toList]
  | parallel => ["parallel".toList]
  | translation => ["translation".toList]

/-- **A stated value is the one in a configuration**; a section has to be one. -/
def Honoured (F : Format V) (config : Config) : Setting → V → Prop
  | single key, value => (key.kind.decode F value).map key.kind.kept = some (key.get config)
  | workspace, value => F.path value = some config.general.workspace
  | loadedFrom, value => (F.path value).map some = some config.loadedFrom
  | ai, value | formats, value | sync, value | vad, value | general, value | parallel, value
  | translation, value => (F.entries value).isSome

/-- **A stated value is what is salvaged or the default.** Of the document only four
texts of one section are salvaged, the API key under another name. -/
def Survives (F : Format V) (numCpus : UInt64) (doc : V) : Setting → V → Prop
  | single .aiProvider, value => (F.asStr value).isSome ∨
    (F.string value).map normalizeAiProvider = some AIConfig.default.provider
  | single .aiModel, value => (F.asStr value).isSome ∨
    F.string value = some AIConfig.default.model
  | single .aiBaseUrl, value => (F.asStr value).isSome ∨
    F.string value = some AIConfig.default.baseUrl
  | single .aiApiKey, value => (F.string value).map some =
    some ((F.lookup doc ["ai".toList, "apikey".toList]).bind F.asStr)
  | setting, value => setting.Honoured F (.default numCpus) value

end Setting

/-! ## A document that makes a configuration -/

section Deserialized

variable {F : Format V} {fields sections : Text → Option V} {α : Type} {name : String}
  {decode : V → Option α} {value doc : V} {a : α} {o : Option α}

theorem decode_of_required (h : required fields name decode = some a)
    (hv : fields name.toList = some value) : decode value = some a := by
  rwa [required, hv] at h

theorem decode_of_optional (h : optional fields name decode = some o)
    (hv : fields name.toList = some value) : (decode value).map some = some o := by
  rwa [optional, hv] at h

/-- A value in a section. -/
theorem lookup_of_section {section_ : String} {path : List Text}
    (hdoc : F.entries doc = some sections) (hsection : sections section_.toList = some value) :
    F.lookup doc (section_.toList :: path) = F.lookup value path := by
  rw [Format.lookup, hdoc, Option.bind_some, hsection, Option.bind_some]

theorem lookup_field (hdoc : F.entries doc = some fields) :
    F.lookup doc [name.toList] = fields name.toList := by
  rw [Format.lookup, hdoc, Option.bind_some]
  exact Option.bind_fun_some _

theorem exists_of_required (h : required fields name decode = some a) :
    ∃ value, fields name.toList = some value ∧ decode value = some a :=
  Option.bind_eq_some_iff.1 h

theorem deserializeAi_eq_some {ai : AIConfig} (h : deserializeAi F value = some ai) :
    ∃ fields, F.entries value = some fields ∧
      required fields "provider" F.string = some ai.provider ∧
      optional fields "api_key" F.string = some ai.apiKey ∧
      required fields "model" F.string = some ai.model ∧
      required fields "base_url" F.string = some ai.baseUrl ∧
      required fields "max_sample_length" F.unsigned64 = some ai.maxSampleLength ∧
      required fields "temperature" F.float = some ai.temperature ∧
      required fields "max_tokens" F.unsigned32 = some ai.maxTokens ∧
      required fields "retry_attempts" F.unsigned32 = some ai.retryAttempts ∧
      required fields "retry_delay_ms" F.unsigned64 = some ai.retryDelayMs ∧
      required fields "request_timeout_seconds" F.unsigned64 = some ai.requestTimeoutSeconds ∧
      optional fields "api_version" F.string = some ai.apiVersion := by
  obtain ⟨fields, hfields, h⟩ := Option.bind_eq_some_iff.1 h
  obtain ⟨_, hprovider, h⟩ := Option.bind_eq_some_iff.1 h
  obtain ⟨_, hkey, h⟩ := Option.bind_eq_some_iff.1 h
  obtain ⟨_, hmodel, h⟩ := Option.bind_eq_some_iff.1 h
  obtain ⟨_, hurl, h⟩ := Option.bind_eq_some_iff.1 h
  obtain ⟨_, hsample, h⟩ := Option.bind_eq_some_iff.1 h
  obtain ⟨_, htemperature, h⟩ := Option.bind_eq_some_iff.1 h
  obtain ⟨_, htokens, h⟩ := Option.bind_eq_some_iff.1 h
  obtain ⟨_, hattempts, h⟩ := Option.bind_eq_some_iff.1 h
  obtain ⟨_, hdelay, h⟩ := Option.bind_eq_some_iff.1 h
  obtain ⟨_, htimeout, h⟩ := Option.bind_eq_some_iff.1 h
  obtain ⟨_, hversion, h⟩ := Option.bind_eq_some_iff.1 h
  obtain rfl := Option.some.inj h
  exact ⟨fields, hfields, hprovider, hkey, hmodel, hurl, hsample, htemperature, htokens, hattempts,
    hdelay, htimeout, hversion⟩

theorem deserializeFormats_eq_some {formats : FormatsConfig}
    (h : deserializeFormats F value = some formats) :
    ∃ fields, F.entries value = some fields ∧
      required fields "default_output" F.string = some formats.defaultOutput ∧
      required fields "preserve_styling" F.boolean = some formats.preserveStyling ∧
      required fields "default_encoding" F.string = some formats.defaultEncoding ∧
      required fields "encoding_detection_confidence" F.float =
        some formats.encodingDetectionConfidence := by
  simp only [deserializeFormats, Option.bind_eq_bind, Option.bind_eq_some_iff] at h
  obtain ⟨fields, hfields, _, houtput, _, hstyling, _, hencoding, _, hconfidence, hformats⟩ := h
  obtain rfl := Option.some.inj hformats
  exact ⟨fields, hfields, houtput, hstyling, hencoding, hconfidence⟩

theorem deserializeVad_eq_some {vad : VadConfig} (h : deserializeVad F value = some vad) :
    ∃ fields, F.entries value = some fields ∧
      required fields "enabled" F.boolean = some vad.enabled ∧
      required fields "sensitivity" F.float = some vad.sensitivity ∧
      required fields "padding_chunks" F.unsigned32 = some vad.paddingChunks ∧
      required fields "min_speech_duration_ms" F.unsigned32 = some vad.minSpeechDurationMs := by
  simp only [deserializeVad, Option.bind_eq_bind, Option.bind_eq_some_iff] at h
  obtain ⟨fields, hfields, _, henabled, _, hsensitivity, _, hpadding, _, hduration, hvad⟩ := h
  obtain rfl := Option.some.inj hvad
  exact ⟨fields, hfields, henabled, hsensitivity, hpadding, hduration⟩

theorem deserializeSync_eq_some {sync : SyncConfig} (h : deserializeSync F value = some sync) :
    ∃ fields, F.entries value = some fields ∧
      required fields "default_method" F.string = some sync.defaultMethod ∧
      required fields "max_offset_seconds" F.float = some sync.maxOffsetSeconds ∧
      required fields "vad" (deserializeVad F) = some sync.vad := by
  simp only [deserializeSync, Option.bind_eq_bind, Option.bind_eq_some_iff] at h
  obtain ⟨fields, hfields, _, hmethod, _, hoffset, _, hvad, hsync⟩ := h
  obtain rfl := Option.some.inj hsync
  exact ⟨fields, hfields, hmethod, hoffset, hvad⟩

theorem deserializeGeneral_eq_some {general : GeneralConfig}
    (h : deserializeGeneral F value = some general) :
    ∃ fields, F.entries value = some fields ∧
      required fields "backup_enabled" F.boolean = some general.backupEnabled ∧
      required fields "max_concurrent_jobs" F.unsigned64 = some general.maxConcurrentJobs ∧
      required fields "task_timeout_seconds" F.unsigned64 = some general.taskTimeoutSeconds ∧
      required fields "workspace" F.path = some general.workspace ∧
      required fields "enable_progress_bar" F.boolean = some general.enableProgressBar ∧
      required fields "worker_idle_timeout_seconds" F.unsigned64 =
        some general.workerIdleTimeoutSeconds ∧
      required fields "max_subtitle_bytes" F.unsigned64 = some general.maxSubtitleBytes ∧
      required fields "max_audio_bytes" F.unsigned64 = some general.maxAudioBytes := by
  simp only [deserializeGeneral, Option.bind_eq_bind, Option.bind_eq_some_iff] at h
  obtain ⟨fields, hfields, _, hbackup, _, hjobs, _, htask, _, hworkspace, _, hbar, _, hidle, _,
    hsubtitle, _, haudio, hgeneral⟩ := h
  obtain rfl := Option.some.inj hgeneral
  exact ⟨fields, hfields, hbackup, hjobs, htask, hworkspace, hbar, hidle, hsubtitle, haudio⟩

theorem deserializeParallel_eq_some {parallel : ParallelConfig}
    (h : deserializeParallel F value = some parallel) :
    ∃ fields, F.entries value = some fields ∧
      required fields "max_workers" F.unsigned64 = some parallel.maxWorkers ∧
      required fields "overflow_strategy" F.strategy = some parallel.overflowStrategy ∧
      required fields "task_queue_size" F.unsigned64 = some parallel.taskQueueSize ∧
      required fields "enable_task_priorities" F.boolean = some parallel.enableTaskPriorities ∧
      required fields "auto_balance_workers" F.boolean = some parallel.autoBalanceWorkers := by
  simp only [deserializeParallel, Option.bind_eq_bind, Option.bind_eq_some_iff] at h
  obtain ⟨fields, hfields, _, hworkers, _, hoverflow, _, hqueue, _, hpriorities, _, hbalance,
    hparallel⟩ := h
  obtain rfl := Option.some.inj hparallel
  exact ⟨fields, hfields, hworkers, hoverflow, hqueue, hpriorities, hbalance⟩

theorem deserializeTranslation_eq_some {translation : TranslationConfig}
    (h : deserializeTranslation F value = some translation) :
    ∃ fields, F.entries value = some fields ∧
      required fields "batch_size" F.unsigned64 = some translation.batchSize ∧
      optional fields "default_target_language" F.string =
        some translation.defaultTargetLanguage := by
  simp only [deserializeTranslation, Option.bind_eq_bind, Option.bind_eq_some_iff] at h
  obtain ⟨fields, hfields, _, hbatch, _, hlanguage, htranslation⟩ := h
  obtain rfl := Option.some.inj htranslation
  exact ⟨fields, hfields, hbatch, hlanguage⟩

theorem deserializeConfig_eq_some {config : Config} (h : deserializeConfig F doc = some config) :
    ∃ sections, F.entries doc = some sections ∧
      required sections "ai" (deserializeAi F) = some config.ai ∧
      required sections "formats" (deserializeFormats F) = some config.formats ∧
      required sections "sync" (deserializeSync F) = some config.sync ∧
      required sections "general" (deserializeGeneral F) = some config.general ∧
      required sections "parallel" (deserializeParallel F) = some config.parallel ∧
      (∃ translation,
        optional sections "translation" (deserializeTranslation F) = some translation ∧
        config.translation = translation.getD .default) ∧
      optional sections "loaded_from" F.path = some config.loadedFrom := by
  simp only [deserializeConfig, Option.bind_eq_bind, Option.bind_eq_some_iff] at h
  obtain ⟨sections, hsections, _, hai, _, hformats, _, hsync, _, hgeneral, _, hparallel,
    translation, htranslation, _, hloaded, hconfig⟩ := h
  obtain rfl := Option.some.inj hconfig
  exact ⟨sections, hsections, hai, hformats, hsync, hgeneral, hparallel,
    ⟨translation, htranslation, rfl⟩, hloaded⟩

/-- A section that may be missing is there when something is stated in it. -/
theorem exists_of_optional {path : List Text} (h : optional sections name decode = some o)
    (hdoc : F.entries doc = some sections)
    (hv : F.lookup doc (name.toList :: path) = some value) :
    ∃ section_ a, sections name.toList = some section_ ∧ decode section_ = some a ∧ o = some a := by
  cases hsection : sections name.toList with
  | none =>
    rw [Format.lookup, hdoc, Option.bind_some, hsection] at hv
    cases hv
  | some section_ =>
    obtain ⟨a, ha, ho⟩ := Option.map_eq_some_iff.1 (decode_of_optional h hsection)
    exact ⟨section_, a, rfl, ha, ho.symm⟩

/-- A value of a section, found from the top. -/
theorem lookup_in_section {section_ : String} {table : V}
    (hdoc : F.entries doc = some sections) (hsection : sections section_.toList = some table)
    (hfields : F.entries table = some fields) :
    F.lookup doc [section_.toList, name.toList] = fields name.toList := by
  rw [lookup_of_section hdoc hsection, lookup_field hfields]

section Sections

variable {config : Config} {key : Key} (hdoc : F.entries doc = some sections)

include hdoc

theorem decode_of_ai (h : required sections "ai" (deserializeAi F) = some config.ai)
    (hkey : key.path.head? = some "ai".toList) (hv : F.lookup doc key.path = some value) :
    key.kind.decode F value = some (key.get config) := by
  obtain ⟨table, htable, hai⟩ := exists_of_required h
  obtain ⟨fields, hfields, hprovider, hapiKey, hmodel, hurl, hsample, htemperature, htokens,
    hattempts, hdelay, htimeout, hversion⟩ := deserializeAi_eq_some hai
  have hin {name : String} (hv : F.lookup doc ["ai".toList, name.toList] = some value) :
      fields name.toList = some value := by
    rwa [lookup_in_section hdoc htable hfields] at hv
  cases key with
  | aiProvider => exact decode_of_required hprovider (hin hv)
  | aiModel => exact decode_of_required hmodel (hin hv)
  | aiApiKey => exact decode_of_optional hapiKey (hin hv)
  | aiBaseUrl => exact decode_of_required hurl (hin hv)
  | aiTemperature => exact decode_of_required htemperature (hin hv)
  | aiMaxTokens => exact decode_of_required htokens (hin hv)
  | aiMaxSampleLength => exact decode_of_required hsample (hin hv)
  | aiRetryAttempts => exact decode_of_required hattempts (hin hv)
  | aiRetryDelayMs => exact decode_of_required hdelay (hin hv)
  | aiRequestTimeoutSeconds => exact decode_of_required htimeout (hin hv)
  | aiApiVersion => exact decode_of_optional hversion (hin hv)
  | _ => exact absurd hkey (by decide)

theorem decode_of_formats
    (h : required sections "formats" (deserializeFormats F) = some config.formats)
    (hkey : key.path.head? = some "formats".toList) (hv : F.lookup doc key.path = some value) :
    key.kind.decode F value = some (key.get config) := by
  obtain ⟨table, htable, hformats⟩ := exists_of_required h
  obtain ⟨fields, hfields, houtput, hstyling, hencoding, hconfidence⟩ :=
    deserializeFormats_eq_some hformats
  have hin {name : String} (hv : F.lookup doc ["formats".toList, name.toList] = some value) :
      fields name.toList = some value := by
    rwa [lookup_in_section hdoc htable hfields] at hv
  cases key with
  | formatsDefaultOutput => exact decode_of_required houtput (hin hv)
  | formatsPreserveStyling => exact decode_of_required hstyling (hin hv)
  | formatsDefaultEncoding => exact decode_of_required hencoding (hin hv)
  | formatsEncodingDetectionConfidence => exact decode_of_required hconfidence (hin hv)
  | _ => exact absurd hkey (by decide)

/-- The section on synchronization has one on voice activity in it. -/
theorem decode_of_sync (h : required sections "sync" (deserializeSync F) = some config.sync)
    (hkey : key.path.head? = some "sync".toList) (hv : F.lookup doc key.path = some value) :
    key.kind.decode F value = some (key.get config) := by
  obtain ⟨table, htable, hsync⟩ := exists_of_required h
  obtain ⟨fields, hfields, hmethod, hoffset, hvad⟩ := deserializeSync_eq_some hsync
  obtain ⟨vad, hvad, hvad'⟩ := exists_of_required hvad
  obtain ⟨vadFields, hvadFields, henabled, hsensitivity, hpadding, hduration⟩ :=
    deserializeVad_eq_some hvad'
  have hin {name : String} (hv : F.lookup doc ["sync".toList, name.toList] = some value) :
      fields name.toList = some value := by
    rwa [lookup_in_section hdoc htable hfields] at hv
  have hinVad {name : String}
      (hv : F.lookup doc ["sync".toList, "vad".toList, name.toList] = some value) :
      vadFields name.toList = some value := by
    rwa [lookup_of_section hdoc htable, lookup_in_section hfields hvad hvadFields] at hv
  cases key with
  | syncDefaultMethod => exact decode_of_required hmethod (hin hv)
  | syncMaxOffsetSeconds => exact decode_of_required hoffset (hin hv)
  | syncVadEnabled => exact decode_of_required henabled (hinVad hv)
  | syncVadSensitivity => exact decode_of_required hsensitivity (hinVad hv)
  | syncVadPaddingChunks => exact decode_of_required hpadding (hinVad hv)
  | syncVadMinSpeechDurationMs => exact decode_of_required hduration (hinVad hv)
  | _ => exact absurd hkey (by decide)

theorem decode_of_general
    (h : required sections "general" (deserializeGeneral F) = some config.general)
    (hkey : key.path.head? = some "general".toList) (hv : F.lookup doc key.path = some value) :
    key.kind.decode F value = some (key.get config) := by
  obtain ⟨table, htable, hgeneral⟩ := exists_of_required h
  obtain ⟨fields, hfields, hbackup, hjobs, htask, -, hbar, hidle, hsubtitle, haudio⟩ :=
    deserializeGeneral_eq_some hgeneral
  have hin {name : String} (hv : F.lookup doc ["general".toList, name.toList] = some value) :
      fields name.toList = some value := by
    rwa [lookup_in_section hdoc htable hfields] at hv
  cases key with
  | generalBackupEnabled => exact decode_of_required hbackup (hin hv)
  | generalMaxConcurrentJobs => exact decode_of_required hjobs (hin hv)
  | generalTaskTimeoutSeconds => exact decode_of_required htask (hin hv)
  | generalEnableProgressBar => exact decode_of_required hbar (hin hv)
  | generalWorkerIdleTimeoutSeconds => exact decode_of_required hidle (hin hv)
  | generalMaxSubtitleBytes => exact decode_of_required hsubtitle (hin hv)
  | generalMaxAudioBytes => exact decode_of_required haudio (hin hv)
  | _ => exact absurd hkey (by decide)

theorem decode_of_parallel
    (h : required sections "parallel" (deserializeParallel F) = some config.parallel)
    (hkey : key.path.head? = some "parallel".toList) (hv : F.lookup doc key.path = some value) :
    key.kind.decode F value = some (key.get config) := by
  obtain ⟨table, htable, hparallel⟩ := exists_of_required h
  obtain ⟨fields, hfields, hworkers, hoverflow, hqueue, hpriorities, hbalance⟩ :=
    deserializeParallel_eq_some hparallel
  have hin {name : String} (hv : F.lookup doc ["parallel".toList, name.toList] = some value) :
      fields name.toList = some value := by
    rwa [lookup_in_section hdoc htable hfields] at hv
  cases key with
  | parallelMaxWorkers => exact decode_of_required hworkers (hin hv)
  | parallelTaskQueueSize => exact decode_of_required hqueue (hin hv)
  | parallelEnableTaskPriorities => exact decode_of_required hpriorities (hin hv)
  | parallelAutoBalanceWorkers => exact decode_of_required hbalance (hin hv)
  | parallelOverflowStrategy => exact decode_of_required hoverflow (hin hv)
  | _ => exact absurd hkey (by decide)

/-- The section on translation may be missing, but not one that states something. -/
theorem decode_of_translation {translation : Option TranslationConfig}
    (h : optional sections "translation" (deserializeTranslation F) = some translation)
    (hsame : config.translation = translation.getD .default)
    (hkey : key.path.head? = some "translation".toList) (hv : F.lookup doc key.path = some value) :
    key.kind.decode F value = some (key.get config) := by
  have hin {name : String} (hv : F.lookup doc ["translation".toList, name.toList] = some value) :
      ∃ fields, fields name.toList = some value ∧
        required fields "batch_size" F.unsigned64 = some config.translation.batchSize ∧
        optional fields "default_target_language" F.string =
          some config.translation.defaultTargetLanguage := by
    obtain ⟨table, t, htable, ht, rfl⟩ := exists_of_optional h hdoc hv
    obtain ⟨fields, hfields, hbatch, hlanguage⟩ := deserializeTranslation_eq_some ht
    rw [lookup_in_section hdoc htable hfields] at hv
    rw [hsame]
    exact ⟨fields, hv, hbatch, hlanguage⟩
  cases key with
  | translationBatchSize =>
    obtain ⟨fields, hfield, hbatch, -⟩ := hin hv
    exact decode_of_required hbatch hfield
  | translationDefaultTargetLanguage =>
    obtain ⟨fields, hfield, -, hlanguage⟩ := hin hv
    exact decode_of_optional hlanguage hfield
  | _ => exact absurd hkey (by decide)

end Sections

/-- **A setting of a document that makes a configuration** is the one in there. -/
theorem decode_of_deserializeConfig {config : Config} {key : Key}
    (h : deserializeConfig F doc = some config) (hv : F.lookup doc key.path = some value) :
    key.kind.decode F value = some (key.get config) := by
  obtain ⟨sections, hdoc, hai, hformats, hsync, hgeneral, hparallel, ⟨translation, htranslation,
    hsame⟩, -⟩ := deserializeConfig_eq_some h
  have hsection : key.path.head? = some "ai".toList ∨ key.path.head? = some "formats".toList ∨
      key.path.head? = some "sync".toList ∨ key.path.head? = some "general".toList ∨
      key.path.head? = some "parallel".toList ∨ key.path.head? = some "translation".toList := by
    cases key <;> decide
  rcases hsection with hkey | hkey | hkey | hkey | hkey | hkey
  · exact decode_of_ai hdoc hai hkey hv
  · exact decode_of_formats hdoc hformats hkey hv
  · exact decode_of_sync hdoc hsync hkey hv
  · exact decode_of_general hdoc hgeneral hkey hv
  · exact decode_of_parallel hdoc hparallel hkey hv
  · exact decode_of_translation hdoc htranslation hsame hkey hv

/-- What is kept of a setting is what it is in canonical form. -/
theorem kept_get {config : Config} {key : Key} :
    key.kind.kept (key.get config) = key.get config.canonical := by
  cases key <;> rfl

/-- **What makes a configuration is all in it.** -/
theorem honoured_of_deserializeConfig {config : Config} {setting : Setting}
    (h : deserializeConfig F doc = some config) (hv : F.lookup doc setting.path = some value) :
    setting.Honoured F config.canonical value := by
  obtain ⟨sections, hdoc, hai, hformats, hsync, hgeneral, hparallel, ⟨translation, htranslation,
    -⟩, hloaded⟩ := deserializeConfig_eq_some h
  have hfield {α : Type} {name : String} {decode : V → Option α} {a : α}
      (hr : required sections name decode = some a)
      (hv : F.lookup doc [name.toList] = some value) : decode value = some a := by
    rw [lookup_field hdoc] at hv
    exact decode_of_required hr hv
  cases setting with
  | single key =>
    rw [Setting.Honoured, decode_of_deserializeConfig h hv, Option.map_some, kept_get]
  | workspace =>
    obtain ⟨general, hgeneral, hgeneral'⟩ := exists_of_required hgeneral
    obtain ⟨fields, hfields, -, -, -, hworkspace, -⟩ := deserializeGeneral_eq_some hgeneral'
    rw [Setting.path, lookup_of_section hdoc hgeneral, lookup_field hfields] at hv
    exact decode_of_required hworkspace hv
  | loadedFrom =>
    rw [Setting.path, lookup_field hdoc] at hv
    exact decode_of_optional hloaded hv
  | ai =>
    obtain ⟨fields, hfields, -⟩ := deserializeAi_eq_some (hfield hai hv)
    exact Option.isSome_of_mem hfields
  | formats =>
    obtain ⟨fields, hfields, -⟩ := deserializeFormats_eq_some (hfield hformats hv)
    exact Option.isSome_of_mem hfields
  | sync =>
    obtain ⟨fields, hfields, -⟩ := deserializeSync_eq_some (hfield hsync hv)
    exact Option.isSome_of_mem hfields
  | vad =>
    obtain ⟨sync, hsync, hsync'⟩ := exists_of_required hsync
    obtain ⟨fields, hfields, -, -, hvad⟩ := deserializeSync_eq_some hsync'
    rw [Setting.path, lookup_of_section hdoc hsync, lookup_field hfields] at hv
    obtain ⟨fields', hfields', -⟩ := deserializeVad_eq_some (decode_of_required hvad hv)
    exact Option.isSome_of_mem hfields'
  | general =>
    obtain ⟨fields, hfields, -⟩ := deserializeGeneral_eq_some (hfield hgeneral hv)
    exact Option.isSome_of_mem hfields
  | parallel =>
    obtain ⟨fields, hfields, -⟩ := deserializeParallel_eq_some (hfield hparallel hv)
    exact Option.isSome_of_mem hfields
  | translation =>
    obtain ⟨section_, t, hsection, ht, -⟩ := exists_of_optional htranslation hdoc hv
    rw [Setting.path, lookup_field hdoc, hsection] at hv
    obtain rfl := Option.some.inj hv
    obtain ⟨fields, hfields, -⟩ := deserializeTranslation_eq_some ht
    exact Option.isSome_of_mem hfields

end Deserialized

/-! ## What is salvaged -/

section Salvaged

variable {F : Format V} {doc value : V} {config : Config} {numCpus : UInt64}

theorem lookup_two {section_ name : Text} : F.lookup doc [section_, name] =
    (((F.entries doc).bind fun fields => fields section_).bind F.entries).bind
      fun fields => fields name := by
  simp only [Format.lookup, Option.bind_fun_some, Option.bind_assoc]

theorem exists_fields_of_lookup {section_ name : Text}
    (hv : F.lookup doc [section_, name] = some value) :
    ∃ fields, ((F.entries doc).bind fun fields => fields section_).bind F.entries = some fields ∧
      fields name = some value :=
  Option.bind_eq_some_iff.1 (lookup_two.symm.trans hv)

/-- Other settings are not salvaged. -/
theorem salvage_general : (salvage F doc config).general = config.general := by
  unfold salvage
  split <;> rfl

theorem salvage_loadedFrom : (salvage F doc config).loadedFrom = config.loadedFrom := by
  unfold salvage
  split <;> rfl

theorem get_salvage {key : Key} (h : key ∉ [.aiProvider, .aiModel, .aiBaseUrl, .aiApiKey]) :
    key.get (salvage F doc config) = key.get config := by
  unfold salvage
  split
  · rfl
  · cases key <;> first | rfl | exact absurd (by decide) h

/-- The texts that are salvaged. -/
theorem salvage_ai {fields : Text → Option V}
    (h : ((F.entries doc).bind fun fields => fields "ai".toList).bind F.entries = some fields) :
    (salvage F doc config).ai = { config.ai with
      apiKey := ((fields "apikey".toList).bind F.asStr).or config.ai.apiKey
      provider := ((fields "provider".toList).bind F.asStr).getD config.ai.provider
      model := ((fields "model".toList).bind F.asStr).getD config.ai.model
      baseUrl := ((fields "base_url".toList).bind F.asStr).getD config.ai.baseUrl } := by
  unfold salvage
  rw [h]

/-- A text that is taken over where it is one, or is the default. -/
theorem string_eq_getD_iff {text : Text} (hstring : ∀ s, F.asStr value = some s →
    F.string value = some s) : F.string value = some ((F.asStr value).getD text) ↔
      (F.asStr value).isSome ∨ F.string value = some text := by
  cases h : F.asStr value with
  | none => simp
  | some s => simp [hstring s h]

/-- Everything but a provider is kept as it is. -/
theorem honoured_single_iff {key : Key} (h : key ≠ .aiProvider) :
    (Setting.single key).Honoured F config value ↔
      key.kind.decode F value = some (key.get config) := by
  have hkept : key.kind.kept = id := by
    cases key <;> first | rfl | exact absurd rfl h
  rw [Setting.Honoured, hkept, Option.map_id, id]

theorem get_canonical {key : Key} (h : key ≠ .aiProvider) :
    key.get config.canonical = key.get config := by
  cases key <;> first | rfl | exact absurd rfl h

/-- **What is salvaged or the default is in what is loaded**, and nothing else is. -/
theorem honoured_salvage_iff (hstring : ∀ value s, F.asStr value = some s → F.string value = some s)
    {setting : Setting} (hv : F.lookup doc setting.path = some value) :
    setting.Honoured F (salvage F doc (.default numCpus)).canonical value ↔
      setting.Survives F numCpus doc value := by
  cases setting with
  | single key =>
    cases key with
    | aiProvider =>
      obtain ⟨fields, hfields, hname⟩ := exists_fields_of_lookup hv
      have hdefault : normalizeAiProvider AIConfig.default.provider = AIConfig.default.provider := by
        decide
      change (F.string value).map normalizeAiProvider =
        some (normalizeAiProvider (salvage F doc (.default numCpus)).ai.provider) ↔ _
      rw [salvage_ai hfields, hname, Option.bind_some, Setting.Survives]
      cases h : F.asStr value with
      | none => simp only [Option.getD_none, Config.default, hdefault, Option.isSome_none,
          Bool.false_eq_true, false_or]
      | some s => simp [hstring _ _ h]
    | aiModel =>
      obtain ⟨fields, hfields, hname⟩ := exists_fields_of_lookup hv
      rw [honoured_single_iff (by decide), get_canonical (by decide), Key.get, salvage_ai hfields,
        hname, Option.bind_some]
      exact string_eq_getD_iff (hstring value)
    | aiBaseUrl =>
      obtain ⟨fields, hfields, hname⟩ := exists_fields_of_lookup hv
      rw [honoured_single_iff (by decide), get_canonical (by decide), Key.get, salvage_ai hfields,
        hname, Option.bind_some]
      exact string_eq_getD_iff (hstring value)
    | aiApiKey =>
      obtain ⟨fields, hfields, hname⟩ := exists_fields_of_lookup hv
      have hlookup : F.lookup doc ["ai".toList, "apikey".toList] = fields "apikey".toList := by
        rw [lookup_two, hfields, Option.bind_some]
      rw [honoured_single_iff (by decide), get_canonical (by decide), Key.get, salvage_ai hfields,
        Setting.Survives, hlookup]
      exact iff_of_eq (congrArg (_ = some ·) Option.or_none)
    | _ =>
      rw [honoured_single_iff (by decide), get_canonical (by decide), get_salvage (by decide)]
      exact (honoured_single_iff (by decide)).symm
  | workspace =>
    exact iff_of_eq (congrArg (fun general : GeneralConfig => F.path value = some general.workspace)
      salvage_general)
  | loadedFrom =>
    exact iff_of_eq (congrArg ((F.path value).map some = some ·) salvage_loadedFrom)
  | _ => exact Iff.rfl

end Salvaged

/-! ## What is loaded -/

namespace Service

variable {S : Service V} {bytes : List UInt8} {doc : V} {config : Config} {s' : State}

/-- **What a file states is what is loaded** exactly when all of it makes a
configuration, or each setting is salvaged or the default. -/
theorem honoured_iff (henv : ∀ name, S.env name = none)
    (hfile : S.crates.build (S.defaultFile (some bytes)) (some bytes) (subxVariables S.env) =
      .ok doc)
    (hstring : ∀ value s, S.crates.format.asStr value = some s →
      S.crates.format.string value = some s)
    (h : S.getConfig.exec ⟨some bytes, none⟩ = (.ok config, s')) :
    (∀ (setting : Setting) value, S.crates.format.lookup doc setting.path = some value →
        setting.Honoured S.crates.format config value) ↔
      (deserializeConfig S.crates.format doc).isSome ∨
        ∀ (setting : Setting) value, S.crates.format.lookup doc setting.path = some value →
          setting.Survives S.crates.format S.numCpus doc value := by
  cases hload : S.loadAndValidate (some bytes) with
  | error e =>
    rw [exec_getConfig_of_error rfl hload] at h
    cases h
  | ok loaded =>
    rw [exec_getConfig_of_loaded rfl hload] at h
    obtain rfl := Except.ok.inj (Prod.mk.inj h).1
    obtain ⟨source, hsource, -, hconfig, -⟩ := loadAndValidate_eq_ok.1 hload
    rw [show S.var = fun _ => none from funext fun name => henv name.toList, overrides_none]
      at hconfig
    rw [Service.loaded, hfile] at hsource
    obtain rfl := Except.ok.inj hsource
    unfold fromDocument at hconfig
    cases hdoc : deserializeConfig S.crates.format doc with
    | some whole =>
      rw [hdoc, Option.getD_some] at hconfig
      subst hconfig
      exact iff_of_true (fun setting value hv => honoured_of_deserializeConfig hdoc hv) (.inl rfl)
    | none =>
      rw [hdoc, Option.getD_none] at hconfig
      subst hconfig
      simp only [Option.isSome_none, Bool.false_eq_true, false_or]
      exact forall₃_congr fun setting value hv => honoured_salvage_iff hstring hv

/-- What is loaded on a machine with a file and without variables. -/
theorem build_known_self {content : Text} {doc : Document} {texts : List (Config × Text)} :
    (known [(content, doc)] texts []).crates.build
      ((known [(content, doc)] texts []).defaultFile (some (utf8 content))) (some (utf8 content))
      (subxVariables (known [(content, doc)] texts []).env) = .ok doc :=
  build_known.trans (congrArg Except.ok (overlay_eq_self fun _ _ => ite_self _))

theorem exec_getConfig_known {content : Text} {doc : Document} {texts : List (Config × Text)}
    {config : Config} (hconfig : (fromDocument Document.format 8 doc).canonical = config)
    (hvalid : validateConfig webScheme config = .ok ()) :
    (known [(content, doc)] texts []).getConfig.exec ⟨some (utf8 content), none⟩ =
      (.ok config, ⟨some (utf8 content), some config⟩) := by
  refine exec_getConfig_of_loaded rfl (loadAndValidate_eq_ok.2 ⟨fromDocument Document.format 8 doc,
    ?_, ⟨_, rfl⟩, ?_, hvalid⟩)
  · rw [loaded, build_known_self]
    rfl
  · have hvar : (known [(content, doc)] texts []).var = fun _ => none := rfl
    rw [hvar, overrides_none, hconfig]

/-- A file with everything in it is loaded as it is. -/
theorem honoured_iff_withModel :
    (∀ (setting : Setting) value, Document.format.lookup withModel.document setting.path =
        some value → setting.Honoured Document.format withModel.skipLegacy value) ↔
      (deserializeConfig Document.format withModel.document).isSome ∨
        ∀ (setting : Setting) value, Document.format.lookup withModel.document setting.path =
          some value → setting.Survives Document.format 8 withModel.document value :=
  honoured_iff (S := known [(withModelText, withModel.document)] [] []) (fun _ => rfl)
    build_known_self (fun _ _ h => h)
    (exec_getConfig_known (by rw [fromDocument, deserializeConfig_withModel]; rfl)
      validateConfig_withModel)

/-- A file that asks for backups, and says nothing else. -/
def backupContent : Text := "[general]\nbackup_enabled = true\n".toList

/-- What is in it. -/
def backupDocument : Document :=
  .table [("general".toList, .table [("backup_enabled".toList, .flag true)])]

/-- **Backups that a file asks for are not made.** -/
theorem backup_is_not_honoured : ¬ ∀ (V : Type) (S : Service V) (bytes : List UInt8) (doc : V)
    (config : Config) (s' : State), (∀ name, S.env name = none) →
    S.crates.build (S.defaultFile (some bytes)) (some bytes) (subxVariables S.env) = .ok doc →
    (∀ value s, S.crates.format.asStr value = some s → S.crates.format.string value = some s) →
    S.getConfig.exec ⟨some bytes, none⟩ = (.ok config, s') →
    ∀ (setting : Setting) value, S.crates.format.lookup doc setting.path = some value →
      setting.Honoured S.crates.format config value := by
  intro h
  have hconfig : (fromDocument Document.format 8 backupDocument).canonical = .default 8 := by
    decide +kernel
  have hhonoured := h _ (known [(backupContent, backupDocument)] [] []) _ _ _ _ (fun _ => rfl)
    build_known_self (fun _ _ h => h)
    (exec_getConfig_known hconfig validateConfig_default)
    (.single .generalBackupEnabled) (.flag true) rfl
  cases hhonoured

end Service

end SubxCore.Configuration
