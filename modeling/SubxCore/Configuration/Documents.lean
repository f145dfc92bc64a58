import SubxCore.Configuration.DefaultFile
import SubxCore.Configuration.FieldRules
/-!
# Documents as trees

Documents with just the values that settings have, and the document that a
configuration is written as. `Crates.known` are the crates on files whose
content is known.
-/

namespace SubxCore.Configuration

open Text Kind

/-- A document, and what is in it. -/
inductive Document
  | text (value : Text)
  | integer (value : ℤ)
  | float (value : F32)
  | flag (value : Bool)
  | table (fields : List (Text × Document))

namespace Document

/-- The value of a field. -/
def field (name : Text) : Document → Option Document
  | table fields => fields.lookup name
  | _ => none

/-- A text, if it is one. -/
def asText : Document → Option Text
  | text value => some value
  | _ => none

/-- How documents are read. -/
def format : Format Document where
  entries doc := match doc with
    | table fields => some fun name => fields.lookup name
    | _ => none
  string := asText
  boolean doc := match doc with
    | flag value => some value
    | _ => none
  unsigned32 doc := match doc with
    | integer value => if 0 ≤ value ∧ value < 2 ^ 32 then some (.ofNat value.toNat) else none
    | _ => none
  unsigned64 doc := match doc with
    | integer value => if 0 ≤ value ∧ value < 2 ^ 64 then some (.ofNat value.toNat) else none
    | _ => none
  float doc := match doc with
    | float value => some value
    | _ => none
  strategy doc := match doc with
    | text value => [.block, .drop, .expand, .dropOldest, .reject].find? (shownStrategy · = value)
    | _ => none
  path := asText
  asStr := asText

/-- A value put at a path. -/
def insert : List Text → Document → Document → Document
  | [], value, _ => value
  | name :: path, value, doc =>
    let rest := match doc with
      | table fields => fields
      | _ => []
    table ((name, insert path value ((doc.field name).getD (table []))) :: rest)

/-- The variables of the program over a document. -/
def overlay (env : Environment) (doc : Document) : Document :=
  let put (name : String) (path : List String) (doc : Document) : Document :=
    match env name.toList with
    | some value => insert (path.map String.toList) (text value) doc
    | none => doc
  put "SUBX_AI_PROVIDER" ["ai", "provider"] (put "SUBX_AI_APIKEY" ["ai", "apikey"]
    (put "SUBX_AI_BASE_URL" ["ai", "base", "url"] (put "SUBX_AI_MODEL" ["ai", "model"]
      (put "SUBX_CONFIG_PATH" ["config", "path"] doc))))

/-- A field that is written if there is something to write. -/
def written (name : String) : Option Text → List (Text × Document)
  | some value => [(name.toList, text value)]
  | none => []

/-- A number that is written. -/
def number32 (n : UInt32) : Document := integer n.toNat

/-- A number that is written. -/
def number64 (n : UInt64) : Document := integer n.toNat

end Document

open Document

/-! ## Configurations as documents -/

def AIConfig.document (ai : AIConfig) : Document :=
  table ([("provider".toList, text ai.provider), ("model".toList, text ai.model),
    ("base_url".toList, text ai.baseUrl),
    ("max_sample_length".toList, number64 ai.maxSampleLength),
    ("temperature".toList, float ai.temperature), ("max_tokens".toList, number32 ai.maxTokens),
    ("retry_attempts".toList, number32 ai.retryAttempts),
    ("retry_delay_ms".toList, number64 ai.retryDelayMs),
    ("request_timeout_seconds".toList, number64 ai.requestTimeoutSeconds)] ++
    (written "api_key" ai.apiKey ++ written "api_version" ai.apiVersion))

def FormatsConfig.document (formats : FormatsConfig) : Document :=
  table [("default_output".toList, text formats.defaultOutput),
    ("preserve_styling".toList, flag formats.preserveStyling),
    ("default_encoding".toList, text formats.defaultEncoding),
    ("encoding_detection_confidence".toList, float formats.encodingDetectionConfidence)]

def VadConfig.document (vad : VadConfig) : Document :=
  table [("enabled".toList, flag vad.enabled), ("sensitivity".toList, float vad.sensitivity),
    ("padding_chunks".toList, number32 vad.paddingChunks),
    ("min_speech_duration_ms".toList, number32 vad.minSpeechDurationMs)]

def SyncConfig.document (sync : SyncConfig) : Document :=
  table [("default_method".toList, text sync.defaultMethod),
    ("max_offset_seconds".toList, float sync.maxOffsetSeconds),
    ("vad".toList, sync.vad.document)]

def GeneralConfig.document (general : GeneralConfig) : Document :=
  table [("backup_enabled".toList, flag general.backupEnabled),
    ("max_concurrent_jobs".toList, number64 general.maxConcurrentJobs),
    ("task_timeout_seconds".toList, number64 general.taskTimeoutSeconds),
    ("workspace".toList, text general.workspace),
    ("enable_progress_bar".toList, flag general.enableProgressBar),
    ("worker_idle_timeout_seconds".toList, number64 general.workerIdleTimeoutSeconds),
    ("max_subtitle_bytes".toList, number64 general.maxSubtitleBytes),
    ("max_audio_bytes".toList, number64 general.maxAudioBytes)]

def ParallelConfig.document (parallel : ParallelConfig) : Document :=
  table [("max_workers".toList, number64 parallel.maxWorkers),
    ("overflow_strategy".toList, text (shownStrategy parallel.overflowStrategy)),
    ("task_queue_size".toList, number64 parallel.taskQueueSize),
    ("enable_task_priorities".toList, flag parallel.enableTaskPriorities),
    ("auto_balance_workers".toList, flag parallel.autoBalanceWorkers)]

def TranslationConfig.document (translation : TranslationConfig) : Document :=
  table (("batch_size".toList, number64 translation.batchSize) ::
    written "default_target_language" translation.defaultTargetLanguage)

/-- The document that a configuration is written as. -/
def Config.document (config : Config) : Document :=
  table ([("ai".toList, config.ai.document), ("formats".toList, config.formats.document),
    ("sync".toList, config.sync.document), ("general".toList, config.general.document),
    ("parallel".toList, config.parallel.document),
    ("translation".toList, config.translation.document)] ++
    written "loaded_from" config.loadedFrom)

/-- **A document that a configuration was written to**, where nothing is put over it and
nothing under it. -/
theorem written_document {var : String → Option Text} {config : Config}
    (hdoc : deserializeConfig Document.format config.document = some config.skipLegacy)
    (hprovider : var "SUBX_AI_PROVIDER" = none) (hkey : var "SUBX_AI_APIKEY" = none)
    (hmodel : var "SUBX_AI_MODEL" = none) :
    Fallback.silent.Written Document.format var config config.document where
  whole := by
    rw [hdoc]
    simp only [Fallback.completed, Fallback.silent, Fallback.fill_silent]
    simp [Config.overlaid, hprovider, hmodel]
  apikey := by
    rw [hkey]
    obtain ⟨⟨_, key, _, _, _, _, _, _, _, _, version⟩, _, _, _, _, _, _⟩ := config
    cases key <;> cases version <;> rfl
  provider := by
    simp only [Config.overlaid, hprovider]
    rfl
  model := by
    simp only [Config.overlaid, hmodel]
    rfl
  baseUrl := rfl
/-! ## The crates on files that are known -/

/-- The crates, as far as files with one of these contents and configurations with
one of these texts go, where there is no `config/default`. -/
def Crates.known (contents : List (Text × Document)) (texts : List (Config × Text)) :
    Crates Document where
  format := Document.format
  build _ file env :=
    match file with
    | none => .ok (overlay env (table []))
    | some bytes =>
      match contents.find? (utf8 ·.1 = bytes) with
      | some (_, doc) => .ok (overlay env doc)
      | none => .error "TOML parse error".toList
  fromStr content :=
    match (contents.lookup content).bind (deserializeConfig Document.format) with
    | some config => .ok config
    | none => .error "TOML parse error".toList
  toStringPretty config :=
    match texts.find? (·.1 = config) with
    | some (_, content) => .ok content
    | none => .error "unsupported value".toList
  urlScheme := webScheme

section Known

variable {content : Text} {doc : Document} {config : Config} {env : Environment}
  {contents : List (Text × Document)} {texts : List (Config × Text)}

theorem build_known {defaultFile : ConfigFile} :
    (Crates.known ((content, doc) :: contents) texts).build defaultFile (some (utf8 content)) env =
      .ok (overlay env doc) := by
  simp [Crates.known]

theorem fromStr_known (h : deserializeConfig Document.format doc = some config) :
    (Crates.known ((content, doc) :: contents) texts).fromStr content = .ok config := by
  simp [Crates.known, List.lookup_cons, h]

theorem toStringPretty_known :
    (Crates.known contents ((config, content) :: texts)).toStringPretty config = .ok content := by
  simp [Crates.known]

theorem mem_of_toStringPretty
    (h : (Crates.known contents texts).toStringPretty config = .ok content) :
    (config, content) ∈ texts := by
  simp only [Crates.known] at h
  split at h
  · next written content' hfind =>
    obtain rfl := Except.ok.inj h
    have hmem := List.mem_of_find?_eq_some hfind
    rwa [show written = config by simpa using List.find?_some hfind] at hmem
  · cases h

end Known

/-- The text of a configuration with the default settings in all the sections but
that of the AI service. -/
@[irreducible] def textWithDefaults (ai : String) : Text :=
  ("[ai]\n" ++ ai ++ "\n[formats]\ndefault_output = \"srt\"\npreserve_styling = false\n" ++
    "default_encoding = \"utf-8\"\nencoding_detection_confidence = 0.800000011920929\n" ++
    "\n[sync]\ndefault_method = \"auto\"\nmax_offset_seconds = 60.0\n" ++
    "\n[sync.vad]\nenabled = true\nsensitivity = 0.25\npadding_chunks = 3\n" ++
    "min_speech_duration_ms = 300\n\n[general]\nbackup_enabled = false\n" ++
    "max_concurrent_jobs = 4\ntask_timeout_seconds = 300\nworkspace = \".\"\n" ++
    "enable_progress_bar = true\nworker_idle_timeout_seconds = 60\n" ++
    "max_subtitle_bytes = 52428800\nmax_audio_bytes = 2147483648\n" ++
    "\n[parallel]\nmax_workers = 8\noverflow_strategy = \"Block\"\ntask_queue_size = 1000\n" ++
    "enable_task_priorities = false\nauto_balance_workers = true\n" ++
    "\n[translation]\nbatch_size = 40\n").toList

/-- The defaults with a model of their own. -/
def withModel : Config := { Config.default 8 with ai.model := "gpt-4o".toList }

/-- Their text. -/
def withModelText : Text := textWithDefaults <|
  "provider = \"openai\"\nmodel = \"gpt-4o\"\nbase_url = \"https://api.openai.com/v1\"\n" ++
  "max_sample_length = 3000\ntemperature = 0.30000001192092896\nmax_tokens = 10000\n" ++
  "retry_attempts = 3\nretry_delay_ms = 1000\nrequest_timeout_seconds = 120\n"

/-- A machine with eight processors, some variables, files with one of these contents,
and no `config/default`. -/
def Service.known (contents : List (Text × Document)) (texts : List (Config × Text))
    (vars : List (String × String)) : Service Document where
  crates := .known contents texts
  env name := (vars.find? (·.1.toList = name)).map (·.2.toList)
  defaultFile _ := none
  configDir := some "/home/user/.config".toList
  numCpus := 8

end SubxCore.Configuration
