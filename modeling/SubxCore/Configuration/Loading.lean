import SubxCore.Common.Run
import SubxCore.Common.Utf8
import SubxCore.Configuration.Deserialize
import SubxCore.Configuration.Validator
/-!
# Loading the configuration

The two ways in which a configuration is read: `load_and_validate`, which
puts the environment over the file and checks the sections, and
`load_for_repair`, which reads the file alone and checks the fields. The
crates below them are parameters: what the sources of a configuration come
to, what is read of a TOML file, what is written to one, and the scheme of a
URL. There are three sources: the variables over the configuration file, and
that over `config/default` in the directory the program runs in.
-/

namespace SubxCore.Configuration

open Text

/-- Environment variables. -/
abbrev Environment := Text → Option Text

/-- The content of the configuration file, if there is one. -/
abbrev ConfigFile := Option (List UInt8)

/-- The variables that `Environment::with_prefix("SUBX")` looks at. -/
def subxVariables (env : Environment) : Environment := fun name =>
  if "subx_".toList <+: name.map Char.toLower then env name else none

/-- The crates that configurations are read and written with. -/
structure Crates (V : Type) where
  format : Format V
  /-- The sources put together: `config/default`, the file over it, and the variables over
  both. -/
  build : (defaultFile file : ConfigFile) → Environment → Except Text V
  /-- `toml::from_str::<Config>`. -/
  fromStr : Text → Except Text Config
  /-- `toml::to_string_pretty`. -/
  toStringPretty : Config → Except Text Text
  /-- The scheme of a URL that can be parsed. -/
  urlScheme : Text → Option Text

/-- What `ProductionConfigService` is made of, and the machine it runs on. -/
structure Service (V : Type) where
  crates : Crates V
  env : Environment
  /-- What is in `config/default` with this in the configuration file, which may be the
  same one. -/
  defaultFile : ConfigFile → ConfigFile
  configDir : Option Text
  numCpus : UInt64

variable {V : Type}

/-- The variable of a name. -/
def Service.var (S : Service V) (name : String) : Option Text := S.env name.toList

/-! ## Overrides -/

/-- The overrides by `SUBX_AI_*`, and the provider in its canonical form. -/
def subxOverrides (var : String → Option Text) (ai : AIConfig) : AIConfig :=
  { ai with
    provider := normalizeAiProvider ((var "SUBX_AI_PROVIDER").getD ai.provider)
    apiKey := (var "SUBX_AI_APIKEY").or ai.apiKey
    baseUrl := (var "SUBX_AI_BASE_URL").getD ai.baseUrl
    model := (var "SUBX_AI_MODEL").getD ai.model }

/-- The overrides of a local provider. -/
def localOverrides (var : String → Option Text) (ai : AIConfig) : AIConfig :=
  { ai with
    baseUrl := if (var "SUBX_AI_BASE_URL").isNone then
      (var "LOCAL_LLM_BASE_URL").getD ai.baseUrl else ai.baseUrl
    apiKey := if (var "SUBX_AI_APIKEY").isNone then
      (var "LOCAL_LLM_API_KEY").or ai.apiKey else ai.apiKey }

/-- A key that comes with a provider. -/
def switchProvider (key : Option Text) (provider : String) (ai : AIConfig) : AIConfig :=
  match key with
  | some key => { ai with provider := provider.toList, apiKey := some key }
  | none => ai

/-- The overrides of a hosted provider. -/
def hostedOverrides (var : String → Option Text) (ai : AIConfig) : AIConfig :=
  let ai := switchProvider (var "OPENROUTER_API_KEY") "openrouter" ai
  let ai := { ai with apiKey := if ai.apiKey.isNone then var "OPENAI_API_KEY" else ai.apiKey }
  let ai := { ai with baseUrl := (var "OPENAI_BASE_URL").getD ai.baseUrl }
  let ai := switchProvider (var "AZURE_OPENAI_API_KEY") "azure-openai" ai
  let ai := { ai with baseUrl := (var "AZURE_OPENAI_ENDPOINT").getD ai.baseUrl }
  let ai := { ai with apiVersion := (var "AZURE_OPENAI_API_VERSION").or ai.apiVersion }
  let ai := { ai with model := (var "AZURE_OPENAI_DEPLOYMENT_ID").getD ai.model }
  { ai with provider := normalizeAiProvider ai.provider }

/-- All the overrides: the provider decides which of the others apply. -/
def overrides (var : String → Option Text) (config : Config) : Config :=
  let ai := subxOverrides var config.ai
  { config with
    ai := if ai.provider = "local".toList then localOverrides var ai else hostedOverrides var ai }

/-! ## The strict path -/

/-- The texts that are kept of a document which does not make a configuration, in
the place of those of another one. -/
def salvage (F : Format V) (doc : V) (config : Config) : Config :=
  match ((F.entries doc).bind fun fields => fields "ai".toList).bind F.entries with
  | none => config
  | some fields =>
    let text (name : String) : Option Text := (fields name.toList).bind F.asStr
    { config with ai := { config.ai with
        apiKey := (text "apikey").or config.ai.apiKey
        provider := (text "provider").getD config.ai.provider
        model := (text "model").getD config.ai.model
        baseUrl := (text "base_url").getD config.ai.baseUrl } }

/-- The configuration of a document, or what is salvaged of one. -/
def fromDocument (F : Format V) (numCpus : UInt64) (doc : V) : Config :=
  (deserializeConfig F doc).getD (salvage F doc (.default numCpus))

/-- `get_config_file_path`. -/
def Service.configFilePath (S : Service V) : Except SubXError Text :=
  match S.var "SUBX_CONFIG_PATH" with
  | some path => .ok path
  | none =>
    match S.configDir with
    | some dir => .ok (dir ++ "/subx/config.toml".toList)
    | none => .error (.config "Unable to determine config directory".toList)

/-- What the sources of the configuration give, before the overrides. -/
def Service.loaded (S : Service V) (file : ConfigFile) : Except SubXError Config :=
  match S.crates.build (S.defaultFile file) file (subxVariables S.env) with
  | .error e => .error (.config ("Failed to build configuration: ".toList ++ e))
  | .ok doc => .ok (fromDocument S.crates.format S.numCpus doc)

/-- `load_and_validate`. -/
def Service.loadAndValidate (S : Service V) (file : ConfigFile) : Except SubXError Config := do
  let loaded ← S.loaded file
  let config := overrides S.var loaded
  let _ ← S.configFilePath
  (validateConfig S.crates.urlScheme config).mapError fun e =>
    .config ("Configuration validation failed: ".toList ++ e.display)
  return config

/-- **What is loaded**: the sources and the overrides, once validated. -/
theorem Service.loadAndValidate_eq_ok {S : Service V} {file : ConfigFile} {config : Config} :
    S.loadAndValidate file = .ok config ↔ ∃ loaded, S.loaded file = .ok loaded ∧
      (∃ path, S.configFilePath = .ok path) ∧ config = overrides S.var loaded ∧
      validateConfig S.crates.urlScheme config = .ok () := by
  simp only [loadAndValidate, Run.bind_eq_ok, Run.mapError_eq_ok]
  constructor
  · rintro ⟨loaded, hloaded, path, hpath, u, hvalid, hconfig⟩
    cases hconfig
    exact ⟨loaded, hloaded, ⟨path, hpath⟩, rfl, hvalid⟩
  · rintro ⟨loaded, hloaded, ⟨path, hpath⟩, rfl, hvalid⟩
    exact ⟨loaded, hloaded, path, hpath, (), hvalid, rfl⟩

/-! ## The tolerant path -/

/-- A configuration with its provider in canonical form. -/
def Config.canonical (config : Config) : Config :=
  { config with ai.provider := normalizeAiProvider config.ai.provider }

/-- `fs::read_to_string` of a file that is there. -/
def readToString (path : Text) (bytes : List UInt8) : Except SubXError Text :=
  match fromUtf8 bytes with
  | some content => .ok content
  | none => .error (.config ("Failed to read configuration file ".toList ++ path ++ ": ".toList ++
      "stream did not contain valid UTF-8".toList))

/-- `load_for_repair`. -/
def Service.loadForRepair (S : Service V) (file : ConfigFile) : Except SubXError Config := do
  let path ← S.configFilePath
  match file with
  | none => return .default S.numCpus
  | some bytes =>
    let content ← readToString path bytes
    let config ← (S.crates.fromStr content).mapError fun e =>
      .config ("Failed to parse configuration file ".toList ++ path ++ ": ".toList ++ e)
    validateAllFields S.crates.urlScheme config.canonical
    return config.canonical

/-- What is shown of a file that is there. -/
theorem Service.loadForRepair_eq_ok {S : Service V} {bytes : List UInt8} {config : Config} :
    S.loadForRepair (some bytes) = .ok config ↔ ∃ content written,
      (∃ path, S.configFilePath = .ok path) ∧ fromUtf8 bytes = some content ∧
      S.crates.fromStr content = .ok written ∧ config = written.canonical ∧
      validateAllFields S.crates.urlScheme config = .ok () := by
  simp only [loadForRepair, Run.bind_eq_ok, Run.mapError_eq_ok]
  constructor
  · rintro ⟨path, hpath, content, hcontent, written, hwritten, u, hvalid, hconfig⟩
    cases hconfig
    refine ⟨content, written, ⟨path, hpath⟩, ?_, hwritten, rfl, hvalid⟩
    unfold readToString at hcontent
    split at hcontent
    · next text htext =>
      cases hcontent
      exact htext
    · cases hcontent
  · rintro ⟨content, written, ⟨path, hpath⟩, hcontent, hwritten, rfl, hvalid⟩
    exact ⟨path, hpath, content, by rw [readToString, hcontent], written, hwritten, (), hvalid, rfl⟩

end SubxCore.Configuration
