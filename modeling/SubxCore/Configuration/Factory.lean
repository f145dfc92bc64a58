import SubxCore.Configuration.FieldRules
import SubxCore.Translation.Engine
/-!
# Components out of a configuration

The factory makes the client of the provider a configuration names, after checks of its own.
They are not those of `validate_config`: a configuration that is accepted there may name a
provider without a client, or leave out the key or the URL of a hosted one.
`createAiProvider_of_valid` says that nothing else goes wrong, and what the clients are made
with. The parser of URLs is a parameter; the warning for keys sent over plain HTTP is left out.
-/

namespace SubxCore.Configuration

open Text

/-- Why a text is no URL. -/
inductive UrlError
  | emptyHost
  | other (message : Text)
  deriving DecidableEq, Repr

/-- The text of the error. -/
def UrlError.display : UrlError → Text
  | .emptyHost => "empty host".toList
  | .other message => message

/-- A URL, as far as it is looked at. -/
structure ParsedUrl where
  scheme : Text
  host : Option Text
  deriving DecidableEq, Repr

/-- A parser of URLs. -/
abbrev UrlParser := Text → Except UrlError ParsedUrl

/-- The scheme it finds, which is all that the validator asks for. -/
def UrlParser.scheme (parseUrl : UrlParser) (url : Text) : Option Text :=
  (parseUrl url).toOption.map ParsedUrl.scheme

/-- **URLs are parsed as they should be**: one of the web has a host, and the empty text is
none. -/
structure UrlParser.Sound (parseUrl : UrlParser) : Prop where
  host : ∀ url parsed, parseUrl url = .ok parsed →
    parsed.scheme = "http".toList ∨ parsed.scheme = "https".toList → parsed.host ≠ none
  empty : ∀ parsed, parseUrl [] ≠ .ok parsed

/-! ## Clients -/

/-- What every client is made with. -/
structure ClientSettings where
  model : Text
  temperature : F32
  maxTokens : UInt32
  retryAttempts : UInt32
  retryDelayMs : UInt64
  baseUrl : Text
  requestTimeoutSeconds : UInt64
  deriving DecidableEq

/-- The settings out of a configuration, the URL without the slashes at its end. -/
def ClientSettings.ofConfig (ai : AIConfig) : ClientSettings where
  model := ai.model
  temperature := ai.temperature
  maxTokens := ai.maxTokens
  retryAttempts := ai.retryAttempts
  retryDelayMs := ai.retryDelayMs
  baseUrl := ai.baseUrl.rdropWhile (· = '/')
  requestTimeoutSeconds := ai.requestTimeoutSeconds

/-- A client of a provider. -/
inductive AIProvider
  | openai (apiKey : Text) (settings : ClientSettings)
  | openrouter (apiKey : Text) (settings : ClientSettings)
  | azureOpenai (apiKey apiVersion : Text) (settings : ClientSettings)
  | localLlm (apiKey : Option Text) (settings : ClientSettings)
  deriving DecidableEq

def AIProvider.settings : AIProvider → ClientSettings
  | .openai _ settings => settings
  | .openrouter _ settings => settings
  | .azureOpenai _ _ settings => settings
  | .localLlm _ settings => settings

variable (parseUrl : UrlParser)

/-- `validate_base_url` of the OpenAI and of the OpenRouter client. -/
def validateBaseUrl (url : Text) : Check :=
  match parseUrl url with
  | .error e => .error (.config ("Invalid base URL: ".toList ++ e.display))
  | .ok parsed => do
    refuseIf (parsed.scheme ∉ ["http", "https"].map String.toList)
      "Base URL must use http or https protocol".toList
    refuseIf (parsed.host = none) "Base URL must contain a valid hostname".toList

/-- `OpenAIClient::from_config`. -/
def openaiFromConfig (ai : AIConfig) : Except SubXError AIProvider :=
  match ai.apiKey with
  | none => .error (.config "Missing OpenAI API Key".toList)
  | some apiKey => do
    validateBaseUrl parseUrl ai.baseUrl
    return .openai apiKey (.ofConfig ai)

/-- `OpenRouterClient::from_config`. -/
def openrouterFromConfig (ai : AIConfig) : Except SubXError AIProvider :=
  match ai.apiKey with
  | none => .error (.config "Missing OpenRouter API Key".toList)
  | some apiKey => do
    validateBaseUrl parseUrl ai.baseUrl
    return .openrouter apiKey (.ofConfig ai)

/-- `DEFAULT_AZURE_API_VERSION`. -/
def defaultAzureApiVersion : Text := "2025-04-01-preview".toList

/-- The check of the endpoint of Azure OpenAI, which does not ask for a host. -/
def validateEndpoint (url : Text) : Check :=
  match parseUrl url with
  | .error .emptyHost => .error (.config "Azure OpenAI endpoint missing host".toList)
  | .error e => .error (.config ("Invalid Azure OpenAI endpoint: ".toList ++ e.display))
  | .ok parsed => refuseIf (parsed.scheme ∉ ["http", "https"].map String.toList)
      "Azure OpenAI endpoint must use http or https".toList

/-- `AzureOpenAIClient::from_config`. -/
def azureFromConfig (ai : AIConfig) : Except SubXError AIProvider :=
  match ai.apiKey.filter fun key => trim key ≠ [] with
  | none => .error (.config "Missing Azure OpenAI API Key".toList)
  | some apiKey => do
    refuseIf (trim ai.model = []) "Missing Azure OpenAI deployment name in model field".toList
    validateEndpoint parseUrl ai.baseUrl
    return .azureOpenai apiKey (ai.apiVersion.getD defaultAzureApiVersion) (.ofConfig ai)

/-- `LocalLLMClient::from_config`, which keeps a key that is not blank, trimmed. -/
def localFromConfig (ai : AIConfig) : Except SubXError AIProvider := do
  refuseIf (trim ai.baseUrl = []) "ai.base_url is required for the local provider".toList
  return .localLlm ((ai.apiKey.map trim).filter (· ≠ [])) (.ofConfig ai)

/-! ## The factory -/

/-- `validate_ai_config` of the factory. -/
def validateClientConfig (ai : AIConfig) : Check := do
  refuseIf (normalizeAiProvider ai.provider ≠ "local".toList ∧ trim (ai.apiKey.getD []) = [])
    "AI API key is required. Set ai.api_key in configuration or use environment variable.".toList
  refuseIf (trim ai.model = []) "AI model is required. Set ai.model in configuration.".toList
  refuseIf (ai.temperature < f32 0 0 ∨ f32 2 0 < ai.temperature)
    "AI temperature must be between 0.0 and 2.0.".toList
  refuseIf (ai.maxTokens = 0) "AI max_tokens must be greater than 0.".toList

/-- `create_ai_provider`. -/
def createAiProvider (ai : AIConfig) : Except SubXError AIProvider :=
  let canonical := normalizeAiProvider ai.provider
  if canonical = "openai".toList then do
    validateClientConfig ai
    openaiFromConfig parseUrl ai
  else if canonical = "openrouter".toList then do
    validateClientConfig ai
    openrouterFromConfig parseUrl ai
  else if canonical = "azure-openai".toList then do
    validateClientConfig ai
    azureFromConfig parseUrl ai
  else if canonical = "local".toList then do
    validateClientConfig ai
    localFromConfig ai
  else
    .error (.config ("Unsupported AI provider: ".toList ++ canonical ++
      ". Supported providers: openai, openrouter, anthropic, azure-openai, local".toList))

/-- `create_translation_engine`: the client and the engine. -/
def createTranslationEngine (config : Config) :
    Except SubXError (AIProvider × TranslationEngine) := do
  let provider ← createAiProvider parseUrl config.ai
  let engine ← TranslationEngine.new config.translation.batchSize.toNat
  return (provider, engine)

variable {parseUrl : UrlParser} {ai : AIConfig} {config : Config} {url : Text}
variable {client : AIProvider}

/-! ## URLs -/

theorem exists_parsed (h : parseUrl.scheme url = some "https".toList) :
    ∃ parsed, parseUrl url = .ok parsed ∧ parsed.scheme = "https".toList := by
  unfold UrlParser.scheme at h
  rcases hparse : parseUrl url with e | parsed
  · rw [hparse] at h
    cases h
  · rw [hparse] at h
    exact ⟨parsed, rfl, Option.some.inj h⟩

/-- The checks of the clients let HTTPS through. -/
theorem validateBaseUrl_of_https (hsound : parseUrl.Sound)
    (h : parseUrl.scheme url = some "https".toList) : validateBaseUrl parseUrl url = .ok () := by
  obtain ⟨parsed, hparse, hscheme⟩ := exists_parsed h
  rw [validateBaseUrl, hparse]
  dsimp only
  rw [refuseIf, if_neg (by rw [hscheme]; decide), refuseIf,
    if_neg (hsound.host url parsed hparse (.inr hscheme))]
  rfl

theorem validateEndpoint_of_https (h : parseUrl.scheme url = some "https".toList) :
    validateEndpoint parseUrl url = .ok () := by
  obtain ⟨parsed, hparse, hscheme⟩ := exists_parsed h
  rw [validateEndpoint, hparse]
  dsimp only
  rw [refuseIf, if_neg (by rw [hscheme]; decide)]

/-- And none lets a URL through that is none. -/
theorem exists_parsed_of_validateBaseUrl (h : validateBaseUrl parseUrl url = .ok ()) :
    ∃ parsed, parseUrl url = .ok parsed := by
  unfold validateBaseUrl at h
  split at h
  · cases h
  next parsed hparse => exact ⟨parsed, hparse⟩

theorem exists_parsed_of_validateEndpoint (h : validateEndpoint parseUrl url = .ok ()) :
    ∃ parsed, parseUrl url = .ok parsed := by
  unfold validateEndpoint at h
  split at h
  · cases h
  · cases h
  next parsed hparse => exact ⟨parsed, hparse⟩

/-! ## What the factory checks again -/

/-- A hosted provider. -/
def IsHosted (ai : AIConfig) : Prop :=
  normalizeAiProvider ai.provider ∈ ["openai", "openrouter", "azure-openai"].map String.toList

/-- The checks of the factory add nothing but the key to those of the validator. -/
theorem validateClientConfig_iff {urlScheme : Text → Option Text}
    (h : (validateProvider urlScheme ai).passes = true)
    (hne : normalizeAiProvider ai.provider ≠ "anthropic".toList) :
    validateClientConfig ai = .ok () ↔
      (normalizeAiProvider ai.provider = "local".toList ∨ trim (ai.apiKey.getD []) ≠ []) := by
  obtain ⟨-, -, hmodel, htemperature, hendpoint⟩ := passes_validateProvider.1 h
  have htokens : ai.maxTokens ≠ 0 := (UInt32.pos_iff_ne_zero).1 (hendpoint.maxTokens hne)
  rw [← passes_iff]
  simp only [validateClientConfig, passes_bind, passes_refuseIf, Bool.and_eq_true,
    Bool.not_eq_true', decide_eq_false_iff_not, not_and_or, not_not, not_or]
  exact ⟨And.left, fun hkey => ⟨hkey, hmodel.1, htemperature, htokens⟩⟩

theorem scheme_of_hosted {urlScheme : Text → Option Text}
    (h : (validateProvider urlScheme ai).passes = true) (hhosted : IsHosted ai)
    (hne : ai.baseUrl ≠ []) : urlScheme ai.baseUrl = some "https".toList := by
  obtain ⟨-, -, -, -, hendpoint⟩ := passes_validateProvider.1 h
  exact (hendpoint.hostedUrl hhosted).resolve_left hne

/-- A local provider has a URL that is not blank. -/
theorem baseUrl_of_local {urlScheme : Text → Option Text}
    (h : (validateProvider urlScheme ai).passes = true)
    (hlocal : normalizeAiProvider ai.provider = "local".toList) : trim ai.baseUrl ≠ [] := by
  obtain ⟨-, -, -, -, hendpoint⟩ := passes_validateProvider.1 h
  exact (hendpoint.localUrl hlocal).1

/-- A provider that is let through, and that the factory does not know. -/
theorem anthropic_of_passes {urlScheme : Text → Option Text}
    (h : (validateProvider urlScheme ai).passes = true) (hhosted : ¬ IsHosted ai)
    (hlocal : normalizeAiProvider ai.provider ≠ "local".toList) :
    normalizeAiProvider ai.provider = "anthropic".toList := by
  have hsplit : ∀ name ∈ canonicalProviders, name ∉ hostedProviders → name ≠ "local".toList →
      name = "anthropic".toList := by decide
  exact hsplit _ (passes_validateProvider.1 h).1 hhosted hlocal

/-! ## The clients that are made -/

/-- A key that is not blank is there. -/
theorem exists_apiKey (h : trim (ai.apiKey.getD []) ≠ []) :
    ∃ key, ai.apiKey = some key ∧ trim key ≠ [] := by
  rcases hkey : ai.apiKey with - | key
  · rw [hkey] at h
    exact absurd rfl h
  · rw [hkey] at h
    exact ⟨key, rfl, h⟩

/-- A client after a check is made when the check passes. -/
theorem exists_of_check {check : Check} :
    (∃ made, (check >>= fun _ => .ok client) = .ok made) ↔ check = .ok () := by
  constructor
  · rintro ⟨made, h⟩
    obtain ⟨_, hcheck, -⟩ := Run.bind_eq_ok.1 h
    exact hcheck
  · rintro rfl
    exact ⟨client, rfl⟩

section Hosted

variable (hsound : parseUrl.Sound) (hkey : trim (ai.apiKey.getD []) ≠ [])
  (hscheme : ai.baseUrl ≠ [] → parseUrl.scheme ai.baseUrl = some "https".toList)

include hsound hscheme in
theorem validateBaseUrl_iff : validateBaseUrl parseUrl ai.baseUrl = .ok () ↔ ai.baseUrl ≠ [] := by
  refine ⟨fun h hnil => ?_, fun hne => validateBaseUrl_of_https hsound (hscheme hne)⟩
  obtain ⟨parsed, hparse⟩ := exists_parsed_of_validateBaseUrl h
  rw [hnil] at hparse
  exact hsound.empty parsed hparse

include hsound hscheme in
theorem validateEndpoint_iff :
    validateEndpoint parseUrl ai.baseUrl = .ok () ↔ ai.baseUrl ≠ [] := by
  refine ⟨fun h hnil => ?_, fun hne => validateEndpoint_of_https (hscheme hne)⟩
  obtain ⟨parsed, hparse⟩ := exists_parsed_of_validateEndpoint h
  rw [hnil] at hparse
  exact hsound.empty parsed hparse

include hsound hkey hscheme in
theorem openaiFromConfig_iff :
    (∃ made, openaiFromConfig parseUrl ai = .ok made) ↔ ai.baseUrl ≠ [] := by
  obtain ⟨key, hsome, -⟩ := exists_apiKey hkey
  rw [openaiFromConfig, hsome, ← validateBaseUrl_iff hsound hscheme]
  exact exists_of_check

include hsound hkey hscheme in
theorem openrouterFromConfig_iff :
    (∃ made, openrouterFromConfig parseUrl ai = .ok made) ↔ ai.baseUrl ≠ [] := by
  obtain ⟨key, hsome, -⟩ := exists_apiKey hkey
  rw [openrouterFromConfig, hsome, ← validateBaseUrl_iff hsound hscheme]
  exact exists_of_check

include hsound hkey hscheme in
theorem azureFromConfig_iff (hmodel : trim ai.model ≠ []) :
    (∃ made, azureFromConfig parseUrl ai = .ok made) ↔ ai.baseUrl ≠ [] := by
  obtain ⟨key, hsome, hblank⟩ := exists_apiKey hkey
  rw [azureFromConfig, hsome, Option.filter_some, if_pos (decide_eq_true hblank),
    ← validateEndpoint_iff hsound hscheme]
  dsimp only
  rw [refuseIf, if_neg hmodel]
  exact exists_of_check

end Hosted

/-- **A provider that a client is made for**: it has one, and with a hosted one goes a key that
is not blank, and a URL. -/
def Usable (ai : AIConfig) : Prop :=
  normalizeAiProvider ai.provider ≠ "anthropic".toList ∧
    (normalizeAiProvider ai.provider = "local".toList ∨
      trim (ai.apiKey.getD []) ≠ [] ∧ ai.baseUrl ≠ [])

/-- What goes on after the checks of the factory. -/
theorem exists_of_validateClientConfig {urlScheme : Text → Option Text}
    {made : Except SubXError AIProvider} (h : (validateProvider urlScheme ai).passes = true)
    (hhosted : IsHosted ai)
    (hmade : trim (ai.apiKey.getD []) ≠ [] → ((∃ client, made = .ok client) ↔ ai.baseUrl ≠ [])) :
    (∃ client, (validateClientConfig ai >>= fun _ => made) = .ok client) ↔ Usable ai := by
  have hnames : ∀ name ∈ ["openai", "openrouter", "azure-openai"].map String.toList,
      name ≠ "anthropic".toList ∧ name ≠ "local".toList := by decide
  obtain ⟨hanthropic, hlocal⟩ := hnames _ hhosted
  have hcheck := validateClientConfig_iff h hanthropic
  rw [or_iff_right hlocal] at hcheck
  rw [Usable, and_iff_right hanthropic, or_iff_right hlocal]
  constructor
  · rintro ⟨client, hclient⟩
    obtain ⟨_, hpasses, hclient⟩ := Run.bind_eq_ok.1 hclient
    have hkey := hcheck.1 hpasses
    exact ⟨hkey, (hmade hkey).1 ⟨client, hclient⟩⟩
  · rintro ⟨hkey, hurl⟩
    obtain ⟨client, hclient⟩ := (hmade hkey).2 hurl
    exact ⟨client, Run.bind_eq_ok.2 ⟨(), hcheck.2 hkey, hclient⟩⟩

theorem createAiProvider_iff (hsound : parseUrl.Sound)
    (h : (validateProvider parseUrl.scheme ai).passes = true) :
    (∃ client, createAiProvider parseUrl ai = .ok client) ↔ Usable ai := by
  have hmodel := (passes_validateProvider.1 h).2.2.1
  have hscheme : IsHosted ai → ai.baseUrl ≠ [] →
      parseUrl.scheme ai.baseUrl = some "https".toList := scheme_of_hosted h
  unfold createAiProvider
  dsimp only
  split_ifs with hopenai hopenrouter hazure hlocal
  · have hhosted : IsHosted ai := by
      rw [IsHosted, hopenai]
      decide
    exact exists_of_validateClientConfig h hhosted fun hkey =>
      openaiFromConfig_iff hsound hkey (hscheme hhosted)
  · have hhosted : IsHosted ai := by
      rw [IsHosted, hopenrouter]
      decide
    exact exists_of_validateClientConfig h hhosted fun hkey =>
      openrouterFromConfig_iff hsound hkey (hscheme hhosted)
  · have hhosted : IsHosted ai := by
      rw [IsHosted, hazure]
      decide
    exact exists_of_validateClientConfig h hhosted fun hkey =>
      azureFromConfig_iff hsound hkey (hscheme hhosted) hmodel.1
  · -- a local provider has its URL from the validator
    have hne : normalizeAiProvider ai.provider ≠ "anthropic".toList := by
      rw [hlocal]
      decide
    have hmade : localFromConfig ai =
        .ok (.localLlm ((ai.apiKey.map trim).filter (· ≠ [])) (.ofConfig ai)) := by
      rw [localFromConfig, refuseIf, if_neg (baseUrl_of_local h hlocal)]
      rfl
    rw [(validateClientConfig_iff h hne).2 (.inl hlocal)]
    exact iff_of_true ⟨_, hmade⟩ ⟨hne, .inl hlocal⟩
  · -- what is left of the accepted providers has no client
    have hhosted : ¬ IsHosted ai := by
      simp only [IsHosted, List.map_cons, List.map_nil, List.mem_cons, List.not_mem_nil, or_false,
        not_or]
      exact ⟨hopenai, hopenrouter, hazure⟩
    refine iff_of_false (fun ⟨_, hmade⟩ => nomatch hmade) fun husable => ?_
    exact husable.1 (anthropic_of_passes h hhosted hlocal)

/-- Every client is made with the settings of the configuration. -/
theorem settings_of_createAiProvider (h : createAiProvider parseUrl ai = .ok client) :
    client.settings = .ofConfig ai := by
  unfold createAiProvider at h
  dsimp only at h
  split_ifs at h
  · obtain ⟨_, -, h⟩ := Run.bind_eq_ok.1 h
    unfold openaiFromConfig at h
    split at h
    · cases h
    obtain ⟨_, -, h⟩ := Run.bind_eq_ok.1 h
    cases h
    rfl
  · obtain ⟨_, -, h⟩ := Run.bind_eq_ok.1 h
    unfold openrouterFromConfig at h
    split at h
    · cases h
    obtain ⟨_, -, h⟩ := Run.bind_eq_ok.1 h
    cases h
    rfl
  · obtain ⟨_, -, h⟩ := Run.bind_eq_ok.1 h
    unfold azureFromConfig at h
    split at h
    · cases h
    obtain ⟨_, -, h⟩ := Run.bind_eq_ok.1 h
    obtain ⟨_, -, h⟩ := Run.bind_eq_ok.1 h
    cases h
    rfl
  · obtain ⟨_, -, h⟩ := Run.bind_eq_ok.1 h
    obtain ⟨_, -, h⟩ := Run.bind_eq_ok.1 h
    cases h
    rfl

theorem validateProvider_of_valid {urlScheme : Text → Option Text}
    (h : validateConfig urlScheme config = .ok ()) :
    (validateProvider urlScheme config.ai).passes = true := by
  rw [← passes_iff] at h
  simp only [validateConfig, validateAiConfig, passes_bind, Bool.and_eq_true] at h
  exact h.1.2.1

/-- **Of an accepted configuration the client is made exactly when** its provider has one, and a
hosted one has a key and a URL. The client has the settings of the configuration, one of a
hosted provider talks HTTPS, and the translation engine is made with it. -/
theorem createAiProvider_of_valid (hsound : parseUrl.Sound)
    (h : validateConfig parseUrl.scheme config = .ok ()) :
    ((∃ client, createAiProvider parseUrl config.ai = .ok client) ↔ Usable config.ai) ∧
      ∀ client, createAiProvider parseUrl config.ai = .ok client →
        client.settings = .ofConfig config.ai ∧
        (IsHosted config.ai → parseUrl.scheme config.ai.baseUrl = some "https".toList) ∧
        ∃ engine, createTranslationEngine parseUrl config = .ok (client, engine) ∧
          engine.batchSize = config.translation.batchSize.toNat := by
  have hprovider := validateProvider_of_valid h
  have hiff := createAiProvider_iff hsound hprovider
  refine ⟨hiff, fun client hclient => ⟨settings_of_createAiProvider hclient, fun hhosted => ?_, ?_⟩⟩
  · obtain ⟨-, hlocal | ⟨-, hurl⟩⟩ := hiff.1 ⟨client, hclient⟩
    · rw [IsHosted, hlocal] at hhosted
      exact absurd hhosted (by decide)
    · exact scheme_of_hosted hprovider hhosted hurl
  · have hbatch : config.translation.batchSize.toNat ≠ 0 := by
      have := UInt64.le_iff_toNat_le.1 ((validateConfig_eq_ok_iff.1 h).2 .translationBatchSize).1
      exact Nat.one_le_iff_ne_zero.1 this
    refine ⟨⟨_, Nat.pos_of_ne_zero hbatch⟩, ?_, rfl⟩
    rw [createTranslationEngine, hclient, TranslationEngine.new, dif_neg hbatch]
    rfl

/-- A parser of HTTPS URLs. -/
def secureUrls : UrlParser := fun url =>
  match url.dropPrefix? "https://".toList with
  | none => .error (.other "relative URL without a base".toList)
  | some rest =>
    let host := rest.takeWhile (· ≠ '/')
    if host = [] then .error .emptyHost else .ok ⟨"https".toList, some host⟩

theorem secureUrls_sound : secureUrls.Sound where
  host url parsed hparse _ := by
    unfold secureUrls at hparse
    split at hparse
    · cases hparse
    dsimp only at hparse
    split at hparse
    · cases hparse
    · cases hparse
      exact Option.some_ne_none _
  empty parsed hparse := by cases hparse

/-- The defaults with a key. -/
def keyedConfig : Config :=
  { Config.default 8 with ai := { AIConfig.default with apiKey := some "sk-0123456789".toList } }

/-- The defaults are accepted without one, but it takes one to make the client. -/
theorem createAiProvider_of_valid_keyed :
    (validateConfig secureUrls.scheme (Config.default 8)).passes = true ∧
      (∀ client, createAiProvider secureUrls AIConfig.default ≠ .ok client) ∧
      ∃ client, createAiProvider secureUrls keyedConfig.ai = .ok client := by
  have hdefault : (validateConfig secureUrls.scheme (Config.default 8)).passes = true := by
    decide +kernel
  have hkeyed : (validateConfig secureUrls.scheme keyedConfig).passes = true := by
    decide +kernel
  have husable : Usable keyedConfig.ai := ⟨by decide, .inr ⟨by decide, by decide⟩⟩
  have hunusable : ¬ Usable (Config.default 8).ai := by
    rintro ⟨-, hlocal | ⟨hkey, -⟩⟩
    · exact absurd hlocal (by decide)
    · exact hkey rfl
  refine ⟨hdefault, fun client hclient => hunusable ?_, ?_⟩
  · exact (createAiProvider_of_valid secureUrls_sound (passes_iff.1 hdefault)).1.1 ⟨client, hclient⟩
  · exact (createAiProvider_of_valid secureUrls_sound (passes_iff.1 hkeyed)).1.2 husable

end SubxCore.Configuration
