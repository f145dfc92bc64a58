import SubxCore.Configuration.Coherence
import SubxCore.Configuration.SetAndGet
/-!
# Recovery by the defaults

`reset_to_defaults` as the last resort: what is in the file and in the cache
does not matter, and what it writes is read back. The defaults depend on the
machine, though, and the sections accept at most 64 workers; and what the
defaults leave out is filled in from `config/default` (`recovers_iff`).
-/

namespace SubxCore.Configuration

open Text Kind Program

variable {V : Type}

/-! ## The defaults under validation -/

/-- A key that goes with the default provider. -/
def IsOpenaiKey (key : Text) : Prop := 10 ≤ byteLen key ∧ "sk-".toList <+: key

/-- **What `config/default` may add to the defaults**: a key for their provider, and a
language that is not blank. When an optional setting of it is no text, only its other
key is looked at. -/
def Fallback.Suits (d : Fallback) : Prop :=
  match d.apiKey, d.apiVersion, d.defaultTargetLanguage, d.loadedFrom with
  | some key, some _, some lang, some _ => (∀ k ∈ key, IsOpenaiKey k) ∧ ∀ l ∈ lang, trim l ≠ []
  | _, _, _, _ => ∀ k ∈ d.apikey, IsOpenaiKey k

/-- One that says nothing suits them. -/
theorem Fallback.suits_silent : Fallback.silent.Suits := ⟨by rintro k ⟨⟩, by rintro l ⟨⟩⟩

section Defaults

variable {urlScheme : Text → Option Text} {numCpus : UInt64} {config : Config} {d : Fallback}

/-- The sections let the defaults through, setting by setting. -/
theorem sectionRule_default {key : Key} (hkey : key ≠ .parallelMaxWorkers) :
    key.SectionRule (key.get (.default numCpus)) := by
  have hput : Config.default numCpus = Key.put .parallelMaxWorkers numCpus (.default 8) := rfl
  rw [hput, Key.get_put_of_ne hkey]
  exact (validateConfig_eq_ok_iff.1 validateConfig_default).2 key

/-- What is asked of the default provider is a matter of the key. -/
theorem providerRule_default_iff (hurl : urlScheme AIConfig.default.baseUrl = some "https".toList)
    {key version : Option Text} :
    ProviderRule urlScheme { AIConfig.default with apiKey := key, apiVersion := version } ↔
      (∀ k ∈ key, k ≠ [] → "sk-".toList <+: k) ∧ key ≠ some [] := by
  have hopenai : normalizeAiProvider AIConfig.default.provider = "openai".toList := by decide
  constructor
  · intro h
    exact ⟨h.openaiKey hopenai, h.emptyKey rfl⟩
  · rintro ⟨hkey, hempty⟩
    exact {
      openaiKey := fun _ => hkey
      maxTokens := fun _ => (by decide : 0 < AIConfig.default.maxTokens)
      azureVersion := fun h => absurd (hopenai.symm.trans h) (by decide)
      hostedUrl := fun _ => .inr hurl
      localUrl := fun h => absurd (hopenai.symm.trans h) (by decide)
      emptyKey := fun _ => hempty }

/-- **The defaults with some of what they leave out filled in pass exactly on a machine
with as many processors as there may be workers**, if what is filled in suits them. -/
theorem validateConfig_filled_iff (hcpus : 1 ≤ numCpus)
    (hurl : urlScheme AIConfig.default.baseUrl = some "https".toList)
    {key version lang : Option Text}
    (hai : config.ai = { AIConfig.default with apiKey := key, apiVersion := version })
    (hlang : config.translation.defaultTargetLanguage = lang)
    (hsame : ∀ other ∉ [Key.aiApiKey, .aiApiVersion, .translationDefaultTargetLanguage],
      other.get config = other.get (.default numCpus)) :
    validateConfig urlScheme config = .ok () ↔
      numCpus ≤ 64 ∧ (∀ k ∈ key, IsOpenaiKey k) ∧ ∀ l ∈ lang, trim l ≠ [] := by
  have hkey : Key.aiApiKey.get config = key := congrArg AIConfig.apiKey hai
  have hlanguage : Key.translationDefaultTargetLanguage.get config = lang := hlang
  have hworkers : Key.parallelMaxWorkers.get config = numCpus := hsame _ (by decide)
  rw [validateConfig_eq_ok_iff, hai, providerRule_default_iff hurl]
  constructor
  · rintro ⟨⟨hbegins, hempty⟩, hrule⟩
    have hlong := hrule .aiApiKey
    have hfew := hrule .parallelMaxWorkers
    have hblank := hrule .translationDefaultTargetLanguage
    rw [hkey] at hlong
    rw [hworkers] at hfew
    rw [hlanguage] at hblank
    refine ⟨hfew.2, fun k hk => ?_, hblank⟩
    have hne : k ≠ [] := by
      rintro rfl
      exact hempty hk
    exact ⟨hlong k hk hne, hbegins k hk hne⟩
  · rintro ⟨hmax, hopenai, hblank⟩
    refine ⟨⟨fun k hk _ => (hopenai k hk).2, ?_⟩, fun other => ?_⟩
    · rintro rfl
      exact absurd (hopenai [] rfl).1 (by decide)
    · by_cases hfilled : other ∈ [Key.aiApiKey, .aiApiVersion, .translationDefaultTargetLanguage]
      · simp only [List.mem_cons, List.not_mem_nil, or_false] at hfilled
        rcases hfilled with rfl | rfl | rfl
        · rw [hkey]
          exact fun k hk _ => (hopenai k hk).1
        · exact trivial
        · rwa [hlanguage]
      · rw [hsame other hfilled]
        by_cases hother : other = .parallelMaxWorkers
        · subst hother
          exact ⟨hcpus, hmax⟩
        · exact sectionRule_default hother

/-- What is loaded of the defaults has their provider. -/
theorem provider_loaded {var : String → Option Text} :
    (d.loaded numCpus var (.default numCpus)).ai.provider = AIConfig.default.provider := by
  obtain ⟨_ | key, _ | version, _ | lang, _ | loadedFrom, apikey⟩ := d <;> rfl

/-- **What is loaded of the defaults passes** there exactly when `config/default` suits
them. -/
theorem validateConfig_loaded_default_iff (hcpus : 1 ≤ numCpus)
    (hurl : urlScheme AIConfig.default.baseUrl = some "https".toList) :
    validateConfig urlScheme (d.loaded numCpus (fun _ => none) (.default numCpus)) = .ok () ↔
      numCpus ≤ 64 ∧ d.Suits := by
  obtain ⟨key, version, lang, loadedFrom, apikey⟩ := d
  -- what is salvaged has the defaults in all places but that of the key
  have hsalvaged : validateConfig urlScheme
      { Config.default numCpus with ai := { AIConfig.default with apiKey := apikey } } = .ok () ↔
        numCpus ≤ 64 ∧ (∀ k ∈ apikey, IsOpenaiKey k) ∧ ∀ l ∈ (none : Option Text), trim l ≠ [] := by
    refine validateConfig_filled_iff hcpus hurl rfl rfl fun other hother => ?_
    cases other <;> first | rfl | exact absurd (by decide) hother
  simp only [Option.not_mem_none, false_implies, implies_true, and_true] at hsalvaged
  cases key with
  | none => exact hsalvaged
  | some key =>
    cases version with
    | none => exact hsalvaged
    | some version =>
      cases lang with
      | none => exact hsalvaged
      | some lang =>
        cases loadedFrom with
        | none => exact hsalvaged
        | some loadedFrom =>
          refine validateConfig_filled_iff hcpus hurl rfl rfl ?_
          intro other hother
          cases other <;> first | rfl | exact absurd (by decide) hother

/-- **They pass field by field** there, too. -/
theorem validateAllFields_default (hcpus : 1 ≤ numCpus) (hmax : numCpus ≤ 64)
    (hurl : (urlScheme AIConfig.default.baseUrl).isSome) :
    validateAllFields urlScheme (Config.default numCpus).skipLegacy = .ok () := by
  rw [validateAllFields_eq_ok_iff]
  intro key
  rw [get_skipLegacy]
  by_cases hworkers : key = .parallelMaxWorkers
  · subst hworkers
    exact ⟨hcpus, hmax⟩
  · exact accepts_default hurl hworkers

end Defaults

namespace Service

variable {S : Service V} {s s' : State} {fault : Option WriteFault} {content : Text}
  {fallback : Option Fallback}

/-! ## Resetting -/

/-- **When a reset succeeds**: the defaults have been written, and what is loaded of
them is cached. -/
theorem exec_resetToDefaults_eq_ok : (S.resetToDefaults fault).exec s = (.ok (), s') ↔
    ∃ path content config, S.configFilePath = .ok path ∧
      S.serialize (.default S.numCpus) = .ok content ∧ fault = none ∧
      S.loadAndValidate (some (utf8 content)) = .ok config ∧
      s' = ⟨some (utf8 content), some config⟩ := by
  rw [resetToDefaults]
  cases hpath : S.configFilePath with
  | error e => exact iff_of_false (by rintro ⟨⟩) (by rintro ⟨path, -, -, ⟨⟩, -⟩)
  | ok path =>
    rw [exec_pureResult_bind_ok]
    cases hserialize : S.serialize (.default S.numCpus) with
    | error e => exact iff_of_false (by rintro ⟨⟩) (by rintro ⟨-, content, -, -, ⟨⟩, -⟩)
    | ok content =>
      rw [exec_pureResult_bind_ok]
      cases fault with
      | some f =>
        rw [exec_secureWriteConfigFile_bind_some]
        exact iff_of_false (by rintro ⟨⟩) (by rintro ⟨-, -, -, -, -, ⟨⟩, -⟩)
      | none =>
        rw [exec_secureWriteConfigFile_bind_none, exec_reload]
        cases hload : S.loadAndValidate (some (utf8 content)) with
        | error e =>
          refine iff_of_false (by rintro ⟨⟩) ?_
          rintro ⟨path', content', config, -, hcontent, -, hconfig, -⟩
          obtain rfl := Except.ok.inj hcontent
          cases hload.symm.trans hconfig
        | ok config =>
          constructor
          · intro h
            exact ⟨path, content, config, rfl, rfl, rfl, hload, (Prod.mk.inj h).2.symm⟩
          · rintro ⟨path', content', config', -, hcontent, -, hconfig, rfl⟩
            obtain rfl := Except.ok.inj hcontent
            obtain rfl := Except.ok.inj (hload.symm.trans hconfig)
            rfl

/-- **A reset recovers**: it succeeds, and afterwards the configuration can be got and
be loaded for repair. -/
def Recovers (S : Service V) (fault : Option WriteFault) (s : State) : Prop :=
  ∃ s', (S.resetToDefaults fault).exec s = (.ok (), s') ∧
    (∃ config, (S.getConfig.exec s').1 = .ok config) ∧
    ∃ config, (S.repairView.exec s').1 = .ok config

/-- What is loaded of them for repair are the defaults. -/
theorem loadForRepair_defaults (hcpus : 1 ≤ S.numCpus) (hmax : S.numCpus ≤ 64)
    (hround : S.crates.RoundTrips)
    (hurl : S.crates.urlScheme AIConfig.default.baseUrl = some "https".toList)
    (hpath : ∃ path, S.configFilePath = .ok path)
    (hserialize : S.serialize (.default S.numCpus) = .ok content) :
    S.loadForRepair (some (utf8 content)) = .ok (Config.default S.numCpus).skipLegacy := by
  have hcanonical : (Config.default S.numCpus).skipLegacy =
      (Config.default S.numCpus).skipLegacy.canonical := rfl
  exact loadForRepair_eq_ok.2 ⟨content, _, hpath, fromUtf8_utf8 content,
    hround _ _ (Run.mapError_eq_ok.1 hserialize), hcanonical,
    validateAllFields_default hcpus hmax (by rw [hurl]; rfl)⟩

section Machine

variable (henv : ∀ name, S.env name = none)

include henv

theorem var_eq_none : S.var = fun _ => none := funext fun name => henv name.toList

theorem configFilePath_isSome_iff :
    (∃ path, S.configFilePath = .ok path) ↔ S.configDir.isSome := by
  rw [configFilePath, var_eq_none henv]
  cases S.configDir with
  | none => exact iff_of_false (by rintro ⟨path, ⟨⟩⟩) Bool.false_ne_true
  | some dir => exact iff_of_true ⟨_, rfl⟩ rfl

/-- **The defaults that were written can be loaded** exactly where they pass with what
`config/default` adds to them. -/
theorem loadAndValidate_defaults_iff (hcpus : 1 ≤ S.numCpus) (hread : S.ReadsBack fallback)
    (hurl : S.crates.urlScheme AIConfig.default.baseUrl = some "https".toList)
    (hpath : ∃ path, S.configFilePath = .ok path)
    (hserialize : S.crates.toStringPretty (.default S.numCpus) = .ok content) :
    (∃ config, S.loadAndValidate (some (utf8 content)) = .ok config) ↔
      S.numCpus ≤ 64 ∧ ∃ d ∈ fallback, d.Suits := by
  have hgiven (d : Fallback) :
      overrides S.var (d.loaded S.numCpus S.var (.default S.numCpus)) =
        d.loaded S.numCpus (fun _ => none) (.default S.numCpus) := by
    rw [var_eq_none henv, overrides_none, canonical_eq_self]
    rw [provider_loaded]
    exact (by decide : normalizeAiProvider AIConfig.default.provider = AIConfig.default.provider)
  simp only [loadAndValidate_written hread hserialize hpath]
  constructor
  · rintro ⟨config, ⟨d, hd, rfl⟩, hvalid⟩
    rw [hgiven] at hvalid
    obtain ⟨hmax, hsuits⟩ := (validateConfig_loaded_default_iff hcpus hurl).1 hvalid
    exact ⟨hmax, d, hd, hsuits⟩
  · rintro ⟨hmax, d, hd, hsuits⟩
    refine ⟨_, ⟨d, hd, rfl⟩, ?_⟩
    rw [hgiven]
    exact (validateConfig_loaded_default_iff hcpus hurl).2 ⟨hmax, hsuits⟩

/-- **Without variables a reset recovers exactly when** the file can be written, the
machine has at most 64 processors, and `config/default` can be read and suits the
defaults, whatever was in the file and in the cache. -/
theorem recovers_iff (hcpus : 1 ≤ S.numCpus)
    (hserializes : S.numCpus.toNat < 2 ^ 63 →
      ∃ content, S.crates.toStringPretty (.default S.numCpus) = .ok content)
    (hread : S.ReadsBack fallback) (hround : S.crates.RoundTrips)
    (hurl : S.crates.urlScheme AIConfig.default.baseUrl = some "https".toList) :
    S.Recovers fault s ↔ fault = none ∧ S.configDir.isSome ∧ S.numCpus ≤ 64 ∧
      ∃ d ∈ fallback, d.Suits := by
  rw [← configFilePath_isSome_iff henv]
  constructor
  · rintro ⟨s', hreset, -, -⟩
    obtain ⟨path, content, config, hpath, hserialize, hfault, hload, -⟩ :=
      exec_resetToDefaults_eq_ok.1 hreset
    exact ⟨hfault, ⟨path, hpath⟩, (loadAndValidate_defaults_iff henv hcpus hread hurl
      ⟨path, hpath⟩ (Run.mapError_eq_ok.1 hserialize)).1 ⟨config, hload⟩⟩
  · rintro ⟨hfault, ⟨path, hpath⟩, hmax, hsuits⟩
    have hsmall : S.numCpus.toNat < 2 ^ 63 :=
      lt_of_le_of_lt (UInt64.le_iff_toNat_le.1 hmax) (by decide)
    obtain ⟨content, hcontent⟩ := hserializes hsmall
    have hserialize : S.serialize (.default S.numCpus) = .ok content :=
      Run.mapError_eq_ok.2 hcontent
    obtain ⟨config, hload⟩ := (loadAndValidate_defaults_iff henv hcpus hread hurl
      ⟨path, hpath⟩ hcontent).2 ⟨hmax, hsuits⟩
    refine ⟨_, exec_resetToDefaults_eq_ok.2
      ⟨path, content, config, hpath, hserialize, hfault, hload, rfl⟩, ⟨config, ?_⟩, ?_⟩
    · rw [exec_getConfig_of_cached rfl]
    · refine ⟨(Config.default S.numCpus).skipLegacy, ?_⟩
      have hrepair := loadForRepair_defaults hcpus hmax hround hurl ⟨path, hpath⟩ hserialize
      rw [repairView, exec_readFile_bind, hrepair]
      rfl

end Machine

/-! ## Two machines -/

/-- The text of the defaults on a machine with so many processors. -/
@[irreducible] def defaultsText (numCpus : String) : Text :=
  ("[ai]\nprovider = \"openai\"\nmodel = \"gpt-4.1-mini\"\n" ++
    "base_url = \"https://api.openai.com/v1\"\nmax_sample_length = 3000\n" ++
    "temperature = 0.30000001192092896\nmax_tokens = 10000\nretry_attempts = 3\n" ++
    "retry_delay_ms = 1000\nrequest_timeout_seconds = 120\n" ++
    "\n[formats]\ndefault_output = \"srt\"\npreserve_styling = false\n" ++
    "default_encoding = \"utf-8\"\nencoding_detection_confidence = 0.800000011920929\n" ++
    "\n[sync]\ndefault_method = \"auto\"\nmax_offset_seconds = 60.0\n" ++
    "\n[sync.vad]\nenabled = true\nsensitivity = 0.25\npadding_chunks = 3\n" ++
    "min_speech_duration_ms = 300\n\n[general]\nbackup_enabled = false\n" ++
    "max_concurrent_jobs = 4\ntask_timeout_seconds = 300\nworkspace = \".\"\n" ++
    "enable_progress_bar = true\nworker_idle_timeout_seconds = 60\n" ++
    "max_subtitle_bytes = 52428800\nmax_audio_bytes = 2147483648\n" ++
    "\n[parallel]\nmax_workers = " ++ numCpus ++ "\noverflow_strategy = \"Block\"\n" ++
    "task_queue_size = 1000\nenable_task_priorities = false\nauto_balance_workers = true\n" ++
    "\n[translation]\nbatch_size = 40\n").toList

/-- A machine with so many processors, on which the defaults have this text. -/
def resetting (numCpus : UInt64) (content : Text) : Service Document :=
  { known [(content, (Config.default numCpus).document)] [(.default numCpus, content)] [] with
    numCpus }

section Resetting

variable {numCpus : UInt64} (hdoc : deserializeConfig Document.format
  (Config.default numCpus).document = some (Config.default numCpus).skipLegacy)

include hdoc

theorem roundTrips_resetting : (resetting numCpus content).crates.RoundTrips := by
  intro config text hwritten
  obtain ⟨rfl, rfl⟩ := Prod.mk.inj (List.mem_singleton.1 (mem_of_toStringPretty hwritten))
  exact fromStr_known hdoc

theorem readsBack_resetting : (resetting numCpus content).ReadsBack (some .silent) := by
  intro config text hwritten
  obtain ⟨rfl, rfl⟩ := Prod.mk.inj (List.mem_singleton.1 (mem_of_toStringPretty hwritten))
  refine ⟨_, build_known, ?_⟩
  rw [overlay_eq_self fun name _ => ite_self none]
  exact written_document hdoc rfl rfl rfl

end Resetting

/-- With eight processors a reset recovers from a file that is no text. -/
theorem recovers_iff_resetting :
    (resetting 8 (defaultsText "8")).Recovers none ⟨some [255], none⟩ :=
  have hdoc : deserializeConfig Document.format (Config.default 8).document =
      some (Config.default 8).skipLegacy := by decide +kernel
  (recovers_iff (fun _ => rfl) (by decide) (fun _ => ⟨_, toStringPretty_known⟩)
    (readsBack_resetting hdoc) (roundTrips_resetting hdoc) (by decide +kernel)).2
      ⟨rfl, rfl, by decide, _, rfl, Fallback.suits_silent⟩

/-- **On a machine with 128 processors the defaults are refused** once they are
written, though there was no file before. -/
theorem reset_fails_on_128_processors : ¬ ∀ (V : Type) (S : Service V)
    (fallback : Option Fallback) (s : State),
    1 ≤ S.numCpus → S.configDir.isSome → (∀ name, S.env name = none) →
    (∃ content, S.crates.toStringPretty (.default S.numCpus) = .ok content) →
    S.ReadsBack fallback → S.crates.RoundTrips →
    S.crates.urlScheme AIConfig.default.baseUrl = some "https".toList → S.Recovers none s := by
  intro h
  have hdoc : deserializeConfig Document.format (Config.default 128).document =
      some (Config.default 128).skipLegacy := by decide +kernel
  have hread : (resetting 128 (defaultsText "128")).ReadsBack (some .silent) :=
    readsBack_resetting hdoc
  have hround : (resetting 128 (defaultsText "128")).crates.RoundTrips :=
    roundTrips_resetting hdoc
  have hrecovers := h _ (resetting 128 (defaultsText "128")) _ ⟨none, none⟩ (by decide) rfl
    (fun _ => rfl) ⟨_, toStringPretty_known⟩ hread hround (by decide +kernel)
  -- what succeeded has been validated
  obtain ⟨s', hreset, -, -⟩ := hrecovers
  obtain ⟨path, content, config, hpath, hserialize, -, hload, -⟩ :=
    exec_resetToDefaults_eq_ok.1 hreset
  have hmax := (loadAndValidate_defaults_iff (fun _ => rfl) (by decide) hread (by decide +kernel)
    ⟨path, hpath⟩ (Run.mapError_eq_ok.1 hserialize)).1 ⟨config, hload⟩
  exact absurd hmax.1 (by decide)

end Service

end SubxCore.Configuration
