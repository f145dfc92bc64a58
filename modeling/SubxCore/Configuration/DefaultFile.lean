import SubxCore.Configuration.Loading
/-!
# What is loaded of what was written

The text that a configuration is written as leaves out the optional settings
without a value. `config/default`, the third source, fills them in when the
text is loaded; and where what it says of one is no text, the document makes
no configuration any more, and what is loaded is what is salvaged of it
(`loaded_written`).
-/

namespace SubxCore.Configuration

open Text

variable {V : Type}

/-! ## The variables among the sources -/

section Overrides

variable {var : String → Option Text} {config : Config}

/-- A configuration as the sources give it: of the variables that are recognised
they know the provider and the model. -/
def Config.overlaid (var : String → Option Text) (config : Config) : Config :=
  { config with
    ai.provider := (var "SUBX_AI_PROVIDER").getD config.ai.provider
    ai.model := (var "SUBX_AI_MODEL").getD config.ai.model }

/-- The overrides do the same once more. -/
theorem overrides_overlaid : overrides var (config.overlaid var) = overrides var config := by
  have hsubx : subxOverrides var (config.overlaid var).ai = subxOverrides var config.ai := by
    simp only [subxOverrides, Config.overlaid]
    cases var "SUBX_AI_PROVIDER" <;> cases var "SUBX_AI_MODEL" <;> rfl
  simp only [overrides, hsubx]
  rfl

theorem hostedOverrides_none {ai : AIConfig} (h : normalizeAiProvider ai.provider = ai.provider) :
    hostedOverrides (fun _ => none) ai = ai := by
  obtain ⟨provider, key, _, _, _, _, _, _, _, _, _⟩ := ai
  cases key <;> simpa [hostedOverrides, switchProvider] using h

/-- Without variables nothing is overridden. -/
theorem overrides_none : overrides (fun _ => none) config = config.canonical := by
  have hprovider : normalizeAiProvider (subxOverrides (fun _ => none) config.ai).provider =
    (subxOverrides (fun _ => none) config.ai).provider := normalizeAiProvider_idem _
  unfold overrides
  simp only
  split
  · rfl
  · rw [hostedOverrides_none hprovider]
    rfl

end Overrides

/-! ## What `config/default` adds -/

/-- What `config/default` says of the settings that a text may leave out, each as
`optional` reads it, and the key that only `salvage` looks for. -/
structure Fallback where
  apiKey : Option (Option Text)
  apiVersion : Option (Option Text)
  defaultTargetLanguage : Option (Option Text)
  loadedFrom : Option (Option Text)
  apikey : Option Text

namespace Fallback

/-- It says nothing of them, or is not there. -/
def silent : Fallback := ⟨some none, some none, some none, some none, none⟩

/-- A setting that is written, or else what is said of it. -/
def fill (written : Option Text) (said : Option (Option Text)) : Option (Option Text) :=
  match written with
  | some value => some (some value)
  | none => said

/-- A configuration with what it leaves out filled in, if all of that can be read. -/
def completed (d : Fallback) (config : Config) : Option Config := do
  let apiKey ← fill config.ai.apiKey d.apiKey
  let apiVersion ← fill config.ai.apiVersion d.apiVersion
  let defaultTargetLanguage ←
    fill config.translation.defaultTargetLanguage d.defaultTargetLanguage
  let loadedFrom ← fill config.loadedFrom d.loadedFrom
  return { config with
    ai := { config.ai with apiKey, apiVersion }
    translation := { config.translation with defaultTargetLanguage }
    loadedFrom }

/-- What is salvaged of one. -/
def salvaged (d : Fallback) (numCpus : UInt64) (var : String → Option Text) (config : Config) :
    Config :=
  { Config.default numCpus with
    ai := { AIConfig.default with
      apiKey := (var "SUBX_AI_APIKEY").or d.apikey
      provider := config.ai.provider
      model := config.ai.model
      baseUrl := config.ai.baseUrl } }

/-- **What is loaded of a configuration that was written**, before the overrides. -/
def loaded (d : Fallback) (numCpus : UInt64) (var : String → Option Text) (config : Config) :
    Config :=
  (d.completed config.skipLegacy).getD (d.salvaged numCpus var config)

@[simp] theorem fill_silent {written : Option Text} : fill written (some none) = some written := by
  cases written <;> rfl

/-- Where it says nothing, all that was written is loaded, and nothing else. -/
@[simp] theorem loaded_silent {numCpus : UInt64} {var : String → Option Text} {config : Config} :
    silent.loaded numCpus var config = config.skipLegacy := by
  simp only [loaded, completed, silent, fill_silent]
  rfl

end Fallback

/-! ## Reading back -/

section Salvage

variable {F : Format V} {doc : V} {config : Config}

/-- A text of the AI section of a document. -/
def aiText (F : Format V) (doc : V) (name : String) : Option Text :=
  ((((F.entries doc).bind fun fields => fields "ai".toList).bind F.entries).bind fun fields =>
    fields name.toList).bind F.asStr

/-- What is salvaged are four texts of that section. -/
theorem salvage_eq : salvage F doc config =
    { config with ai := { config.ai with
        apiKey := (aiText F doc "apikey").or config.ai.apiKey
        provider := (aiText F doc "provider").getD config.ai.provider
        model := (aiText F doc "model").getD config.ai.model
        baseUrl := (aiText F doc "base_url").getD config.ai.baseUrl } } := by
  simp only [salvage, aiText]
  cases ((F.entries doc).bind fun fields => fields "ai".toList).bind F.entries <;> rfl

end Salvage

/-- **A document that a configuration was written to**, over `config/default` and under
the variables: what it makes as a whole, and the texts that are salvaged of it. -/
structure Fallback.Written (d : Fallback) (F : Format V) (var : String → Option Text)
    (config : Config) (doc : V) : Prop where
  whole : deserializeConfig F doc = (d.completed config.skipLegacy).map (Config.overlaid var)
  apikey : aiText F doc "apikey" = (var "SUBX_AI_APIKEY").or d.apikey
  provider : aiText F doc "provider" = some (config.overlaid var).ai.provider
  model : aiText F doc "model" = some (config.overlaid var).ai.model
  baseUrl : aiText F doc "base_url" = some config.ai.baseUrl

namespace Service

variable {S : Service V} {config : Config} {content : Text} {fallback : Option Fallback}
  {d : Fallback}

/-- **What is written as TOML is read back**, with the variables over it, and over what
`config/default` adds. Where that cannot be read nothing can. -/
def ReadsBack (S : Service V) (fallback : Option Fallback) : Prop :=
  ∀ config content, S.crates.toStringPretty config = .ok content →
    match fallback with
    | none => ∃ e, S.crates.build (S.defaultFile (some (utf8 content))) (some (utf8 content))
        (subxVariables S.env) = .error e
    | some d => ∃ doc, S.crates.build (S.defaultFile (some (utf8 content))) (some (utf8 content))
        (subxVariables S.env) = .ok doc ∧ d.Written S.crates.format S.var config doc

/-- The sources give what was written, completed or salvaged. -/
theorem loaded_written (hread : S.ReadsBack (some d))
    (hserialize : S.crates.toStringPretty config = .ok content) :
    S.loaded (some (utf8 content)) = .ok ((d.loaded S.numCpus S.var config).overlaid S.var) := by
  obtain ⟨doc, hbuild, hdoc⟩ := hread config content hserialize
  rw [Service.loaded, hbuild]
  simp only [fromDocument, hdoc.whole, Fallback.loaded]
  cases d.completed config.skipLegacy with
  | some whole => rfl
  | none =>
    rw [Option.map_none, Option.getD_none, Option.getD_none, salvage_eq, hdoc.apikey,
      hdoc.provider, hdoc.model, hdoc.baseUrl]
    rw [show (Config.default S.numCpus).ai.apiKey = none from rfl, Option.or_none]
    rfl

/-- Unless `config/default` cannot be read. -/
theorem exists_loaded_written (hread : S.ReadsBack fallback)
    (hserialize : S.crates.toStringPretty config = .ok content) {loaded : Config}
    (h : S.loaded (some (utf8 content)) = .ok loaded) :
    ∃ d ∈ fallback, loaded = (d.loaded S.numCpus S.var config).overlaid S.var := by
  cases fallback with
  | none =>
    obtain ⟨e, hbuild⟩ := hread config content hserialize
    rw [Service.loaded, hbuild] at h
    cases h
  | some d =>
    rw [loaded_written hread hserialize] at h
    exact ⟨d, rfl, (Except.ok.inj h).symm⟩

/-- **What comes of a configuration that was written**, where the file has a place. -/
theorem loadAndValidate_written (hread : S.ReadsBack fallback)
    (hserialize : S.crates.toStringPretty config = .ok content)
    (hpath : ∃ path, S.configFilePath = .ok path) {given : Config} :
    S.loadAndValidate (some (utf8 content)) = .ok given ↔
      (∃ d ∈ fallback, given = overrides S.var (d.loaded S.numCpus S.var config)) ∧
        validateConfig S.crates.urlScheme given = .ok () := by
  rw [loadAndValidate_eq_ok]
  constructor
  · rintro ⟨loaded, hloaded, -, rfl, hvalid⟩
    obtain ⟨d, hd, rfl⟩ := exists_loaded_written hread hserialize hloaded
    exact ⟨⟨d, hd, overrides_overlaid⟩, hvalid⟩
  · rintro ⟨⟨d, hd, rfl⟩, hvalid⟩
    obtain rfl : fallback = some d := hd
    exact ⟨_, loaded_written hread hserialize, hpath, overrides_overlaid.symm, hvalid⟩

end Service

end SubxCore.Configuration
