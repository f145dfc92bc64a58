import SubxCore.Configuration.CacheValidity
import SubxCore.Configuration.Documents
/-!
# A value that is set is read back

The three tables of `validate_field`, `set_value_internal` and
`read_config_value_from` against each other. A text that is set under a key
is read as a value of the key's kind and put in its place; what is looked up
there afterwards says the same value, and no other setting has changed. One
key is missing from the third table, and with it alone this fails:
`valueSet_iff`.
-/

namespace SubxCore.Configuration

open Text Kind Program

variable {V : Type}

/-! ## Setting is putting -/

section Tables

variable {config new : Config} {key other : Key} {value : Text}

theorem unwrapped_map_eq_ok {α : Type} {read : Option α} {place : α → Config} :
    (do let v ← unwrapped read; return place v : Except Halt Config) = .ok new ↔
      ∃ v, read = some v ∧ new = place v := by
  cases read with
  | none => exact iff_of_false (by rintro ⟨⟩) (by rintro ⟨v, ⟨⟩, -⟩)
  | some v =>
    refine ⟨fun h => ⟨v, rfl, (Except.ok.inj h).symm⟩, ?_⟩
    rintro ⟨w, hw, rfl⟩
    obtain rfl := Option.some.inj hw
    rfl

theorem orFail_map_eq_ok {α : Type} {read : Except SubXError α} {place : α → Config} :
    (do let v ← orFail read; return place v : Except Halt Config) = .ok new ↔
      ∃ v, read.toOption = some v ∧ new = place v := by
  cases read with
  | error e => exact iff_of_false (by rintro ⟨⟩) (by rintro ⟨v, ⟨⟩, -⟩)
  | ok v =>
    refine ⟨fun h => ⟨v, rfl, (Except.ok.inj h).symm⟩, ?_⟩
    rintro ⟨w, hw, rfl⟩
    obtain rfl := Option.some.inj hw
    rfl

/-- A text that is read, and set as what it says. -/
theorem setKey_eq_ok_iff_of_parse {v : key.kind.Value} (hparse : key.kind.parse value = some v)
    (hset : setKey key value config = .ok (key.put v config)) :
    setKey key value config = .ok new ↔
      ∃ w, key.kind.parse value = some w ∧ new = key.put w config := by
  simp only [hparse, hset, Option.some.injEq, exists_eq_left', Except.ok.injEq, eq_comm]

/-- **What is set under a key** is what the text says as its kind. -/
theorem setKey_eq_ok_iff : setKey key value config = .ok new ↔
    ∃ v, key.kind.parse value = some v ∧ new = key.put v config := by
  cases key with
  | aiProvider | aiModel | aiBaseUrl | syncDefaultMethod | formatsDefaultOutput
  | formatsDefaultEncoding | translationDefaultTargetLanguage =>
    exact setKey_eq_ok_iff_of_parse rfl rfl
  | aiApiKey | aiApiVersion =>
    refine setKey_eq_ok_iff_of_parse rfl ?_
    simp only [setKey, ite_not]
    rfl
  | parallelOverflowStrategy =>
    have hread : setKey .parallelOverflowStrategy value config = (do
        let v ← unwrapped (parseStrategy value)
        return { config with parallel.overflowStrategy := v }) := by
      simp only [setKey, parseStrategy]
      split_ifs <;> rfl
    rw [hread]
    exact unwrapped_map_eq_ok
  | syncVadEnabled | formatsPreserveStyling | generalBackupEnabled | generalEnableProgressBar
  | parallelEnableTaskPriorities | parallelAutoBalanceWorkers => exact orFail_map_eq_ok
  | _ => exact unwrapped_map_eq_ok

/-- What is looked up under a key is its setting, as a text. -/
theorem readKey_eq (h : key ≠ .aiApiVersion) :
    readKey config key = some (key.kind.display (key.get config)) := by
  cases key <;> first | rfl | exact absurd rfl h

/-- A configuration shows a value under a key. -/
def Shows (config : Config) (key : Key) (v : key.kind.Value) : Prop :=
  ∃ shown, readConfigValueFrom config key.name = .ok shown ∧ key.kind.parse shown = some v

/-- Under one key nothing is shown. -/
theorem ne_aiApiVersion_of_shows {v : key.kind.Value} (h : Shows config key v) :
    key ≠ .aiApiVersion := by
  rintro rfl
  obtain ⟨shown, hshown, -⟩ := h
  rw [readConfigValueFrom, Key.ofName_name] at hshown
  cases hshown

/-- **A value that was put is shown** under any other. -/
theorem shows_of_get {v : key.kind.Value} (h : key ≠ .aiApiVersion) (hget : key.get config = v)
    (hparse : key.kind.parse value = some v) : Shows config key v := by
  refine ⟨key.kind.display v, ?_, parse_display hparse⟩
  rw [readConfigValueFrom, Key.ofName_name, Option.bind_some, readKey_eq h, hget]

/-- The text that is set says what the one that was given said. -/
theorem parse_canonical : key.kind.parse
    (if key.name = "ai.provider".toList then normalizeAiProvider value else value) =
      key.kind.parse value := by
  split
  · next h =>
    obtain rfl : key = .aiProvider := Key.eq_of_name h
    exact congrArg some (normalizeAiProvider_idem value)
  · rfl

/-- **The texts that are set under a key**, and the values they are set as. -/
def Key.Takes (urlScheme : Text → Option Text) (key : Key) (value : Text)
    (v : key.kind.Value) : Prop :=
  key.kind.parse value = some v ∧ key.Accepts urlScheme v ∧ (key = .aiApiVersion → value ≠ [])

variable {urlScheme : Text → Option Text} {name : Text}

/-- A text passes under a key, once it is canonical, exactly when it is taken there. -/
theorem passes_canonical_iff :
    (checkKey urlScheme key (if key.name = "ai.provider".toList then normalizeAiProvider value
      else value)).passes = true ↔ ∃ v, key.Takes urlScheme value v := by
  by_cases hprovider : key = .aiProvider
  · subst hprovider
    have hshown : (∀ s ∈ Key.aiProvider.kind.shown (normalizeAiProvider value),
          (checkKey urlScheme .aiProvider s).passes = true) ↔
        Key.Accepts urlScheme .aiProvider (normalizeAiProvider value) := passes_shown_iff
    simp only [Kind.shown, Kind.display, Option.mem_some_iff, forall_eq'] at hshown
    rw [if_pos (show Key.aiProvider.name = "ai.provider".toList from rfl), hshown]
    constructor
    · intro h
      exact ⟨normalizeAiProvider value, rfl, h, fun h => by cases h⟩
    · rintro ⟨v, hparse, haccepts, -⟩
      obtain rfl := Option.some.inj hparse
      exact haccepts
  rw [if_neg (show key.name ≠ "ai.provider".toList from fun h => hprovider (Key.eq_of_name h))]
  by_cases hversion : key = .aiApiVersion
  · subst hversion
    constructor
    · intro h
      obtain ⟨v, hparse, haccepts⟩ := exists_accepts_of_passes h
      refine ⟨v, hparse, haccepts, fun _ hnil => ?_⟩
      subst hnil
      exact Bool.false_ne_true h
    · rintro ⟨v, hparse, haccepts, hne⟩
      obtain rfl := Option.some.inj hparse
      simpa [checkKey] using haccepts value (if_neg (hne rfl))
  · rw [passes_checkKey_iff hprovider hversion]
    exact exists_congr fun v => and_congr_right fun _ =>
      (and_iff_left fun h => absurd h hversion).symm

/-- **Validating and setting a value**: one that is taken is put in its place, and the
sections accept the outcome. -/
theorem validateAndSetValue_name_eq_ok :
    validateAndSetValue urlScheme config key.name value = .ok new ↔
      ∃ v, key.Takes urlScheme value v ∧ new = key.put v config ∧
        validateConfig urlScheme new = .ok () := by
  rw [validateAndSetValue_eq_ok]
  simp only [validateField, setValueInternal, Key.ofName_name]
  rw [← passes_iff, passes_canonical_iff, setKey_eq_ok_iff, parse_canonical]
  constructor
  · rintro ⟨⟨v, htakes⟩, ⟨w, hw, hnew⟩, hvalid⟩
    obtain rfl := Option.some.inj (htakes.1.symm.trans hw)
    exact ⟨v, htakes, hnew, hvalid⟩
  · rintro ⟨v, htakes, hnew, hvalid⟩
    exact ⟨⟨v, htakes⟩, ⟨v, htakes.1, hnew⟩, hvalid⟩

/-- Under a name that is no key nothing is set. -/
theorem validateAndSetValue_unknown (h : Key.ofName name = none) :
    validateAndSetValue urlScheme config name value = .error (.failed (unknownKey name)) := by
  simp only [validateAndSetValue, validateField, h]
  rfl

theorem exists_put_of_validateAndSetValue
    (h : validateAndSetValue urlScheme config name value = .ok new) :
    ∃ (key : Key) (v : key.kind.Value), key.name = name ∧ key.kind.parse value = some v ∧
      key.Accepts urlScheme v ∧ new = key.put v config ∧ validateConfig urlScheme new = .ok () := by
  cases hkey : Key.ofName name with
  | none =>
    rw [validateAndSetValue_unknown hkey] at h
    cases h
  | some key =>
    obtain rfl := Key.name_of_ofName hkey
    obtain ⟨v, ⟨hparse, haccepts, -⟩, hnew, hvalid⟩ := validateAndSetValue_name_eq_ok.1 h
    exact ⟨key, v, rfl, hparse, haccepts, hnew, hvalid⟩

end Tables

/-! ## The file after a value was set -/

section Written

variable {urlScheme : Text → Option Text} {config new : Config} {key : Key}

@[simp] theorem get_skipLegacy : key.get config.skipLegacy = key.get config := by
  cases key <;> rfl

/-- Nothing but the provider has another canonical form. -/
theorem canonical_eq_self (h : normalizeAiProvider config.ai.provider = config.ai.provider) :
    config.canonical = config := by
  unfold Config.canonical
  rw [h]

/-- What is shown of a file has its provider in canonical form. -/
theorem provider_of_loadForRepair {S : Service V} {file : ConfigFile}
    (h : S.loadForRepair file = .ok config) :
    normalizeAiProvider config.ai.provider = config.ai.provider := by
  cases file with
  | some bytes =>
    obtain ⟨-, written, -, -, -, rfl, -⟩ := Service.loadForRepair_eq_ok.1 h
    exact normalizeAiProvider_idem written.ai.provider
  | none =>
    obtain ⟨path, -, hconfig⟩ := Run.bind_eq_ok.1 h
    obtain rfl := Except.ok.inj hconfig
    exact (by decide : normalizeAiProvider "openai".toList = "openai".toList)

/-- So does one with an acceptable value put into it. -/
theorem provider_of_put {v : key.kind.Value} {value : Text}
    (h : normalizeAiProvider config.ai.provider = config.ai.provider)
    (hparse : key.kind.parse value = some v) :
    normalizeAiProvider (key.put v config).ai.provider = (key.put v config).ai.provider := by
  by_cases hkey : key = .aiProvider
  · subst hkey
    obtain rfl := Option.some.inj hparse
    exact normalizeAiProvider_idem value
  · have hput : (key.put v config).ai.provider = config.ai.provider :=
      Key.get_put_of_ne (Ne.symm hkey) v config
    rw [hput, h]

/-- A key that is not about an endpoint has no part in URLs. -/
theorem accepts_urlScheme {urlScheme' : Text → Option Text} {v : key.kind.Value}
    (hkey : key ≠ .aiBaseUrl) (h : key.Accepts urlScheme v) : key.Accepts urlScheme' v := by
  cases key <;> first | exact h | exact absurd rfl hkey

/-- The defaults of a machine with eight processors are acceptable. -/
theorem accepts_default_web (key : Key) : key.Accepts webScheme (key.get (.default 8)) := by
  cases key with
  | aiApiKey | aiApiVersion | translationDefaultTargetLanguage => rintro value ⟨⟩
  | syncVadEnabled | syncVadMinSpeechDurationMs | formatsPreserveStyling | generalBackupEnabled
  | generalEnableProgressBar | parallelEnableTaskPriorities | parallelAutoBalanceWorkers =>
    exact trivial
  | _ =>
    simp only [Key.Accepts, Key.get]
    decide +kernel

/-- **The defaults are acceptable**, as far as they are not up to the machine. -/
theorem accepts_default {numCpus : UInt64} (hurl : (urlScheme AIConfig.default.baseUrl).isSome)
    (hkey : key ≠ .parallelMaxWorkers) :
    key.Accepts urlScheme (key.get (.default numCpus)) := by
  by_cases hbase : key = .aiBaseUrl
  · subst hbase
    exact .inr hurl
  · have hput : Config.default numCpus = Key.put .parallelMaxWorkers numCpus (.default 8) := rfl
    rw [hput, Key.get_put_of_ne hkey]
    exact accepts_urlScheme hbase (accepts_default_web key)

end Written

/-- What is written as TOML is read back, but for the older settings. -/
def Crates.RoundTrips (crates : Crates V) : Prop :=
  ∀ config content, crates.toStringPretty config = .ok content →
    crates.fromStr content = .ok config.skipLegacy

namespace Service

variable {S : Service V} {s s' : State} {fault : Option WriteFault} {name value : Text}

/-- All the settings of an edited configuration are acceptable. -/
theorem accepts_of_edited {file : ConfigFile} {config : Config} (key : Key)
    (hurl : (S.crates.urlScheme AIConfig.default.baseUrl).isSome)
    (h : S.edited file name value = .ok config) :
    key.Accepts S.crates.urlScheme (key.get config) := by
  obtain ⟨old, hold, hset⟩ := edited_eq_ok.1 h
  obtain ⟨set, v, -, -, haccepts, rfl, hvalid⟩ := exists_put_of_validateAndSetValue hset
  by_cases hkey : key = set
  · subst hkey
    rwa [Key.get_put]
  · cases file with
    | some bytes =>
      obtain ⟨-, -, -, -, -, -, hfields⟩ := loadForRepair_eq_ok.1 hold
      rw [Key.get_put_of_ne hkey]
      exact validateAllFields_eq_ok_iff.1 hfields key
    | none =>
      obtain ⟨path, -, hdefault⟩ := Run.bind_eq_ok.1 hold
      obtain rfl := Except.ok.inj hdefault
      by_cases hworkers : key = .parallelMaxWorkers
      · subst hworkers
        exact (validateConfig_eq_ok_iff.1 hvalid).2 .parallelMaxWorkers
      · rw [Key.get_put_of_ne hkey]
        exact accepts_default hurl hworkers

/-- What a value that is set should come to: it is what is got under its key, the
file can be loaded for repair and shows it too, and the other settings are
those that the file had before. -/
def ValueSet (S : Service V) (s s' : State) (name value : Text) : Prop :=
  ∃ (key : Key) (v : key.kind.Value), key.name = name ∧ key.kind.parse value = some v ∧
    (∃ shown, ((S.getConfigValue name).exec s').1 = .ok shown ∧
      key.kind.parse shown = some v) ∧
    ∃ old new, S.loadForRepair s.file = .ok old ∧ S.loadForRepair s'.file = .ok new ∧
      Shows new key v ∧ ∀ other ≠ key, other.get new = other.get old

/-- **What a value that was set comes to**, but for what is got under its key. -/
theorem loadForRepair_of_setConfigValue (hround : S.crates.RoundTrips)
    (hurl : (S.crates.urlScheme AIConfig.default.baseUrl).isSome)
    (h : (S.setConfigValue fault name value).exec s = (.ok (), s')) :
    ∃ (key : Key) (v : key.kind.Value) (old new : Config), key.name = name ∧
      key.kind.parse value = some v ∧ S.loadForRepair s.file = .ok old ∧ new = key.put v old ∧
      s'.cache = some new ∧ S.loadForRepair s'.file = .ok new.skipLegacy := by
  obtain ⟨new, content, hedited, hserialize, rfl⟩ := exec_setConfigValue_eq_ok h
  obtain ⟨path, hpath⟩ := configFilePath_of_edited hedited
  obtain ⟨old, hold, hset⟩ := edited_eq_ok.1 hedited
  obtain ⟨key, v, hname, hparse, -, hnew, -⟩ := exists_put_of_validateAndSetValue hset
  refine ⟨key, v, old, new, hname, hparse, hold, hnew, rfl, ?_⟩
  have hcanonical : new.skipLegacy.canonical = new.skipLegacy := canonical_eq_self <| by
    subst hnew
    exact provider_of_put (provider_of_loadForRepair hold) hparse
  refine loadForRepair_eq_ok.2 ⟨content, new.skipLegacy, ⟨path, hpath⟩, fromUtf8_utf8 content,
    hround _ _ (Run.mapError_eq_ok.1 hserialize), hcanonical.symm, ?_⟩
  rw [validateAllFields_eq_ok_iff]
  intro other
  rw [get_skipLegacy]
  exact accepts_of_edited other hurl hedited

/-- **Every key but one** gives back what was set. -/
theorem valueSet_iff (hround : S.crates.RoundTrips)
    (hurl : (S.crates.urlScheme AIConfig.default.baseUrl).isSome)
    (h : (S.setConfigValue fault name value).exec s = (.ok (), s')) :
    S.ValueSet s s' name value ↔ name ≠ "ai.api_version".toList := by
  constructor
  · rintro ⟨key, v, rfl, -, -, -, new, -, -, hshows, -⟩ hname
    exact ne_aiApiVersion_of_shows hshows (Key.eq_of_name hname)
  · intro hname
    obtain ⟨key, v, old, new, rfl, hparse, hold, hnew, hcache, hrepair⟩ :=
      loadForRepair_of_setConfigValue hround hurl h
    have hkey : key ≠ .aiApiVersion := fun hkey => hname (by rw [hkey]; rfl)
    have hget : key.get new = v := by rw [hnew, Key.get_put]
    obtain ⟨shown, hshown, hsame⟩ := shows_of_get hkey hget hparse
    refine ⟨key, v, rfl, hparse, ⟨shown, ?_, hsame⟩, old, new.skipLegacy, hold, hrepair,
      shows_of_get hkey (get_skipLegacy.trans hget) hparse, fun other hother => ?_⟩
    · rw [exec_getConfigValue_of_cached hcache, hshown]
      rfl
    · rw [get_skipLegacy, hnew, Key.get_put_of_ne hother]

/-- A machine on which a model is set. -/
def settingModel : Service Document :=
  known [(withModelText, withModel.document)] [(withModel, withModelText)] []

theorem edited_settingModel :
    settingModel.edited none "ai.model".toList "gpt-4o".toList = .ok withModel :=
  edited_eq_ok.2 ⟨.default 8, rfl, validateAndSetValue_eq_ok.2
    ⟨passes_iff.1 (by decide +kernel), rfl, passes_iff.1 (by decide +kernel)⟩⟩

theorem serialize_settingModel : settingModel.serialize withModel = .ok withModelText := by
  rw [serialize, settingModel, known, toStringPretty_known]
  rfl

theorem deserializeConfig_withModel :
    deserializeConfig Document.format withModel.document = some withModel.skipLegacy := by
  decide +kernel

theorem roundTrips_settingModel : settingModel.crates.RoundTrips := by
  intro config content h
  obtain ⟨rfl, rfl⟩ := Prod.mk.inj (List.mem_singleton.1 (mem_of_toStringPretty h))
  exact fromStr_known deserializeConfig_withModel

/-- A model that is set there is got, and the rest stays. -/
theorem valueSet_iff_settingModel :
    settingModel.ValueSet ⟨none, none⟩ ⟨some (utf8 withModelText), some withModel⟩
      "ai.model".toList "gpt-4o".toList ↔ "ai.model".toList ≠ "ai.api_version".toList :=
  valueSet_iff roundTrips_settingModel (by decide)
    (exec_setConfigValue_of_ok (s := ⟨none, none⟩) edited_settingModel serialize_settingModel)

/-- The defaults with a version. -/
def withVersion : Config :=
  { Config.default 8 with ai.apiVersion := some "2024-02-01".toList }

/-- Their text. -/
def withVersionText : Text := textWithDefaults <|
  "provider = \"openai\"\nmodel = \"gpt-4.1-mini\"\n" ++
  "base_url = \"https://api.openai.com/v1\"\nmax_sample_length = 3000\n" ++
  "temperature = 0.30000001192092896\nmax_tokens = 10000\nretry_attempts = 3\n" ++
  "retry_delay_ms = 1000\nrequest_timeout_seconds = 120\napi_version = \"2024-02-01\"\n"

/-- A machine on which a version is set. -/
def settingVersion : Service Document :=
  known [(withVersionText, withVersion.document)] [(withVersion, withVersionText)] []

theorem exec_settingVersion :
    (settingVersion.setConfigValue none "ai.api_version".toList "2024-02-01".toList).exec
      ⟨none, none⟩ = (.ok (), ⟨some (utf8 withVersionText), some withVersion⟩) := by
  refine exec_setConfigValue_of_ok (s := ⟨none, none⟩) ?_ ?_
  · exact edited_eq_ok.2 ⟨.default 8, rfl, validateAndSetValue_eq_ok.2
      ⟨passes_iff.1 (by decide +kernel), rfl, passes_iff.1 (by decide +kernel)⟩⟩
  · rw [serialize, settingVersion, known, toStringPretty_known]
    rfl

theorem roundTrips_settingVersion : settingVersion.crates.RoundTrips := by
  intro config content h
  obtain ⟨rfl, rfl⟩ := Prod.mk.inj (List.mem_singleton.1 (mem_of_toStringPretty h))
  exact fromStr_known (by decide +kernel)

/-- **A version that is set cannot be got.** -/
theorem version_set_and_not_got : ¬ ∀ (V : Type) (S : Service V) (s s' : State)
    (fault : Option WriteFault) (name value : Text), S.crates.RoundTrips →
    (S.crates.urlScheme AIConfig.default.baseUrl).isSome →
    (S.setConfigValue fault name value).exec s = (.ok (), s') → S.ValueSet s s' name value := by
  intro h
  obtain ⟨key, v, hname, -, -, -, new, -, -, hshows, -⟩ :=
    h _ settingVersion _ _ _ _ _ roundTrips_settingVersion (by decide) exec_settingVersion
  exact ne_aiApiVersion_of_shows hshows (Key.eq_of_name hname)

end Service

end SubxCore.Configuration
