import SubxCore.Configuration.SetAndGet
/-!
# The path for repairs

`load_for_repair` against `load_and_validate`. The tolerant path looks at the
file alone, so what it shows is not what the program runs with: a file that
is completed by `config/default`, the variables or the defaults is accepted
by the strict path and not by this one. What can be done with a file that the
program runs with is `Works`, and what it takes is `KeepsRules`
(`repairs_iff`).
-/

namespace SubxCore.Configuration

open Text Kind

variable {V : Type}

namespace Service

variable {S : Service V} {file : ConfigFile} {shown given config : Config}

/-- The configuration that is in the file by itself, or the defaults without one. -/
def ownConfig (S : Service V) : ConfigFile → Option Config
  | none => some (.default S.numCpus)
  | some bytes => (fromUtf8 bytes).bind fun content => (S.crates.fromStr content).toOption

/-- **A file can be worked on**: it is shown, every value that has a line in the table is
got, and a value is refused for its own sake only. -/
def Works (S : Service V) (file : ConfigFile) : Prop :=
  ∃ shown, S.loadForRepair file = .ok shown ∧
    (∀ key ≠ Key.aiApiVersion, ∃ text, readConfigValueFrom shown key.name = .ok text) ∧
    ∀ (key : Key) (value : Text) (v : key.kind.Value), key.Takes S.crates.urlScheme value v →
      key.SectionRule v →
      (key ∈ providerKeys → ProviderRule S.crates.urlScheme (key.put v shown).ai) →
      S.edited file key.name value = .ok (key.put v shown)

/-- **A file keeps the rules by itself**, those of the fields and those of the sections,
without the variables and `config/default`. -/
def KeepsRules (S : Service V) (file : ConfigFile) : Prop :=
  ∃ own, S.ownConfig file = some own ∧
    (∀ key : Key, key.Accepts S.crates.urlScheme (key.get own.canonical)) ∧
    (∀ key : Key, key.SectionRule (key.get own.canonical)) ∧
    ProviderRule S.crates.urlScheme own.canonical.ai

/-- **What is shown of a file** is what is in it, with its provider in canonical form, when
all of it is acceptable. -/
theorem loadForRepair_some_iff {bytes : List UInt8}
    (hpath : ∃ path, S.configFilePath = .ok path) :
    S.loadForRepair (some bytes) = .ok shown ↔ ∃ own, S.ownConfig (some bytes) = some own ∧
      shown = own.canonical ∧ ∀ key : Key, key.Accepts S.crates.urlScheme (key.get shown) := by
  simp only [loadForRepair_eq_ok, validateAllFields_eq_ok_iff, ownConfig, Option.bind_eq_some_iff,
    Run.toOption_eq_some]
  constructor
  · rintro ⟨content, own, -, hcontent, hown, hshown, haccepts⟩
    exact ⟨own, ⟨content, hcontent, hown⟩, hshown, haccepts⟩
  · rintro ⟨own, ⟨content, hcontent, hown⟩, hshown, haccepts⟩
    exact ⟨content, own, hpath, hcontent, hown, hshown, haccepts⟩

/-- Without a file the defaults are shown, unchecked. -/
theorem loadForRepair_none (hpath : ∃ path, S.configFilePath = .ok path) :
    S.loadForRepair none = .ok (.default S.numCpus) := by
  obtain ⟨path, hpath⟩ := hpath
  rw [loadForRepair, hpath]
  rfl

/-- Defaults that keep the rules of the sections are acceptable to the fields. -/
theorem accepts_of_rules {key : Key}
    (hrule : ∀ key : Key, key.SectionRule (key.get (.default S.numCpus)))
    (hprovider : ProviderRule S.crates.urlScheme (Config.default S.numCpus).ai) :
    key.Accepts S.crates.urlScheme (key.get (.default S.numCpus)) := by
  by_cases hworkers : key = .parallelMaxWorkers
  · subst hworkers
    exact hrule .parallelMaxWorkers
  · refine accepts_default ?_ hworkers
    have hhosted : normalizeAiProvider AIConfig.default.provider ∈ hostedProviders := by decide
    have hurl := (hprovider.hostedUrl hhosted).resolve_left
      (by decide : AIConfig.default.baseUrl ≠ [])
    exact Option.isSome_of_eq_some hurl

/-- A value that is taken is set where it fits. -/
theorem edited_of_fits (hshown : S.loadForRepair file = .ok shown) {key : Key} {value : Text}
    {v : key.kind.Value} (htakes : key.Takes S.crates.urlScheme value v)
    (hfits : key.Fits S.crates.urlScheme v shown) :
    S.edited file key.name value = .ok (key.put v shown) :=
  edited_eq_ok.2 ⟨shown, hshown, validateAndSetValue_name_eq_ok.2
    ⟨v, htakes, rfl, validateConfig_put_iff.2 hfits⟩⟩

/-- Where values can be set, what is shown keeps the rules of the sections. -/
theorem rules_of_set
    (hset : ∀ (key : Key) (value : Text) (v : key.kind.Value),
      key.Takes S.crates.urlScheme value v → key.SectionRule v →
      (key ∈ providerKeys → ProviderRule S.crates.urlScheme (key.put v shown).ai) →
      S.edited file key.name value = .ok (key.put v shown)) :
    (∀ key : Key, key.SectionRule (key.get shown)) ∧
      ProviderRule S.crates.urlScheme shown.ai := by
  -- a flag is set, which no rule is about
  have hedited := hset .generalBackupEnabled "true".toList true
    ⟨rfl, trivial, by rintro ⟨⟩⟩ trivial fun h => absurd h (by decide)
  have hfits := validateConfig_put_iff.1 (validateConfig_of_edited hedited)
  refine ⟨fun key => ?_, (providerRule_put_iff (by decide)).1 hfits.provider⟩
  by_cases hkey : key = .generalBackupEnabled
  · subst hkey
    exact trivial
  · exact hfits.others key hkey

/-- **A file can be worked on exactly when it keeps the rules by itself.** -/
theorem works_iff (hpath : ∃ path, S.configFilePath = .ok path) :
    S.Works file ↔ S.KeepsRules file := by
  constructor
  · rintro ⟨shown, hshown, -, hset⟩
    obtain ⟨hrule, hprovider⟩ := rules_of_set hset
    cases file with
    | some bytes =>
      obtain ⟨own, hown, rfl, haccepts⟩ := (loadForRepair_some_iff hpath).1 hshown
      exact ⟨own, hown, haccepts, hrule, hprovider⟩
    | none =>
      obtain rfl := Except.ok.inj ((loadForRepair_none hpath).symm.trans hshown)
      exact ⟨_, rfl, fun key => accepts_of_rules hrule hprovider, hrule, hprovider⟩
  · rintro ⟨own, hown, haccepts, hrule, hprovider⟩
    have hshown : S.loadForRepair file = .ok own.canonical := by
      cases file with
      | some bytes => exact (loadForRepair_some_iff hpath).2 ⟨own, hown, rfl, haccepts⟩
      | none =>
        obtain rfl := Option.some.inj hown
        exact loadForRepair_none hpath
    refine ⟨own.canonical, hshown, fun key hkey => ?_, fun key value v htakes hrule' hfits => ?_⟩
    · rw [readConfigValueFrom, Key.ofName_name, Option.bind_some, readKey_eq hkey]
      exact ⟨_, rfl⟩
    · refine edited_of_fits hshown htakes ⟨hrule', fun other _ => hrule other, ?_⟩
      by_cases hkey : key ∈ providerKeys
      · exact hfits hkey
      · exact (providerRule_put_iff hkey).2 hprovider

/-- **The two validations and the two paths**: a configuration that the sections let
through passes field by field exactly when it keeps the rules that only the fields
have; and a file that the strict path accepts can be worked on exactly when it keeps all
of the rules by itself. -/
theorem repairs_iff (S : Service V) (config given : Config) (file : ConfigFile) :
    (validateConfig S.crates.urlScheme config = .ok () →
      (validateAllFields S.crates.urlScheme config = .ok () ↔
        FieldRules S.crates.urlScheme config)) ∧
    (S.loadAndValidate file = .ok given → (S.Works file ↔ S.KeepsRules file)) := by
  constructor
  · intro h
    exact validateAllFields_iff_fieldRules h
  · intro h
    obtain ⟨-, -, hpath, -⟩ := loadAndValidate_eq_ok.1 h
    exact works_iff hpath

/-- The defaults pass either way, and can be worked on before there is a file. -/
theorem repairs_iff_default :
    (validateAllFields webScheme (.default 8) = .ok () ↔ FieldRules webScheme (.default 8)) ∧
      settingModel.Works none := by
  have hload : settingModel.loadAndValidate none = .ok (.default 8) :=
    loadAndValidate_eq_ok.2 ⟨.default 8, rfl, ⟨_, rfl⟩, rfl, validateConfig_default⟩
  obtain ⟨hprovider, hrule⟩ := validateConfig_eq_ok_iff.1 validateConfig_default
  have hrepairs := repairs_iff settingModel (.default 8) (.default 8) none
  exact ⟨hrepairs.1 validateConfig_default,
    (hrepairs.2 hload).2 ⟨_, rfl, accepts_default_web, hrule, hprovider⟩⟩

end Service

/-- **A documented strategy passes its section and not its field.** -/
theorem reject_fails_its_field : ¬ ∀ (urlScheme : Text → Option Text) (config : Config),
    validateConfig urlScheme config = .ok () → validateAllFields urlScheme config = .ok () := by
  intro h
  let rejecting : Config :=
    { Config.default 8 with parallel.overflowStrategy := OverflowStrategy.reject }
  have hfields := h webScheme rejecting (passes_iff.1 (by decide +kernel))
  -- the field knows three strategies
  have haccepts : OverflowStrategy.reject = .block ∨ OverflowStrategy.reject = .drop ∨
      OverflowStrategy.reject = .expand :=
    validateAllFields_eq_ok_iff.1 hfields .parallelOverflowStrategy
  exact absurd haccepts (by decide)

end SubxCore.Configuration
