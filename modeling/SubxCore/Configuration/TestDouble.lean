import SubxCore.Configuration.TestService
/-!
# The service for tests against the one in production

`TestConfigService` sets values by the same rules as `ProductionConfigService`
as far as its comments go. Its table takes texts that the other one does not,
and leaves some out that it does, and it does not validate the outcome:
`agree_iff` says on which inputs the two do the same.
-/

namespace SubxCore.Configuration.TestConfigService

open Text Decimal Kind Program

variable {urlScheme : Text → Option Text} {old new config : Config} {key : Key}
  {name value : Text} {v : key.kind.Value}

/-! ## Where the tables differ -/

/-- **The values that only the service for tests takes.** -/
def DoubleOnly (urlScheme : Text → Option Text) : (key : Key) → key.kind.Value → Prop
  | .aiModel, v => trim v = [] ∨ 100 < byteLen v
  | .aiBaseUrl, v => IsWebUrl v ∧ urlScheme v = none
  | .syncMaxOffsetSeconds, v => ¬ v < f32 0 0 ∧ v < f32 1 (-1)
  | .syncVadPaddingChunks, v => 10 < v
  | _, _ => False

/-- **The texts that only the service in production takes**, and their values. -/
def ProductionOnly (urlScheme : Text → Option Text) : (key : Key) → Text → key.kind.Value → Prop
  | .aiProvider, value, v => value ∉ providerNames ∧ v ∈ providerNames
  | .aiBaseUrl, _, v => ¬ IsWebUrl v ∧ (trim v = [] ∨ (urlScheme v).isSome)
  | .aiTemperature, _, v => f32 1 0 < v ∧ ¬ f32 2 0 < v
  | .aiMaxTokens, _, v => 100000 < v
  | .aiApiVersion, value, _ => trim value ≠ []
  | .syncDefaultMethod, _, v => v = "manual".toList
  | .syncMaxOffsetSeconds, _, v => f32 300 0 < v ∧ ¬ f32 3600 0 < v
  | .translationBatchSize, _, v => 1 ≤ v ∧ v ≤ 1000
  | .translationDefaultTargetLanguage, value, _ => value = [] ∨ trim value ≠ []
  | _, _, _ => False

/-- A URL of the web is no white space. -/
theorem trim_ne_nil_of_isWebUrl (h : IsWebUrl value) : trim value ≠ [] := by
  rw [Ne, trim_eq_nil_iff]
  intro hspace
  have hmem : 'h' ∈ value := h.elim (fun h => h.subset (by decide)) (fun h => h.subset (by decide))
  exact absurd (hspace 'h' hmem) (by decide)

/-- What is read of a text is taken when it is acceptable. -/
theorem takes_iff (hparse : key.kind.parse value = some v) (hversion : key ≠ .aiApiVersion) :
    key.Takes urlScheme value v ↔ key.Accepts urlScheme v :=
  ⟨fun h => h.2.1, fun h => ⟨hparse, h, fun heq => absurd heq hversion⟩⟩

theorem doubleOnly_iff (hparse : key.kind.parse value = some v) :
    DoubleOnly urlScheme key v ↔ Asks urlScheme key value v ∧ ¬ key.Takes urlScheme value v := by
  cases key with
  | aiApiVersion | translationBatchSize | translationDefaultTargetLanguage =>
    exact iff_of_false id fun h => h.1
  | aiProvider =>
    obtain rfl := Option.some.inj hparse
    exact iff_of_false id fun h =>
      h.2 ((takes_iff hparse (by decide)).2 (normalizeAiProvider_mem h.1))
  | aiModel =>
    rw [takes_iff hparse (by decide)]
    simp only [DoubleOnly, Asks, Key.Accepts, true_and, not_and_or, ne_eq, not_not, not_le]
  | aiBaseUrl =>
    obtain rfl := Option.some.inj hparse
    rw [takes_iff hparse (by decide)]
    simp only [DoubleOnly, Asks, Key.Accepts, not_or, Bool.not_eq_true, Option.isSome_eq_false_iff,
      Option.isNone_iff_eq_none]
    exact and_congr_right fun h => (and_iff_right (trim_ne_nil_of_isWebUrl h)).symm
  | aiTemperature =>
    -- the two ranges begin at the same temperature
    rw [takes_iff hparse (by decide), Asks, Key.Accepts,
      BinaryFloat.in_first_only_iff (by decide +kernel) (by decide +kernel)]
    exact iff_of_false id fun h => h.1 h.2
  | aiMaxTokens =>
    rw [takes_iff hparse (by decide)]
    refine iff_of_false id fun h => h.2 ?_
    exact UInt32.lt_iff_toNat_lt.2 (UInt32.le_iff_toNat_le.1 h.1.1)
  | syncDefaultMethod =>
    obtain rfl := Option.some.inj hparse
    rw [takes_iff hparse (by decide)]
    have hmethods : ∀ s ∈ ["auto", "vad"].map String.toList,
        s ∈ ["auto", "vad", "manual"].map String.toList := by decide
    exact iff_of_false id fun h => h.2 (hmethods _ h.1)
  | syncMaxOffsetSeconds =>
    rw [takes_iff hparse (by decide), Asks, Key.Accepts,
      BinaryFloat.in_first_only_iff (by decide +kernel) (by decide +kernel)]
    rfl
  | syncVadPaddingChunks =>
    rw [takes_iff hparse (by decide)]
    simp only [DoubleOnly, Asks, Key.Accepts, true_and, UInt32.not_le]
  | _ => exact iff_of_false id fun h => h.2 ((takes_iff hparse (by decide)).2 h.1)

theorem productionOnly_iff (hparse : key.kind.parse value = some v) :
    ProductionOnly urlScheme key value v ↔
      key.Takes urlScheme value v ∧ ¬ Asks urlScheme key value v := by
  cases key with
  | aiModel | syncVadPaddingChunks => exact iff_of_false id fun h => h.2 trivial
  | aiProvider =>
    rw [takes_iff hparse (by decide)]
    exact and_comm
  | aiBaseUrl =>
    obtain rfl := Option.some.inj hparse
    rw [takes_iff hparse (by decide)]
    exact and_comm
  | aiTemperature =>
    rw [takes_iff hparse (by decide), Asks, Key.Accepts,
      BinaryFloat.in_second_only_iff id (by decide +kernel)]
    rfl
  | aiMaxTokens =>
    rw [takes_iff hparse (by decide)]
    simp only [ProductionOnly, Key.Accepts, Asks, UInt32.lt_iff_toNat_lt, UInt32.le_iff_toNat_le,
      UInt32.toNat_ofNat]
    omega
  | aiApiVersion =>
    constructor
    · intro h
      have hne : value ≠ [] := fun hnil => h (by rw [hnil]; rfl)
      obtain rfl := Option.some.inj hparse
      refine ⟨⟨hparse, fun version hversion => ?_, fun _ => hne⟩, id⟩
      rw [if_neg hne] at hversion
      rwa [← Option.some.inj hversion]
    · rintro ⟨⟨-, haccepts, hne⟩, -⟩
      obtain rfl := Option.some.inj hparse
      exact haccepts value (if_neg (hne rfl))
  | syncDefaultMethod =>
    obtain rfl := Option.some.inj hparse
    rw [takes_iff hparse (by decide)]
    simp only [ProductionOnly, Key.Accepts, Asks, List.map_cons, List.map_nil, List.mem_cons,
      List.not_mem_nil, or_false]
    constructor
    · rintro rfl
      decide
    · rintro ⟨hauto | hvad | hmanual, hnot⟩
      · exact absurd (.inl hauto) hnot
      · exact absurd (.inr hvad) hnot
      · exact hmanual
  | syncMaxOffsetSeconds =>
    have hstarts : v < f32 0 0 → v < f32 1 (-1) := fun h =>
      BinaryFloat.lt_trans h (by decide +kernel)
    rw [takes_iff hparse (by decide), Asks, Key.Accepts,
      BinaryFloat.in_second_only_iff hstarts (by decide +kernel)]
    rfl
  | translationBatchSize =>
    rw [takes_iff hparse (by decide)]
    exact (and_iff_left id).symm
  | translationDefaultTargetLanguage =>
    rw [takes_iff hparse (by decide)]
    obtain rfl := Option.some.inj hparse
    by_cases hnil : value = [] <;> simp [ProductionOnly, Key.Accepts, Asks, hnil]
  | _ => exact iff_of_false id fun h => h.2 ((takes_iff hparse (by decide)).1 h.1)

/-! ## Agreement -/

/-- **The two services agree**: both reject a value, and the configuration stays, or both
accept it and come to the same configuration. -/
def Agree (urlScheme : Text → Option Text) (old : Config) (name value : Text) : Prop :=
  (∃ new, Configuration.validateAndSetValue urlScheme old name value = .ok new ∧
    (setConfigValue name value).exec old = (.ok (), new)) ∨
  ∃ e e', Configuration.validateAndSetValue urlScheme old name value = .error (.failed e) ∧
    (setConfigValue name value).exec old = (.error (.failed e'), old)

/-- **When they do.** -/
structure Aligned (urlScheme : Text → Option Text) (old : Config) (name value : Text) : Prop where
  /-- The value is not set under an older key. -/
  legacy : ∀ key : LegacyKey, key.name = name → ¬ key.Takes value
  /-- It is none that only the service for tests takes. -/
  taken : ∀ (key : Key) (v : key.kind.Value), key.name = name → key.kind.parse value = some v →
    ¬ DoubleOnly urlScheme key v
  /-- A value that both take keeps the rules of the sections among the other settings, and
  one that only the service in production takes breaks one of them. -/
  valid : ∀ (key : Key) (v : key.kind.Value), key.name = name → key.Takes urlScheme value v →
    (key.Fits urlScheme v old ↔ ¬ ProductionOnly urlScheme key value v)

theorem exec_setConfigValue_of_ok (h : validateAndSetValue old name value = .ok new) :
    (setConfigValue name value).exec old = (.ok (), new) := by
  rw [setConfigValue, exec_bind_of_ok (x := loadForRepair) rfl, h]
  rfl

theorem exec_setConfigValue_of_error {halt : Halt}
    (h : validateAndSetValue old name value = .error halt) :
    (setConfigValue name value).exec old = (.error halt, old) := by
  rw [setConfigValue, exec_bind_of_ok (x := loadForRepair) rfl, h]
  rfl

/-- The service in production does not panic, either. -/
theorem production_ne_panicked :
    Configuration.validateAndSetValue urlScheme old name value ≠ .error .panicked := by
  cases hkey : Key.ofName name with
  | none =>
    rw [validateAndSetValue_unknown hkey]
    rintro ⟨⟩
  | some key =>
    obtain rfl := Key.name_of_ofName hkey
    refine orFail_bind_ne_panicked fun _ hfield => ?_
    simp only [validateField, setValueInternal, Key.ofName_name] at hfield ⊢
    -- what passed its field is read, so there is something to set
    obtain ⟨v, hparse, -⟩ := exists_accepts_of_passes (passes_iff.2 hfield)
    rw [Configuration.setKey_eq_ok_iff.2 ⟨v, hparse, rfl⟩]
    refine orFail_bind_ne_panicked fun _ _ => ?_
    rintro ⟨⟩

/-- Agreeing is coming to the same configurations. -/
theorem agree_iff_same : Agree urlScheme old name value ↔
    ∀ new, Configuration.validateAndSetValue urlScheme old name value = .ok new ↔
      validateAndSetValue old name value = .ok new := by
  have hproduction : Configuration.validateAndSetValue urlScheme old name value ≠
    .error .panicked := production_ne_panicked
  have hdouble : validateAndSetValue old name value ≠ .error .panicked :=
    validateAndSetValue_ne_panicked
  unfold Agree
  cases hp : Configuration.validateAndSetValue urlScheme old name value with
  | ok config =>
    cases hd : validateAndSetValue old name value with
    | ok config' =>
      rw [exec_setConfigValue_of_ok hd]
      constructor
      · rintro (⟨new, hnew, hsame⟩ | ⟨e, e', ⟨⟩, -⟩) other
        cases hnew
        cases hsame
        rfl
      · intro h
        obtain rfl := Except.ok.inj ((h config).1 rfl)
        exact .inl ⟨_, rfl, rfl⟩
    | error halt =>
      rw [exec_setConfigValue_of_error hd]
      refine iff_of_false ?_ fun h => by cases (h config).1 rfl
      rintro (⟨new, -, ⟨⟩⟩ | ⟨e, e', ⟨⟩, -⟩)
  | error halt =>
    cases hd : validateAndSetValue old name value with
    | ok config' =>
      rw [exec_setConfigValue_of_ok hd]
      refine iff_of_false ?_ fun h => by cases (h config').2 rfl
      rintro (⟨new, ⟨⟩, -⟩ | ⟨e, e', -, ⟨⟩⟩)
    | error halt' =>
      rw [exec_setConfigValue_of_error hd]
      refine iff_of_true (.inr ?_) fun new => iff_of_false nofun nofun
      cases halt with
      | panicked => exact absurd hp hproduction
      | failed e =>
        cases halt' with
        | panicked => exact absurd hd hdouble
        | failed e' => exact ⟨e, e', rfl, rfl⟩

/-- What is set under a key is a text that is taken, without more. -/
theorem name_eq_ok (urlScheme : Text → Option Text) :
    validateAndSetValue old key.name value = .ok new ↔
      ∃ v, Takes urlScheme key value v ∧ new = key.put v old := by
  rw [validateAndSetValue, Key.ofName_name]
  exact setKey_eq_ok_iff

/-- **Under a key** the two come to the same exactly when no value is taken by one of
them alone. -/
theorem same_under_key_iff : (∀ new, Configuration.validateAndSetValue urlScheme old key.name
      value = .ok new ↔ validateAndSetValue old key.name value = .ok new) ↔
    ∀ v, key.kind.parse value = some v → ¬ DoubleOnly urlScheme key v ∧
      (key.Takes urlScheme value v → (key.Fits urlScheme v old ↔
        ¬ ProductionOnly urlScheme key value v)) := by
  cases hparse : key.kind.parse value with
  | none =>
    refine iff_of_true (fun new => ?_) nofun
    rw [validateAndSetValue_name_eq_ok, name_eq_ok urlScheme]
    constructor
    · rintro ⟨v, htakes, -⟩
      cases hparse.symm.trans htakes.1
    · rintro ⟨v, htakes, -⟩
      cases hparse.symm.trans htakes.1
  | some v =>
    -- the text is read in one way, so either of the two can come to one configuration only
    have hproduction (new : Config) : Configuration.validateAndSetValue urlScheme old key.name
        value = .ok new ↔ new = key.put v old ∧ key.Takes urlScheme value v ∧
          key.Fits urlScheme v old := by
      rw [validateAndSetValue_name_eq_ok]
      constructor
      · rintro ⟨w, htakes, rfl, hvalid⟩
        obtain rfl := Option.some.inj (hparse.symm.trans htakes.1)
        exact ⟨rfl, htakes, validateConfig_put_iff.1 hvalid⟩
      · rintro ⟨rfl, htakes, hfits⟩
        exact ⟨v, htakes, rfl, validateConfig_put_iff.2 hfits⟩
    have hdouble (new : Config) : validateAndSetValue old key.name value = .ok new ↔
        new = key.put v old ∧ Asks urlScheme key value v := by
      rw [name_eq_ok urlScheme]
      constructor
      · rintro ⟨w, ⟨hw, hasks⟩, rfl⟩
        obtain rfl := Option.some.inj (hparse.symm.trans hw)
        exact ⟨rfl, hasks⟩
      · rintro ⟨rfl, hasks⟩
        exact ⟨v, ⟨hparse, hasks⟩, rfl⟩
    simp only [hproduction, hdouble, and_congr_right_iff, forall_eq, Option.some.injEq, forall_eq',
      doubleOnly_iff hparse, productionOnly_iff hparse]
    tauto

/-- Under an older key the service in production rejects, so the other one must. -/
theorem same_under_legacyKey_iff {key : LegacyKey} : (∀ new,
      Configuration.validateAndSetValue urlScheme old key.name value = .ok new ↔
        validateAndSetValue old key.name value = .ok new) ↔ ¬ key.Takes value := by
  rw [validateAndSetValue_unknown key.ofName_name_eq_none, validateAndSetValue,
    key.ofName_name_eq_none]
  simp only [LegacyKey.ofName_name]
  rw [← exists_setLegacyKey_iff old, not_exists]
  refine forall_congr' fun new => ?_
  constructor
  · intro h hnew
    cases h.2 hnew
  · intro h
    exact iff_of_false nofun h

/-- **The two services agree exactly when the table differences and the missing
validation do not show.** -/
theorem agree_iff (urlScheme : Text → Option Text) (old : Config) (name value : Text) :
    Agree urlScheme old name value ↔ Aligned urlScheme old name value := by
  rw [agree_iff_same]
  cases hkey : Key.ofName name with
  | some key =>
    obtain rfl := Key.name_of_ofName hkey
    rw [same_under_key_iff]
    constructor
    · intro h
      refine ⟨fun legacy hname => ?_, fun other v hname hparse => ?_, fun other v hname htakes => ?_⟩
      · rw [← hname, legacy.ofName_name_eq_none] at hkey
        cases hkey
      · obtain rfl := Key.eq_of_name hname
        exact (h v hparse).1
      · obtain rfl := Key.eq_of_name hname
        exact (h v htakes.1).2 htakes
    · intro h v hparse
      exact ⟨h.taken key v rfl hparse, fun htakes => h.valid key v rfl htakes⟩
  | none =>
    have hno (other : Key) : other.name ≠ name := by
      rintro rfl
      cases (Key.ofName_name other).symm.trans hkey
    cases hlegacy : LegacyKey.ofName name with
    | some legacy =>
      obtain rfl := LegacyKey.name_of_ofName hlegacy
      rw [same_under_legacyKey_iff]
      constructor
      · intro h
        refine ⟨fun other hname => ?_, fun other v hname => absurd hname (hno other),
          fun other v hname => absurd hname (hno other)⟩
        rwa [LegacyKey.eq_of_name hname]
      · intro h
        exact h.legacy legacy rfl
    | none =>
      -- neither of the tables has such a key
      refine iff_of_true (fun new => ?_) ⟨fun other hname => ?_,
        fun other v hname => absurd hname (hno other), fun other v hname => absurd hname (hno other)⟩
      · rw [validateAndSetValue_unknown hkey, validateAndSetValue, hkey]
        simp only [hlegacy, reduceCtorEq]
      · subst hname
        cases (LegacyKey.ofName_name other).symm.trans hlegacy

/-- **A key that OpenAI would not take is set in tests**: the sections are not asked. -/
theorem double_sets_foreign_key : ¬ ∀ (urlScheme : Text → Option Text) (old : Config)
    (name value : Text), Agree urlScheme old name value := by
  intro h
  have haligned := (agree_iff _ _ _ _).1
    (h webScheme (.default 8) "ai.api_key".toList "0123456789".toList)
  have haccepts : Key.Accepts webScheme .aiApiKey (some "0123456789".toList) := by
    rintro key ⟨⟩ -
    decide
  have hfits := (haligned.valid .aiApiKey (some "0123456789".toList) rfl
    ⟨rfl, haccepts, nofun⟩).2 id
  -- a key of OpenAI starts otherwise
  have hbegins := hfits.provider.openaiKey (by decide) "0123456789".toList rfl (by decide)
  exact absurd hbegins (by decide)

end SubxCore.Configuration.TestConfigService
