import SubxCore.Common.FloatValue
import SubxCore.Configuration.SetAndGet
/-!
# The ranges of the settings

A configuration that is accepted has its settings in the ranges that are
documented for them, as far as they are numbers. Three of them are refused
when they are below a bound or above one, and what is not a number is
neither (`accepted_inRange_iff`).
-/

namespace SubxCore.Configuration

open Text Decimal Kind

/-- **The documented ranges.** -/
structure InRange (config : Config) : Prop where
  temperature : .finite 0 ≤ config.ai.temperature.value ∧ config.ai.temperature.value ≤ .finite 2
  maxOffsetSeconds : .finite 0 < config.sync.maxOffsetSeconds.value ∧
    config.sync.maxOffsetSeconds.value ≤ .finite 3600
  sensitivity : .finite 0 ≤ config.sync.vad.sensitivity.value ∧
    config.sync.vad.sensitivity.value ≤ .finite 1
  encodingDetectionConfidence : .finite 0 ≤ config.formats.encodingDetectionConfidence.value ∧
    config.formats.encodingDetectionConfidence.value ≤ .finite 1
  maxConcurrentJobs : 1 ≤ config.general.maxConcurrentJobs ∧ config.general.maxConcurrentJobs ≤ 64
  maxWorkers : 1 ≤ config.parallel.maxWorkers ∧ config.parallel.maxWorkers ≤ 64
  batchSize : 1 ≤ config.translation.batchSize ∧ config.translation.batchSize ≤ 1000

/-- The settings that are refused below a bound and above one. -/
def comparedKeys : List Key :=
  [.aiTemperature, .syncMaxOffsetSeconds, .formatsEncodingDetectionConfidence]

/-- Whether a value is not a number. -/
def Kind.IsNan : (kind : Kind) → kind.Value → Prop
  | float, x => x = .nan
  | _, _ => False

/-- Whether a setting is not a number once a value has been set. -/
def BecomesNan (old : Config) (name value : Text) (key : Key) : Prop :=
  if key.name = name then ∃ v, key.kind.parse value = some v ∧ key.kind.IsNan v
  else key.kind.IsNan (key.get old)

/-! ## Bounds -/

section Bounds

variable {m n : ℕ} {x : F32}

theorem f32_ne_nan {e : ℤ} : f32 n e ≠ .nan := BinaryFloat.ofDecimal_ne_nan

/-- A bound that is a small natural number is that number. -/
theorem value_f32 (h : n ≤ 2 ^ 24) : (f32 n 0).value = .finite n := by
  have htop : (n : ℚ) < 2 ^ binary32.maxExponent :=
    calc (n : ℚ) ≤ (2 ^ 24 : ℕ) := by exact_mod_cast h
      _ < 2 ^ binary32.maxExponent := by norm_num [binary32]
  exact BinaryFloat.value_ofDecimal_natCast h (by decide) htop

/-- **What is neither below nor above** is within bounds when it is a number. -/
theorem within_iff_ne_nan (hm : m ≤ 2 ^ 24) (hn : n ≤ 2 ^ 24)
    (h : ¬ x < f32 m 0 ∧ ¬ f32 n 0 < x) :
    .finite (m : ℚ) ≤ x.value ∧ x.value ≤ .finite (n : ℚ) ↔ x ≠ .nan := by
  rw [← value_f32 hm, ← value_f32 hn, BinaryFloat.value_le, BinaryFloat.value_le]
  constructor
  · intro hx
    exact (BinaryFloat.ne_nan_of_le hx.1).2
  · intro hx
    exact ⟨(BinaryFloat.not_lt_iff_le f32_ne_nan hx).1 h.1,
      (BinaryFloat.not_lt_iff_le hx f32_ne_nan).1 h.2⟩

/-- And what is not at most the lower one is above it. -/
theorem above_iff_ne_nan (hm : m ≤ 2 ^ 24) (hn : n ≤ 2 ^ 24)
    (h : ¬ x ≤ f32 m 0 ∧ ¬ f32 n 0 < x) :
    .finite (m : ℚ) < x.value ∧ x.value ≤ .finite (n : ℚ) ↔ x ≠ .nan := by
  rw [← value_f32 hm, ← value_f32 hn, BinaryFloat.value_lt, BinaryFloat.value_le]
  constructor
  · intro hx
    exact (BinaryFloat.ne_nan_of_le hx.2).1
  · intro hx
    refine ⟨?_, (BinaryFloat.not_lt_iff_le hx f32_ne_nan).1 h.2⟩
    by_contra hlt
    exact h.1 ((BinaryFloat.not_lt_iff_le hx f32_ne_nan).1 hlt)

end Bounds

/-! ## Accepted configurations -/

variable {urlScheme : Text → Option Text} {config old new : Config} {name value : Text}

/-- **What the sections let through is in its range**, as far as it is a number. -/
theorem inRange_iff (h : validateConfig urlScheme config = .ok ()) :
    InRange config ↔ ∀ key ∈ comparedKeys, ¬ key.kind.IsNan (key.get config) := by
  have hrule := (validateConfig_eq_ok_iff.1 h).2
  have htemperature := within_iff_ne_nan (m := 0) (n := 2) (by decide) (by decide)
    (hrule .aiTemperature)
  have hoffset := above_iff_ne_nan (m := 0) (n := 3600) (by decide) (by decide)
    (hrule .syncMaxOffsetSeconds)
  have hconfidence := within_iff_ne_nan (m := 0) (n := 1) (by decide) (by decide)
    (hrule .formatsEncodingDetectionConfidence)
  -- the sensitivity is compared the other way round
  have hsensitivity : f32 0 0 ≤ config.sync.vad.sensitivity ∧
    config.sync.vad.sensitivity ≤ f32 1 0 := hrule .syncVadSensitivity
  rw [← BinaryFloat.value_le, ← BinaryFloat.value_le, value_f32 (by decide),
    value_f32 (by decide)] at hsensitivity
  push_cast at htemperature hoffset hconfidence hsensitivity
  simp only [comparedKeys, List.forall_mem_cons, List.not_mem_nil, false_implies, implies_true,
    and_true]
  constructor
  · intro hrange
    exact ⟨htemperature.1 hrange.temperature, hoffset.1 hrange.maxOffsetSeconds,
      hconfidence.1 hrange.encodingDetectionConfidence⟩
  · rintro ⟨htemp, hoff, hconf⟩
    exact {
      temperature := htemperature.2 htemp
      maxOffsetSeconds := hoffset.2 hoff
      sensitivity := hsensitivity
      encodingDetectionConfidence := hconfidence.2 hconf
      maxConcurrentJobs := hrule .generalMaxConcurrentJobs
      maxWorkers := hrule .parallelMaxWorkers
      batchSize := hrule .translationBatchSize }

/-- A setting that was put is not a number when its text says so; the others are what
they were. -/
theorem isNan_put_iff {set key : Key} {v : set.kind.Value}
    (hparse : set.kind.parse value = some v) :
    key.kind.IsNan (key.get (set.put v old)) ↔ BecomesNan old set.name value key := by
  by_cases hkey : key = set
  · subst hkey
    rw [Key.get_put, BecomesNan, if_pos rfl, hparse]
    simp only [Option.some.injEq, exists_eq_left']
  · have hname : key.name ≠ set.name := fun h => hkey (Key.eq_of_name h)
    rw [Key.get_put_of_ne hkey, BecomesNan, if_neg hname]

/-- A value that is set leaves the settings in range, as far as they are numbers. -/
theorem inRange_set_iff (h : validateAndSetValue urlScheme old name value = .ok new) :
    InRange new ↔ ∀ key ∈ comparedKeys, ¬ BecomesNan old name value key := by
  obtain ⟨set, v, rfl, hparse, -, rfl, hvalid⟩ := exists_put_of_validateAndSetValue h
  rw [inRange_iff hvalid]
  exact forall₂_congr fun key _ => not_congr (isNan_put_iff hparse)

/-- **An accepted configuration keeps the documented ranges exactly when none of the
compared settings is a NaN**, and after a value was set exactly when neither the
value nor what was in the file makes one. -/
theorem accepted_inRange_iff {V : Type} (S : Service V) (config : Config) (s s' : State)
    (fault : Option WriteFault) (name value : Text) :
    (validateConfig S.crates.urlScheme config = .ok () →
      (InRange config ↔ ∀ key ∈ comparedKeys, ¬ key.kind.IsNan (key.get config))) ∧
    ((S.setConfigValue fault name value).exec s = (.ok (), s') →
      ∃ old new, S.loadForRepair s.file = .ok old ∧ s'.cache = some new ∧
        (InRange new ↔ ∀ key ∈ comparedKeys, ¬ BecomesNan old name value key)) := by
  constructor
  · intro h
    exact inRange_iff h
  · intro h
    obtain ⟨new, content, hedited, -, rfl⟩ := Service.exec_setConfigValue_eq_ok h
    obtain ⟨old, hold, hset⟩ := Service.edited_eq_ok.1 hedited
    exact ⟨old, new, hold, rfl, inRange_set_iff hset⟩

/-- The defaults are accepted, and a model is set. -/
theorem default_inRange_iff : (InRange (.default 8) ↔
      ∀ key ∈ comparedKeys, ¬ key.kind.IsNan (key.get (.default 8))) ∧
    ∃ old new, Service.settingModel.loadForRepair none = .ok old ∧ some withModel = some new ∧
      (InRange new ↔
        ∀ key ∈ comparedKeys, ¬ BecomesNan old "ai.model".toList "gpt-4o".toList key) :=
  have h := accepted_inRange_iff Service.settingModel (.default 8) ⟨none, none⟩
    ⟨some (utf8 withModelText), some withModel⟩ none "ai.model".toList "gpt-4o".toList
  ⟨h.1 validateConfig_default, h.2 (Service.exec_setConfigValue_of_ok (s := ⟨none, none⟩)
    Service.edited_settingModel Service.serialize_settingModel)⟩

/-- **A NaN is set as the maximum**; it is accepted, and in no range. -/
theorem nan_offset_is_accepted : ∃ config,
    validateAndSetValue webScheme (.default 8) "sync.max_offset_seconds".toList "nan".toList =
      .ok config ∧
    validateConfig webScheme config = .ok () ∧ ¬ InRange config := by
  refine ⟨{ Config.default 8 with sync.maxOffsetSeconds := .nan }, ?_, ?_, ?_⟩
  · exact validateAndSetValue_eq_ok.2
      ⟨passes_iff.1 (by decide +kernel), rfl, passes_iff.1 (by decide +kernel)⟩
  · exact passes_iff.1 (by decide +kernel)
  · intro h
    exact Bool.false_ne_true h.maxOffsetSeconds.2

end SubxCore.Configuration
