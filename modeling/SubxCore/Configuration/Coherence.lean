import SubxCore.Configuration.DefaultFile
import SubxCore.Configuration.FailedWrites
/-!
# The cache and the file

What `get_config` answers against what a fresh `load_and_validate` would.
The two agree as long as every value is set in a configuration that the
variables and `config/default` leave as it is: `set_config_value` caches what
it writes, which is what the file says without them.
-/

namespace SubxCore.Configuration

open Text Program

variable {V : Type}

namespace Service

variable {S : Service V} {s t t' : State} {fault : Option WriteFault} {config : Config}
  {file : ConfigFile} {key value content : Text} {fallback : Option Fallback}

/-- **What is loaded after a write** is what was written, unless the overrides or
`config/default` change it. -/
theorem loadAndValidate_written_iff (hread : S.ReadsBack fallback)
    (hserialize : S.serialize config = .ok content) (hpath : ∃ path, S.configFilePath = .ok path)
    (hvalid : validateConfig S.crates.urlScheme config = .ok ()) :
    S.loadAndValidate (some (utf8 content)) = .ok config ↔
      ∃ d ∈ fallback, overrides S.var (d.loaded S.numCpus S.var config) = config := by
  rw [loadAndValidate_written hread (Run.mapError_eq_ok.1 hserialize) hpath, and_iff_left hvalid]
  exact exists_congr fun d => and_congr_right fun _ => eq_comm

/-! ## The invariant -/

/-- What is cached is what the file and the variables give. -/
def Coherent (S : Service V) (s : State) : Prop :=
  ∀ config ∈ s.cache, S.loadAndValidate s.file = .ok config

theorem loadAndValidate_of_current (hs : S.Coherent s) (h : S.current s = .ok config) :
    S.loadAndValidate s.file = .ok config := by
  unfold current at h
  split at h
  · next cached hcache =>
    obtain rfl := Except.ok.inj h
    exact hs _ hcache
  · exact h

theorem coherent_cached (h : S.loadAndValidate file = .ok config) :
    S.Coherent ⟨file, some config⟩ := by
  rintro cached ⟨⟩
  exact h

theorem coherent_none : S.Coherent ⟨file, none⟩ := by
  rintro config ⟨⟩

/-- The steps after which the cache says what the file says. A value is set in a
configuration that `config/default` and the variables leave as it is, in a file that
is there; a write that fails leaves the file as it was, or nothing was cached. -/
def InStep (S : Service V) (fallback : Option Fallback) (s : State) : Event → Prop
  | .called .getConfig | .called .reload => True
  | .called (.setConfigValue fault key value) => ∀ config content,
    S.edited s.file key value = .ok config → S.serialize config = .ok content →
    match fault with
    | none => ∃ d ∈ fallback, overrides S.var (d.loaded S.numCpus S.var config) = config
    | some f => s.cache = none ∨ f.leaves (utf8 content) s.file = s.file
  | .called (.resetToDefaults fault) => ∀ f ∈ fault, ∀ content,
    S.serialize (.default S.numCpus) = .ok content →
    s.cache = none ∨ f.leaves (utf8 content) s.file = s.file
  | _ => False

/-- A write that fails, when it leaves the file or nothing is cached. -/
theorem coherent_leaves {f : WriteFault} {bytes : List UInt8} (hs : S.Coherent s)
    (h : s.cache = none ∨ f.leaves bytes s.file = s.file) :
    S.Coherent { s with file := f.leaves bytes s.file } := by
  rcases h with h | h
  · rw [h]
    exact coherent_none
  · rw [h]
    exact hs

theorem coherent_getConfig (hs : S.Coherent s) :
    S.Coherent ((S.perform .getConfig).exec s).2 := by
  cases h : S.current s with
  | error e => rwa [perform, exec_bind_of_error (exec_getConfig_error h)]
  | ok config =>
    rw [perform, exec_bind_of_ok (exec_getConfig_of_ok h)]
    exact coherent_cached (loadAndValidate_of_current hs h)

theorem coherent_reload : S.Coherent (S.reload.exec s).2 := by
  rw [exec_reload]
  split
  · next config h => exact coherent_cached h
  · exact coherent_none

theorem coherent_setConfigValue (hread : S.ReadsBack fallback) (hs : S.Coherent s)
    (h : S.InStep fallback s (.called (.setConfigValue fault key value))) :
    S.Coherent ((S.setConfigValue fault key value).exec s).2 := by
  cases hedited : S.edited s.file key value with
  | error halt => rwa [exec_setConfigValue_of_error hedited]
  | ok config =>
    cases hserialize : S.serialize config with
    | error e => rwa [exec_setConfigValue_of_unserialized hedited hserialize]
    | ok content =>
      have hstep := h config content hedited hserialize
      cases fault with
      | some f =>
        rw [exec_setConfigValue_of_fault hedited hserialize]
        exact coherent_leaves hs hstep
      | none =>
        rw [exec_setConfigValue_of_ok hedited hserialize]
        exact coherent_cached <| (loadAndValidate_written_iff hread hserialize
          (configFilePath_of_edited hedited) (validateConfig_of_edited hedited)).2 hstep

theorem coherent_resetToDefaults (hs : S.Coherent s)
    (h : S.InStep fallback s (.called (.resetToDefaults fault))) :
    S.Coherent ((S.resetToDefaults fault).exec s).2 := by
  rw [resetToDefaults]
  cases S.configFilePath with
  | error e => rwa [exec_pureResult_bind_error]
  | ok path =>
    rw [exec_pureResult_bind_ok]
    cases hserialize : S.serialize (.default S.numCpus) with
    | error e => rwa [exec_pureResult_bind_error]
    | ok content =>
      rw [exec_pureResult_bind_ok]
      cases fault with
      | some f =>
        rw [exec_secureWriteConfigFile_bind_some]
        exact coherent_leaves hs (h f rfl content hserialize)
      | none =>
        rw [exec_secureWriteConfigFile_bind_none]
        exact coherent_reload

/-- **A step keeps the cache coherent.** -/
theorem coherent_effect {event : Event} (hread : S.ReadsBack fallback) (hs : S.Coherent s)
    (h : S.InStep fallback s event) : S.Coherent (S.machine.effect s event) := by
  cases event with
  | written file => exact h.elim
  | called call =>
    cases call with
    | getConfig => exact coherent_getConfig hs
    | reload => exact coherent_reload
    | setConfigValue fault key value => exact coherent_setConfigValue hread hs h
    | resetToDefaults fault => exact coherent_resetToDefaults hs h
    | loadForRepair | getConfigValue | saveConfig => exact h.elim

/-- **`get_config` answers what a fresh load would**, after any steps that keep the
file and the cache in step. -/
theorem getConfig_eq_fresh_load (hread : S.ReadsBack fallback)
    (h : (S.machine.restrict (S.InStep fallback)).Reaches ⟨file, none⟩ t)
    (hget : S.getConfig.exec t = (.ok config, t')) : S.loadAndValidate t.file = .ok config := by
  have ht : S.Coherent t := by
    refine h.invariant coherent_none fun s event _ hstep hs => ?_
    exact coherent_effect hread hs hstep.2
  cases hcurrent : S.current t with
  | error e =>
    rw [exec_getConfig_error hcurrent] at hget
    cases hget
  | ok current =>
    rw [exec_getConfig_of_ok hcurrent] at hget
    cases hget
    exact loadAndValidate_of_current ht hcurrent

/-! ## A machine with a file -/

section SettingAgain

variable {vars : List (String × String)}

/-- Without variables of the program a document stays as it is. -/
theorem overlay_eq_self {env : Environment} {doc : Document}
    (h : ∀ name ∈ ["SUBX_AI_PROVIDER", "SUBX_AI_APIKEY", "SUBX_AI_BASE_URL", "SUBX_AI_MODEL",
      "SUBX_CONFIG_PATH"], env name.toList = none) : doc.overlay env = doc := by
  simp only [List.forall_mem_cons] at h
  obtain ⟨hprovider, hkey, hurl, hmodel, hpath, -⟩ := h
  simp only [Document.overlay, hprovider, hkey, hurl, hmodel, hpath]

/-- What is written there is read back. -/
theorem readsBack_settingAgain (h : ∀ name ∈ ["SUBX_AI_PROVIDER", "SUBX_AI_APIKEY",
    "SUBX_AI_BASE_URL", "SUBX_AI_MODEL", "SUBX_CONFIG_PATH"],
    (settingAgain vars).var name = none) :
    (settingAgain vars).ReadsBack (some .silent) := by
  intro config content hwritten
  obtain ⟨rfl, rfl⟩ := Prod.mk.inj (List.mem_singleton.1 (mem_of_toStringPretty hwritten))
  refine ⟨_, build_known, ?_⟩
  rw [overlay_eq_self fun name hname => ?_]
  · exact written_document deserializeConfig_withModel (h _ (by decide)) (h _ (by decide))
      (h _ (by decide))
  · have hnone : (settingAgain vars).env name.toList = none := h name hname
    simp only [subxVariables, hnone, ite_self]

/-- The model is set there to what it was. -/
theorem effect_settingAgain (hpath : (settingAgain vars).var "SUBX_CONFIG_PATH" = none) :
    (settingAgain vars).machine.effect ⟨some (utf8 withModelText), none⟩
      (.called (.setConfigValue none "ai.model".toList "gpt-4o".toList)) =
      ⟨some (utf8 withModelText), some withModel.skipLegacy⟩ :=
  congrArg Prod.snd (exec_setConfigValue_of_ok (s := ⟨some (utf8 withModelText), none⟩)
    (edited_settingAgain hpath) serialize_settingAgain)

theorem reaches_settingAgain {ok : State → Event → Prop}
    (hpath : (settingAgain vars).var "SUBX_CONFIG_PATH" = none)
    (hok : ok ⟨some (utf8 withModelText), none⟩
      (.called (.setConfigValue none "ai.model".toList "gpt-4o".toList))) :
    ((settingAgain vars).machine.restrict ok).Reaches ⟨some (utf8 withModelText), none⟩
      ⟨some (utf8 withModelText), some withModel.skipLegacy⟩ := by
  rw [← effect_settingAgain hpath]
  exact Machine.Reaches.step (M := (settingAgain vars).machine.restrict ok) .refl ⟨trivial, hok⟩

end SettingAgain

/-- Without variables the two agree. -/
theorem getConfig_eq_fresh_load_settingAgain :
    (settingAgain []).loadAndValidate (some (utf8 withModelText)) = .ok withModel.skipLegacy := by
  have hinStep : (settingAgain []).InStep (some .silent) ⟨some (utf8 withModelText), none⟩
      (.called (.setConfigValue none "ai.model".toList "gpt-4o".toList)) := by
    intro config content hedited _
    obtain rfl := Except.ok.inj ((edited_settingAgain rfl).symm.trans hedited)
    refine ⟨.silent, rfl, ?_⟩
    rw [Fallback.loaded_silent]
    decide +kernel
  exact getConfig_eq_fresh_load (readsBack_settingAgain (by decide))
    (reaches_settingAgain rfl hinStep) (exec_getConfig_of_cached rfl)

/-- The calls in question. -/
def Listed : Event → Prop
  | .called .getConfig | .called .reload | .called (.setConfigValue none _ _)
  | .called (.resetToDefaults none) => True
  | _ => False

/-- **A hosted key in the environment is missing once a value has been set.** -/
theorem cached_config_lacks_key : ¬ ∀ (V : Type) (S : Service V) (fallback : Option Fallback)
    (file : ConfigFile) (t t' : State) (config : Config), S.ReadsBack fallback →
    (S.machine.restrict fun _ event => Listed event).Reaches ⟨file, none⟩ t →
    S.getConfig.exec t = (.ok config, t') → S.loadAndValidate t.file = .ok config := by
  intro h
  have hfresh := h _ (settingAgain [("OPENAI_API_KEY", "sk-0123456789")]) _ _ _ _ _
    (readsBack_settingAgain (by decide)) (reaches_settingAgain (by decide) trivial)
    (exec_getConfig_of_cached rfl)
  obtain ⟨d, hd, hsame⟩ := (loadAndValidate_written_iff (readsBack_settingAgain (by decide))
    serialize_settingAgain (configFilePath_of_edited (edited_settingAgain (by decide)))
    validateConfig_withModel).1 hfresh
  obtain rfl := Option.some.inj hd
  rw [Fallback.loaded_silent] at hsame
  exact absurd hsame (by decide +kernel)

end Service

end SubxCore.Configuration
