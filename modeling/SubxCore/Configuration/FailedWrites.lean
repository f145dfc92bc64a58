import SubxCore.Configuration.SetAndGet
/-!
# Writes that fail

What is left of the file and the cache when a value is set, the
configuration is saved or the defaults are restored, and that fails in
validation or in writing the file. The file is written in place, so a write
that fails once the file is open leaves what it has written so far; the
defaults are validated after they have replaced the file. `unharmed_iff`
says when nothing is lost.
-/

namespace SubxCore.Configuration

open Text Program

variable {V : Type}

/-- What writes the file. -/
inductive Edit
  | set (key value : Text)
  | save
  | reset
  deriving DecidableEq

/-- An error that is neither one of validation nor one of writing the file. -/
def OfToml (halt : Halt) : Prop := ∃ e,
  halt = .failed (.config ("TOML serialization error: ".toList ++ e)) ∨
  halt = .failed (.config ("Failed to build configuration: ".toList ++ e))

/-- Texts that do not begin in the same way. -/
theorem append_ne_append {a b x y : Text} (h : ¬ (a <+: b ∨ b <+: a)) : a ++ x ≠ b ++ y :=
  fun heq => h (List.prefix_or_prefix_of_prefix ⟨x, heq⟩ ⟨y, rfl⟩)

/-- An error whose message begins in another way than those of TOML. -/
theorem not_ofToml {a x : Text}
    (h : ∀ b ∈ ["TOML serialization error: ", "Failed to build configuration: "].map String.toList,
      ¬ (a <+: b ∨ b <+: a)) : ¬ OfToml (.failed (.config (a ++ x))) := by
  simp only [List.map_cons, List.map_nil, List.forall_mem_cons] at h
  rintro ⟨e, he | he⟩ <;> injection he with he <;> injection he with he
  · exact append_ne_append h.1 he
  · exact append_ne_append h.2.1 he

theorem not_ofToml_write {f : WriteFault} :
    ¬ OfToml (.failed (.config ("Failed to write config file: ".toList ++ f.message))) :=
  not_ofToml (by decide)

theorem not_ofToml_validation {e : Text} :
    ¬ OfToml (.failed (.config ("Configuration validation failed: ".toList ++ e))) :=
  not_ofToml (by decide)

namespace Service

variable {S : Service V} {s s' : State} {fault : Option WriteFault} {config : Config}
  {key value content : Text} {e : SubXError}

/-- An edit of the file. -/
def carryOut (S : Service V) (fault : Option WriteFault) : Edit → Task Unit
  | .set key value => S.setConfigValue fault key value
  | .save => S.saveConfig fault
  | .reset => S.resetToDefaults fault

/-- What an edit should come to that fails in validation or in writing. -/
def Unharmed (S : Service V) (fault : Option WriteFault) (edit : Edit) (s : State) : Prop :=
  ∀ halt s', (S.carryOut fault edit).exec s = (.error halt, s') → ¬ OfToml halt → s' = s

/-- **When nothing is lost.** -/
def Harmless (S : Service V) (fault : Option WriteFault) : Edit → State → Prop
  | .set key value, s => ∀ f ∈ fault, ∀ config content, S.edited s.file key value = .ok config →
    S.serialize config = .ok content → f.leaves (utf8 content) s.file = s.file
  | .save, s => ∀ f ∈ fault, ∀ path config content, S.current s = .ok config →
    S.configFilePath = .ok path → S.serialize config = .ok content →
    s.cache = some config ∧ f.leaves (utf8 content) s.file = s.file
  | .reset, s => ∀ path content, S.configFilePath = .ok path →
    S.serialize (.default S.numCpus) = .ok content →
    match fault with
    | some f => f.leaves (utf8 content) s.file = s.file
    | none => (∀ loaded, S.loaded (some (utf8 content)) = .ok loaded →
        validateConfig S.crates.urlScheme (overrides S.var loaded) = .ok ()) ∨
      s = ⟨some (utf8 content), none⟩

theorem ofToml_of_serialize (h : S.serialize config = .error e) : OfToml (.failed e) := by
  unfold serialize at h
  cases hcontent : S.crates.toStringPretty config with
  | ok content =>
    rw [hcontent] at h
    cases h
  | error text =>
    rw [hcontent] at h
    exact ⟨text, .inl (congrArg Halt.failed (Except.error.inj h).symm)⟩

theorem ofToml_of_loaded {file : ConfigFile} (h : S.loaded file = .error e) :
    OfToml (.failed e) := by
  unfold loaded at h
  split at h
  · next text _ => exact ⟨text, .inr (congrArg Halt.failed (Except.error.inj h).symm)⟩
  · cases h

/-! ## Setting a value -/

theorem unharmed_set_iff :
    S.Unharmed fault (.set key value) s ↔ S.Harmless fault (.set key value) s := by
  constructor
  · rintro h f rfl config content hedited hserialize
    exact congrArg State.file
      (h _ _ (exec_setConfigValue_of_fault hedited hserialize) not_ofToml_write)
  · intro h halt s' hrun _
    cases hedited : S.edited s.file key value with
    | error halt =>
      rw [carryOut, exec_setConfigValue_of_error hedited] at hrun
      exact (Prod.mk.inj hrun).2.symm
    | ok config =>
      cases hserialize : S.serialize config with
      | error e =>
        rw [carryOut, exec_setConfigValue_of_unserialized hedited hserialize] at hrun
        exact (Prod.mk.inj hrun).2.symm
      | ok content =>
        cases fault with
        | none =>
          rw [carryOut, exec_setConfigValue_of_ok hedited hserialize] at hrun
          cases hrun
        | some f =>
          rw [carryOut, exec_setConfigValue_of_fault hedited hserialize] at hrun
          rw [← (Prod.mk.inj hrun).2, h f rfl config content hedited hserialize]

/-! ## Saving -/

/-- What has been loaded had a path. -/
theorem configFilePath_of_current (hcache : s.cache = none) (h : S.current s = .ok config) :
    ∃ path, S.configFilePath = .ok path := by
  rw [current, hcache] at h
  exact (loadAndValidate_eq_ok.1 h).choose_spec.2.1

theorem unharmed_save_iff : S.Unharmed fault .save s ↔ S.Harmless fault .save s := by
  constructor
  · rintro h f rfl path config content hcurrent hpath hserialize
    have hstate := h _ { s with file := f.leaves (utf8 content) s.file, cache := some config } (by
      rw [carryOut, exec_saveConfig hcurrent, hpath, exec_pureResult_bind_ok, hserialize,
        exec_pureResult_bind_ok]
      rfl) not_ofToml_write
    exact ⟨(congrArg State.cache hstate).symm, congrArg State.file hstate⟩
  · intro h halt s' hrun htoml
    cases hcurrent : S.current s with
    | error e =>
      rw [carryOut, exec_saveConfig_error hcurrent] at hrun
      exact (Prod.mk.inj hrun).2.symm
    | ok config =>
      rw [carryOut, exec_saveConfig hcurrent] at hrun
      cases hpath : S.configFilePath with
      | error e =>
        cases hcache : s.cache with
        | none =>
          obtain ⟨path, hpath'⟩ := configFilePath_of_current hcache hcurrent
          cases hpath.symm.trans hpath'
        | some cached =>
          obtain rfl := Except.ok.inj ((current_of_cached hcache).symm.trans hcurrent)
          rw [hpath, exec_pureResult_bind_error, ← hcache] at hrun
          exact (Prod.mk.inj hrun).2.symm
      | ok path =>
        cases hserialize : S.serialize config with
        | error e =>
          rw [hpath, exec_pureResult_bind_ok, hserialize, exec_pureResult_bind_error] at hrun
          rw [← Except.error.inj (Prod.mk.inj hrun).1] at htoml
          exact absurd (ofToml_of_serialize hserialize) htoml
        | ok content =>
          rw [hpath, exec_pureResult_bind_ok, hserialize, exec_pureResult_bind_ok] at hrun
          cases fault with
          | none => cases hrun
          | some f =>
            obtain ⟨hcache, hfile⟩ := h f rfl path config content hcurrent hpath hserialize
            rw [← (Prod.mk.inj hrun).2, hfile, ← hcache]

/-! ## Restoring the defaults -/

/-- What is loaded is validated. -/
theorem loadAndValidate_of_loaded {file : ConfigFile} {loaded : Config} {path : Text}
    (hloaded : S.loaded file = .ok loaded) (hpath : S.configFilePath = .ok path) :
    S.loadAndValidate file =
      match validateConfig S.crates.urlScheme (overrides S.var loaded) with
      | .ok () => .ok (overrides S.var loaded)
      | .error e => .error (.config ("Configuration validation failed: ".toList ++ e.display)) := by
  rw [loadAndValidate, hloaded, hpath]
  cases h : validateConfig S.crates.urlScheme (overrides S.var loaded) <;>
    simp only [bind, Except.bind, h] <;> rfl

theorem unharmed_reset_iff : S.Unharmed fault .reset s ↔ S.Harmless fault .reset s := by
  cases hpath : S.configFilePath with
  | error e =>
    refine iff_of_true (fun halt s' hrun _ => ?_) fun path content h => by cases hpath.symm.trans h
    rw [carryOut, resetToDefaults, hpath, exec_pureResult_bind_error] at hrun
    exact (Prod.mk.inj hrun).2.symm
  | ok path =>
    cases hserialize : S.serialize (.default S.numCpus) with
    | error e =>
      refine iff_of_true (fun halt s' hrun _ => ?_)
        fun path content _ h => by cases hserialize.symm.trans h
      rw [carryOut, resetToDefaults, hpath, exec_pureResult_bind_ok, hserialize,
        exec_pureResult_bind_error] at hrun
      exact (Prod.mk.inj hrun).2.symm
    | ok content =>
      have hrun : (S.carryOut fault .reset).exec s =
          (do secureWriteConfigFile fault content; S.reload : Task Unit).exec s := by
        rw [carryOut, resetToDefaults, hpath, exec_pureResult_bind_ok, hserialize,
          exec_pureResult_bind_ok]
      have honly {P : Text → Prop} : (∀ path content', S.configFilePath = .ok path →
          S.serialize (.default S.numCpus) = .ok content' → P content') ↔ P content := by
        refine ⟨fun h => h path content hpath hserialize, fun h path' content' _ h' => ?_⟩
        rwa [← Except.ok.inj (hserialize.symm.trans h')]
      rw [Unharmed, hrun, Harmless, honly]
      cases fault with
      | some f =>
        rw [exec_secureWriteConfigFile_bind_some]
        constructor
        · intro h
          exact congrArg State.file (h _ _ rfl not_ofToml_write)
        · intro h halt s' hend _
          rw [← (Prod.mk.inj hend).2, h]
      | none =>
        rw [exec_secureWriteConfigFile_bind_none, exec_reload]
        cases hloaded : S.loaded (some (utf8 content)) with
        | error e =>
          refine iff_of_true (fun halt s' hend htoml => ?_) (.inl fun loaded h => by cases h)
          rw [loadAndValidate, hloaded] at hend
          rw [← Except.error.inj (Prod.mk.inj hend).1] at htoml
          exact absurd (ofToml_of_loaded hloaded) htoml
        | ok loaded =>
          rw [loadAndValidate_of_loaded hloaded hpath]
          simp only [Except.ok.injEq, forall_eq']
          cases hvalid : validateConfig S.crates.urlScheme (overrides S.var loaded) with
          | ok u => exact iff_of_true (fun halt s' hend => by cases hend) (.inl rfl)
          | error e =>
            constructor
            · intro h
              exact .inr (h _ _ rfl not_ofToml_validation).symm
            · rintro (h | rfl) halt s' hend -
              · cases h
              · exact (Prod.mk.inj hend).2.symm

/-- **Nothing is lost exactly when the edit is harmless.** -/
theorem unharmed_iff (S : Service V) (fault : Option WriteFault) (edit : Edit) (s : State) :
    S.Unharmed fault edit s ↔ S.Harmless fault edit s := by
  cases edit with
  | set key value => exact unharmed_set_iff
  | save => exact unharmed_save_iff
  | reset => exact unharmed_reset_iff

/-- A machine with a file, in which the model is set. -/
def settingAgain (vars : List (String × String)) : Service Document :=
  known [(withModelText, withModel.document)] [(withModel.skipLegacy, withModelText)] vars

variable {vars : List (String × String)}

theorem validateField_model :
    validateField webScheme "ai.model".toList "gpt-4o".toList = .ok () :=
  passes_iff.1 (by decide +kernel)

theorem validateConfig_withModel : validateConfig webScheme withModel.skipLegacy = .ok () :=
  passes_iff.1 (by decide +kernel)

theorem validateAllFields_withModel :
    validateAllFields webScheme withModel.skipLegacy = .ok () := by
  rw [validateAllFields_eq_ok_iff]
  intro key
  rw [get_skipLegacy]
  -- all but the model is as in the defaults
  by_cases hmodel : key = .aiModel
  · subst hmodel
    exact ⟨by decide, by decide⟩
  · have hput : withModel = Key.put .aiModel "gpt-4o".toList (.default 8) := rfl
    rw [hput, Key.get_put_of_ne hmodel]
    exact accepts_default_web key

theorem edited_settingAgain (hpath : (settingAgain vars).var "SUBX_CONFIG_PATH" = none) :
    (settingAgain vars).edited (some (utf8 withModelText)) "ai.model".toList "gpt-4o".toList =
      .ok withModel.skipLegacy := by
  refine edited_eq_ok.2 ⟨withModel.skipLegacy, loadForRepair_eq_ok.2 ?_,
    validateAndSetValue_eq_ok.2 ⟨validateField_model, rfl, validateConfig_withModel⟩⟩
  have hfile : ∃ path, (settingAgain vars).configFilePath = .ok path :=
    ⟨_, by rw [configFilePath, hpath]; rfl⟩
  exact ⟨withModelText, withModel.skipLegacy, hfile, fromUtf8_utf8 _,
    fromStr_known deserializeConfig_withModel, rfl, validateAllFields_withModel⟩

theorem serialize_settingAgain :
    (settingAgain vars).serialize withModel.skipLegacy = .ok withModelText := by
  rw [serialize, settingAgain, known, toStringPretty_known]
  rfl

theorem withModelText_ne_nil : utf8 withModelText ≠ utf8 [] := by
  refine utf8_injective.ne ?_
  rw [withModelText, textWithDefaults, String.toList_append]
  exact List.append_ne_nil_of_right_ne_nil _ (by decide)

/-- **A disk that is full leaves an empty file.** -/
theorem full_disk_loses_file : ¬ ∀ (V : Type) (S : Service V) (fault : Option WriteFault)
    (edit : Edit) (s : State), S.Unharmed fault edit s := by
  intro h
  have hstate := h _ (settingAgain []) (some (.writing 0 "No space left on device".toList))
    (.set "ai.model".toList "gpt-4o".toList) ⟨some (utf8 withModelText), none⟩ _ _
    (exec_setConfigValue_of_fault (edited_settingAgain rfl) serialize_settingAgain)
    not_ofToml_write
  exact withModelText_ne_nil (Option.some.inj (congrArg State.file hstate)).symm

end Service

end SubxCore.Configuration
