import SubxCore.Configuration.FieldRules
import SubxCore.Configuration.Service
/-!
# What is in the cache has been validated

The service as a machine: its calls, each with the way in which a write may
fail under it, and the writes to the file by others in between. Whatever is
called and written, the cache holds only what `validate_config` lets
through.
-/

namespace SubxCore.Configuration

open Text Program

variable {V : Type}

/-- What is called on the service. -/
inductive Call
  | getConfig
  | reload
  | loadForRepair
  | getConfigValue (key : Text)
  | setConfigValue (fault : Option WriteFault) (key value : Text)
  | saveConfig (fault : Option WriteFault)
  | resetToDefaults (fault : Option WriteFault)
  deriving DecidableEq

/-- What happens to the file and the cache. -/
inductive Event
  | called (call : Call)
  /-- Someone else writes the file, or deletes it. -/
  | written (file : ConfigFile)
  deriving DecidableEq

namespace Service

/-- A call, without its result. -/
def perform (S : Service V) : Call → Task Unit
  | .getConfig => do let _ ← S.getConfig
  | .reload => S.reload
  | .loadForRepair => do let _ ← S.repairView
  | .getConfigValue key => do let _ ← S.getConfigValue key
  | .setConfigValue fault key value => S.setConfigValue fault key value
  | .saveConfig fault => S.saveConfig fault
  | .resetToDefaults fault => S.resetToDefaults fault

/-- **The service among others**: what may happen, in any order. -/
def machine (S : Service V) : Machine State Event where
  enabled _ _ := True
  effect s
    | .called call => ((S.perform call).exec s).2
    | .written file => { s with file }

instance (S : Service V) : ∀ s e, Decidable (S.machine.enabled s e) :=
  fun _ _ => inferInstanceAs (Decidable True)

variable {S : Service V} {s s' : State} {config : Config} {file : ConfigFile}
  {key value content : Text} {fault : Option WriteFault}

/-! ## What validation lets through -/

/-- A configuration that is loaded has been validated. -/
theorem validateConfig_of_loadAndValidate (h : S.loadAndValidate file = .ok config) :
    validateConfig S.crates.urlScheme config = .ok () := by
  obtain ⟨loaded, -, -, -, hvalid⟩ := loadAndValidate_eq_ok.1 h
  exact hvalid

/-- A configuration with a value set in it has been validated. -/
theorem validateConfig_of_edited (h : S.edited file key value = .ok config) :
    validateConfig S.crates.urlScheme config = .ok () := by
  obtain ⟨old, -, hset⟩ := edited_eq_ok.1 h
  exact (validateAndSetValue_eq_ok.1 hset).2.2

/-! ## The invariant -/

/-- What is cached has been validated. -/
def CacheValid (S : Service V) (s : State) : Prop :=
  ∀ config ∈ s.cache, validateConfig S.crates.urlScheme config = .ok ()

/-- A program that caches nothing but what has been validated. -/
abbrev KeepsValid (S : Service V) {α : Type} (x : Task α) : Prop :=
  x.Keeps fun s s' => CacheValid S s → CacheValid S s'

instance : Std.Refl fun s s' => CacheValid S s → CacheValid S s' := ⟨fun _ h => h⟩

instance : IsTrans State fun s s' => CacheValid S s → CacheValid S s' :=
  ⟨fun _ _ _ h h' hs => h' (h hs)⟩

theorem keepsValid_pureResult {α : Type} {result : Except SubXError α} :
    KeepsValid S (pureResult result) := fun _ h => h

theorem keepsValid_secureWriteConfigFile :
    KeepsValid S (secureWriteConfigFile fault content) := by
  intro s h
  cases fault <;> exact h

theorem keepsValid_getConfig : KeepsValid S S.getConfig := by
  intro s h
  cases hcache : s.cache with
  | some config =>
    rw [exec_getConfig_of_cached hcache]
    exact h
  | none =>
    cases hload : S.loadAndValidate s.file with
    | error e =>
      rw [exec_getConfig_of_error hcache hload]
      exact h
    | ok config =>
      rw [exec_getConfig_of_loaded hcache hload]
      intro config' hconfig'
      cases hconfig'
      exact validateConfig_of_loadAndValidate hload

theorem keepsValid_reload : KeepsValid S S.reload := by
  refine Keeps.bind (fun s _ config hconfig => ?_) fun _ =>
    Keeps.bind keepsValid_getConfig fun _ => Keeps.pure _
  cases hconfig

theorem keepsValid_setConfigValue : KeepsValid S (S.setConfigValue fault key value) := by
  intro s h
  cases hedited : S.edited s.file key value with
  | error halt =>
    rw [exec_setConfigValue_of_error hedited]
    exact h
  | ok config =>
    cases hserialize : S.serialize config with
    | error e =>
      rw [exec_setConfigValue_of_unserialized hedited hserialize]
      exact h
    | ok content =>
      cases fault with
      | some fault =>
        rw [exec_setConfigValue_of_fault hedited hserialize]
        exact h
      | none =>
        rw [exec_setConfigValue_of_ok hedited hserialize]
        intro config' hconfig'
        cases hconfig'
        exact validateConfig_of_edited hedited

/-- **Every call** keeps the cache valid. -/
theorem keepsValid_perform : ∀ call, KeepsValid S (S.perform call)
  | .getConfig => Keeps.bind keepsValid_getConfig fun _ => Keeps.pure _
  | .reload => keepsValid_reload
  | .loadForRepair => Keeps.bind (Keeps.bind (fun _ h => h) fun _ => keepsValid_pureResult)
      fun _ => Keeps.pure _
  | .getConfigValue _ => Keeps.bind
      (Keeps.bind keepsValid_getConfig fun _ => keepsValid_pureResult) fun _ => Keeps.pure _
  | .setConfigValue _ _ _ => keepsValid_setConfigValue
  | .saveConfig _ => Keeps.bind keepsValid_getConfig fun _ =>
      Keeps.bind keepsValid_pureResult fun _ => Keeps.bind keepsValid_getConfig fun _ =>
        Keeps.bind keepsValid_pureResult fun _ => keepsValid_secureWriteConfigFile
  | .resetToDefaults _ => Keeps.bind keepsValid_pureResult fun _ =>
      Keeps.bind keepsValid_pureResult fun _ =>
        Keeps.bind keepsValid_secureWriteConfigFile fun _ => keepsValid_reload

theorem cacheValid_of_reaches (h : S.machine.Reaches ⟨file, none⟩ s) : CacheValid S s := by
  refine h.invariant (fun config hconfig => by cases hconfig) fun t event _ _ ht => ?_
  cases event with
  | called call => exact keepsValid_perform call t ht
  | written file => exact ht

/-- A value that could not be set leaves the cache as it is. -/
theorem cache_of_setConfigValue_error {halt : Halt}
    (h : (S.setConfigValue fault key value).exec s = (.error halt, s')) : s'.cache = s.cache := by
  cases hedited : S.edited s.file key value with
  | error halt =>
    rw [exec_setConfigValue_of_error hedited] at h
    cases h
    rfl
  | ok config =>
    cases hserialize : S.serialize config with
    | error e =>
      rw [exec_setConfigValue_of_unserialized hedited hserialize] at h
      cases h
      rfl
    | ok content =>
      cases fault with
      | some fault =>
        rw [exec_setConfigValue_of_fault hedited hserialize] at h
        cases h
        rfl
      | none =>
        rw [exec_setConfigValue_of_ok hedited hserialize] at h
        cases h

/-- **What is in the cache has been validated**, whatever has been called and
written before; looking at the file for repair does not change it, and neither
does a value that could not be set. -/
theorem cached_configuration_valid (h : S.machine.Reaches ⟨file, none⟩ s) :
    (∀ config ∈ s.cache, validateConfig S.crates.urlScheme config = .ok ()) ∧
      (S.repairView.exec s).2.cache = s.cache ∧
      ∀ fault key value halt s', (S.setConfigValue fault key value).exec s = (.error halt, s') →
        s'.cache = s.cache :=
  ⟨cacheValid_of_reaches h, rfl, fun _ _ _ _ _ => cache_of_setConfigValue_error⟩

/-- A machine with eight processors, no variables and no configuration file. -/
def pristine : Service Unit where
  crates :=
    { format := ⟨fun _ => some fun _ => none, fun _ => none, fun _ => none, fun _ => none,
        fun _ => none, fun _ => none, fun _ => none, fun _ => none, fun _ => none⟩
      build := fun _ _ _ => .ok ()
      fromStr := fun _ => .error "missing field".toList
      toStringPretty := fun _ => .error "unsupported".toList
      urlScheme := webScheme }
  env := fun _ => none
  defaultFile := fun _ => none
  configDir := some "/home/user/.config".toList
  numCpus := 8

/-- The defaults are cached there once they have been asked for. -/
theorem cached_configuration_valid_pristine :
    pristine.machine.Reaches ⟨none, none⟩ ⟨none, some (.default 8)⟩ ∧
      ∀ config ∈ some (Config.default 8), validateConfig webScheme config = .ok () := by
  have hrun : pristine.machine.Reaches ⟨none, none⟩ ⟨none, some (.default 8)⟩ :=
    Machine.Reaches.refl.run (show pristine.machine.run ⟨none, none⟩ [.called .getConfig] =
      some ⟨none, some (.default 8)⟩ by decide +kernel)
  exact ⟨hrun, (cached_configuration_valid hrun).1⟩

end Service

end SubxCore.Configuration
