import SubxCore.Configuration.Documents
/-!
# Which variables a provider sees

A two-run statement about `load_and_validate`. With a local provider the
result is a matter of the file, the `SUBX_*` and the `LOCAL_LLM_*` variables;
with any other it is not a matter of the `LOCAL_LLM_*` variables. The
provider that decides is the one of the file and `SUBX_AI_PROVIDER`, which no
other variable has a part in.
-/

namespace SubxCore.Configuration

open Text

variable {V : Type}

/-- The variables of the program, in any letter case, as the sources read them. -/
def SubxVariable (name : Text) : Prop := "subx_".toList <+: name.map Char.toLower

instance : DecidablePred SubxVariable := fun _ => inferInstanceAs (Decidable (_ <+: _))

/-- The variables of a local provider. -/
def LocalVariable (name : Text) : Prop := "LOCAL_LLM_".toList <+: name

instance : DecidablePred LocalVariable := fun _ => inferInstanceAs (Decidable (_ <+: _))

/-- Two environments that agree on some of the variables. -/
def AgreeOn (scope : Text → Prop) (env env' : Environment) : Prop :=
  ∀ name, scope name → env name = env' name

/-! ## The overrides see what they name -/

section Overrides

variable {var var' : String → Option Text} {ai : AIConfig} {config : Config}

theorem subxOverrides_congr
    (h : ∀ name ∈ ["SUBX_AI_PROVIDER", "SUBX_AI_APIKEY", "SUBX_AI_BASE_URL", "SUBX_AI_MODEL"],
      var name = var' name) : subxOverrides var ai = subxOverrides var' ai := by
  simp only [List.forall_mem_cons] at h
  obtain ⟨hprovider, hkey, hurl, hmodel, -⟩ := h
  rw [subxOverrides, subxOverrides, hprovider, hkey, hurl, hmodel]

theorem localOverrides_congr
    (h : ∀ name ∈ ["SUBX_AI_BASE_URL", "LOCAL_LLM_BASE_URL", "SUBX_AI_APIKEY",
      "LOCAL_LLM_API_KEY"], var name = var' name) :
    localOverrides var ai = localOverrides var' ai := by
  simp only [List.forall_mem_cons] at h
  obtain ⟨hurl, hlocalUrl, hkey, hlocalKey, -⟩ := h
  rw [localOverrides, localOverrides, hurl, hlocalUrl, hkey, hlocalKey]

/-- The variables of the hosted providers that are looked at. -/
def hostedNames : List String :=
  ["OPENROUTER_API_KEY", "OPENAI_API_KEY", "OPENAI_BASE_URL", "AZURE_OPENAI_API_KEY",
   "AZURE_OPENAI_ENDPOINT", "AZURE_OPENAI_API_VERSION", "AZURE_OPENAI_DEPLOYMENT_ID"]

theorem hostedOverrides_congr (h : ∀ name ∈ hostedNames, var name = var' name) :
    hostedOverrides var ai = hostedOverrides var' ai := by
  simp only [hostedNames, List.forall_mem_cons] at h
  obtain ⟨hrouter, hopenai, hurl, hazure, hendpoint, hversion, hdeployment, -⟩ := h
  simp only [hostedOverrides, hrouter, hopenai, hurl, hazure, hendpoint, hversion, hdeployment]

theorem overrides_of_local (h : (subxOverrides var config.ai).provider = "local".toList) :
    overrides var config =
      { config with ai := localOverrides var (subxOverrides var config.ai) } := by
  simp only [overrides, if_pos h]

theorem overrides_of_hosted (h : (subxOverrides var config.ai).provider ≠ "local".toList) :
    overrides var config =
      { config with ai := hostedOverrides var (subxOverrides var config.ai) } := by
  simp only [overrides, if_neg h]

end Overrides

namespace Service

variable {S : Service V} {env' : Environment} {file : ConfigFile}

/-! ## What is loaded before the overrides -/

/-- The provider of the file and `SUBX_AI_PROVIDER` is a local one. -/
def ResolvesLocal (S : Service V) (file : ConfigFile) : Prop :=
  ∃ config, S.loaded file = .ok config ∧
    normalizeAiProvider ((S.var "SUBX_AI_PROVIDER").getD config.ai.provider) = "local".toList

theorem subxVariables_congr {env : Environment} (h : AgreeOn SubxVariable env env') :
    subxVariables env = subxVariables env' := by
  funext name
  unfold subxVariables
  split
  · next hname => exact h name hname
  · rfl

theorem loaded_congr (h : AgreeOn SubxVariable S.env env') :
    ({ S with env := env' } : Service V).loaded file = S.loaded file := by
  unfold loaded
  rw [subxVariables_congr h]

theorem var_congr {scope : Text → Prop} (h : AgreeOn scope S.env env') {name : String}
    (hname : scope name.toList) : ({ S with env := env' } : Service V).var name = S.var name :=
  (h _ hname).symm

theorem configFilePath_congr (h : AgreeOn SubxVariable S.env env') :
    ({ S with env := env' } : Service V).configFilePath = S.configFilePath := by
  unfold configFilePath
  rw [var_congr h (by decide)]

theorem subxOverrides_env_congr {ai : AIConfig} (h : AgreeOn SubxVariable S.env env') :
    subxOverrides ({ S with env := env' } : Service V).var ai = subxOverrides S.var ai :=
  subxOverrides_congr fun _ hname => var_congr h
    ((by decide : ∀ name ∈ ["SUBX_AI_PROVIDER", "SUBX_AI_APIKEY", "SUBX_AI_BASE_URL",
      "SUBX_AI_MODEL"], SubxVariable name.toList) _ hname)

/-- Loading is a matter of the sources, the overrides and the path. -/
theorem loadAndValidate_congr (hsubx : AgreeOn SubxVariable S.env env')
    (hoverrides : ∀ config, S.loaded file = .ok config →
      overrides ({ S with env := env' } : Service V).var config = overrides S.var config) :
    ({ S with env := env' } : Service V).loadAndValidate file = S.loadAndValidate file := by
  unfold loadAndValidate
  rw [loaded_congr hsubx, configFilePath_congr hsubx]
  cases hloaded : S.loaded file with
  | error e => rfl
  | ok config =>
    simp only [bind, Except.bind]
    rw [hoverrides config hloaded]

/-! ## The two runs -/

/-- With a local provider the variables of the hosted ones are not seen. -/
theorem loadAndValidate_of_local
    (h : AgreeOn (fun name => SubxVariable name ∨ LocalVariable name) S.env env')
    (hlocal : S.ResolvesLocal file) :
    ({ S with env := env' } : Service V).loadAndValidate file = S.loadAndValidate file := by
  have hsubx : AgreeOn SubxVariable S.env env' := fun name hname => h name (.inl hname)
  obtain ⟨config, hloaded, hprovider⟩ := hlocal
  refine loadAndValidate_congr hsubx fun config' hloaded' => ?_
  obtain rfl : config = config' := Except.ok.inj (hloaded.symm.trans hloaded')
  rw [overrides_of_local (by rw [subxOverrides_env_congr hsubx]; exact hprovider),
    overrides_of_local hprovider, subxOverrides_env_congr hsubx,
    localOverrides_congr fun _ hname => var_congr h
      ((by decide : ∀ name ∈ ["SUBX_AI_BASE_URL", "LOCAL_LLM_BASE_URL", "SUBX_AI_APIKEY",
        "LOCAL_LLM_API_KEY"], SubxVariable name.toList ∨ LocalVariable name.toList) _ hname)]

/-- No variable is of both kinds. -/
theorem not_localVariable {name : Text} (h : SubxVariable name) : ¬ LocalVariable name := by
  intro hlocal
  have hor := List.prefix_or_prefix_of_prefix h (hlocal.map Char.toLower)
  revert hor
  decide

/-- With any other the variables of a local one are not seen. -/
theorem loadAndValidate_of_hosted
    (h : AgreeOn (fun name => ¬ LocalVariable name) S.env env')
    (hhosted : ¬ S.ResolvesLocal file) :
    ({ S with env := env' } : Service V).loadAndValidate file = S.loadAndValidate file := by
  have hsubx : AgreeOn SubxVariable S.env env' :=
    fun name hname => h name (not_localVariable hname)
  refine loadAndValidate_congr hsubx fun config hloaded => ?_
  have hprovider : (subxOverrides S.var config.ai).provider ≠ "local".toList :=
    fun hprovider => hhosted ⟨config, hloaded, hprovider⟩
  rw [overrides_of_hosted (by rw [subxOverrides_env_congr hsubx]; exact hprovider),
    overrides_of_hosted hprovider, subxOverrides_env_congr hsubx,
    hostedOverrides_congr fun _ hname => var_congr h
      ((by decide : ∀ name ∈ hostedNames, ¬ LocalVariable name.toList) _ hname)]

/-- **A provider sees its own variables.** -/
theorem provider_sees_its_variables (S : Service V) (file : ConfigFile) (env' : Environment) :
    (AgreeOn (fun name => SubxVariable name ∨ LocalVariable name) S.env env' →
      S.ResolvesLocal file →
      ({ S with env := env' } : Service V).loadAndValidate file = S.loadAndValidate file) ∧
    (AgreeOn (fun name => ¬ LocalVariable name) S.env env' → ¬ S.ResolvesLocal file →
      ({ S with env := env' } : Service V).loadAndValidate file = S.loadAndValidate file) :=
  ⟨loadAndValidate_of_local, loadAndValidate_of_hosted⟩

/-- A file that asks for a local provider. -/
def localContent : Text := "[ai]\nprovider = \" Ollama \"\n".toList

/-- What is in it. -/
def localDocument : Document :=
  .table [("ai".toList, .table [("provider".toList, .text " Ollama ".toList)])]

/-- A hosted key is not seen with a local provider, and a local URL not with a
hosted one. -/
theorem provider_sees_its_variables_known :
    (known [(localContent, localDocument)] [] [("OPENAI_API_KEY", "sk-0123456789")]).loadAndValidate
        (some (utf8 localContent)) =
      (known [(localContent, localDocument)] [] []).loadAndValidate (some (utf8 localContent)) ∧
    (known [] [] [("LOCAL_LLM_BASE_URL", "http://localhost:11434/v1")]).loadAndValidate none =
      (known [] [] []).loadAndValidate none := by
  refine ⟨((provider_sees_its_variables _ _ _).1 (fun name hname => ?_) ?_).symm,
    ((provider_sees_its_variables _ _ _).2 (fun name hname => ?_) ?_).symm⟩
  · have hne : "OPENAI_API_KEY".toList ≠ name := by
      rintro rfl
      exact absurd hname (by decide)
    simp only [known, List.find?_cons, decide_eq_false hne, List.find?_nil]
  · exact ⟨_, rfl, by decide +kernel⟩
  · have hne : "LOCAL_LLM_BASE_URL".toList ≠ name := by
      rintro rfl
      exact absurd hname (by decide)
    simp only [known, List.find?_cons, decide_eq_false hne, List.find?_nil]
  · rintro ⟨config, hloaded, hlocal⟩
    obtain rfl := Except.ok.inj hloaded
    exact absurd hlocal (by decide +kernel)

end Service

end SubxCore.Configuration
