import Openheim.Client.Builder
import Openheim.Runtime.RunningTurns
import Openheim.Runtime.Settings

/-
This file shows which settings the sessions of a runtime can have.
-/

namespace Openheim.Runtime

/-- The settings that a call gives to a session. -/
def SettingsCall.brought (uuid : UuidCrate) (env : Environment) (app : AppConfig)
    (baseline : AgentConfig) (s : AgentState) : SettingsCall → Option AgentConfig
  | .newSession _ model _ =>
      (model.elim (.ok baseline) fun name => app.resolve env (some name)).toOption
  | .loadSession sessionId saved ready =>
      if ready ∧ opensSession uuid s sessionId then
        some (restoreConfig env app baseline saved).1 else none
  | .switchModel _ provider model _ => (app.resolveWithProvider env provider model).toOption
  | .setSessionModel _ model _ => (app.resolve env (some model)).toOption
  | .step _ => none

section Steps
variable {uuid : UuidCrate} {env : Environment} {app : AppConfig} {baseline : AgentConfig}
  {s t : AgentState}
  {id : String} {after : SessionState}

theorem toOption_eq_some {result : Except Error AgentConfig} {config : AgentConfig}
    (same : result.toOption = some config) : result = .ok config := by
  cases result with
  | error error => cases same
  | ok value =>
      cases same
      rfl

/-- A call of the runtime brings what the action brings that it takes. -/
theorem withConfig_settings {resolved : Except Error AgentConfig} {ready : Bool}
    {action : AgentConfig → Action} {brought : Option AgentConfig}
    (brings : ∀ config, resolved = .ok config → ready = true → ∀ given,
      (action config).brought uuid s = some given →
      brought = some given)
    (stepped : withConfig uuid baseline s resolved ready action = some t)
    (present : t.sessions.lookup id = some after) : SettingsFrom baseline s brought id after := by
  unfold withConfig at stepped
  split at stepped
  · next config =>
    split at stepped
    · next enough =>
      rcases agentStep_settings stepped present with kept | ⟨given, action_brings, settings⟩
      · exact .inl kept
      · exact .inr ⟨given, brings config rfl enough given action_brings, settings⟩
    · cases stepped
      exact .kept present
  · cases stepped
    exact .kept present

/-- This is every step of the runtime. -/
theorem settingsStep_settings {call : SettingsCall}
    (stepped : settingsStep uuid env app baseline s call = some t)
    (present : t.sessions.lookup id = some after) :
    SettingsFrom baseline s (call.brought uuid env app baseline s) id after := by
  cases call with
  | newSession chatId model ready =>
      refine withConfig_settings (fun config resolved _ given same => ?_) stepped present
      rw [SettingsCall.brought, resolved]
      exact same
  | loadSession sessionId saved ready =>
      rw [settingsStep] at stepped
      refine withConfig_settings (fun config resolved enough given same => ?_) stepped present
      cases resolved
      simp only [Action.brought] at same
      split at same
      · next opens =>
        rw [SettingsCall.brought, if_pos ⟨enough, opens⟩]
        exact same
      · cases same
  | switchModel sessionId provider model ready =>
      refine withConfig_settings (fun config resolved _ given same => ?_) stepped present
      rw [SettingsCall.brought, resolved]
      exact same
  | setSessionModel sessionId model ready =>
      refine withConfig_settings (fun config resolved _ given same => ?_) stepped present
      rw [SettingsCall.brought, resolved]
      exact same
  | step action =>
      simp only [settingsStep] at stepped
      split at stepped
      · cases stepped
      · next bare =>
        rcases agentStep_settings stepped present with kept | ⟨given, brings, _⟩
        · exact .inl kept
        · exact absurd (action.settings_of_brought brings) bare

/-- What every permitted call brings holds of all settings in a run, and each session
has the client for its own. -/
theorem settings_invariant {guard : AgentState → SettingsCall → Prop} {good : AgentConfig → Prop}
    (brings : ∀ s call config, guard s call → call.brought uuid env app baseline s = some config →
      good config)
    (reached : (settingsMachine uuid env app baseline).ReachableUnder guard s) :
    ∀ id session, s.sessions.lookup id = some session →
      good session.config ∧ session.llm = sessionLlm baseline session.config := by
  apply reached.invariant
  · intro first started id session found
    have member := AList.mem_lookup_iff.mp found
    simp [started.1] at member
  · intro first call last before permitted stepped id session present
    rcases settingsStep_settings stepped present with
      ⟨old, found, config, llm⟩ | ⟨config, brought, same, llm⟩
    · rw [config, llm]
      exact before id old found
    · rw [llm, same]
      exact ⟨brings first call config permitted brought, rfl⟩

/-- A saved provider is resolved again, and without it the default settings
are used with the saved model. -/
theorem restoreConfig_good {good : AgentConfig → Prop} {saved : SavedSettings}
    (resolves : ∀ config provider, app.Resolved env config provider → good config)
    (default : good baseline)
    (restores : ∀ model, saved = ⟨none, some model⟩ → good { baseline with model }) :
    good (restoreConfig env app baseline saved).1 := by
  obtain ⟨savedProvider, savedModel⟩ := saved
  unfold restoreConfig
  cases savedProvider with
  | none =>
      cases savedModel with
      | none => exact default
      | some model => exact restores model rfl
  | some providerName =>
      cases savedModel with
      | none =>
          dsimp only
          split
          · next resolved =>
            obtain ⟨provider, entry⟩ := AppConfig.resolveProviderDefault_resolved resolved
            exact resolves _ provider entry
          · exact default
      | some model =>
          dsimp only
          split
          · next resolved =>
            obtain ⟨provider, entry⟩ := AppConfig.resolveWithProvider_resolved resolved
            exact resolves _ provider entry
          · exact default

/-- A call brings the default settings, resolved settings, or the default
settings with a saved model. -/
theorem brought_good {good : AgentConfig → Prop} {call : SettingsCall} {config : AgentConfig}
    (resolves : ∀ config provider, app.Resolved env config provider → good config)
    (default : good baseline)
    (restores : ∀ sessionId model, call = .loadSession sessionId ⟨none, some model⟩ true →
      opensSession uuid s sessionId → good { baseline with model })
    (brought : call.brought uuid env app baseline s = some config) : good config := by
  cases call with
  | newSession chatId model ready =>
      cases model with
      | none =>
          cases brought
          exact default
      | some name =>
          have resolved : (app.resolve env (some name)).toOption = some config := brought
          obtain ⟨provider, entry⟩ := AppConfig.resolve_resolved (toOption_eq_some resolved)
          exact resolves config provider entry
  | loadSession sessionId saved ready =>
      simp only [SettingsCall.brought] at brought
      split at brought
      · next opens =>
        cases brought
        obtain ⟨rfl, opens⟩ := opens
        exact restoreConfig_good resolves default fun model same =>
          restores sessionId model (same ▸ rfl) opens
      · cases brought
  | switchModel sessionId provider model ready =>
      obtain ⟨provider, entry⟩ := AppConfig.resolveWithProvider_resolved (toOption_eq_some brought)
      exact resolves config provider entry
  | setSessionModel sessionId model ready =>
      obtain ⟨provider, entry⟩ := AppConfig.resolve_resolved (toOption_eq_some brought)
      exact resolves config provider entry
  | step action => cases brought

end Steps

/-- The settings name a configured provider that passes the check and allows the model, and send no
key over an unencrypted connection. -/
def ValidConfig (app : AppConfig) (env : Environment) (config : AgentConfig) : Prop :=
  ∃ provider, app.getProvider config.providerName = .ok provider ∧
    validateProvider env config.providerName provider = .ok () ∧
    (provider.models = [] ∨ config.model ∈ provider.models) ∧
    ¬ (startsWith config.apiBase "http://" ∧ config.apiKey ≠ "")

/-- A conversation that is made live with a saved model and no saved provider has a model that the
default provider allows. -/
def RestoresListedModel (uuid : UuidCrate) (app : AppConfig) (baseline : AgentConfig)
    (s : AgentState) :
    SettingsCall → Prop
  | .loadSession sessionId ⟨none, some model⟩ true =>
      opensSession uuid s sessionId → ∀ provider,
        app.getProvider baseline.providerName = .ok provider →
        provider.models = [] ∨ model ∈ provider.models
  | _ => True

section Valid
variable {uuid : UuidCrate} {env : Environment} {app : AppConfig} {baseline config : AgentConfig}
  {provider : ProviderConfig} {s : AgentState}

theorem validConfig_of_resolved (resolved : app.Resolved env config provider) :
    ValidConfig app env config := by
  have secure := AppConfig.validateProvider_secure resolved.valid
  refine ⟨provider, resolved.found, resolved.valid, resolved.listed, ?_⟩
  rw [resolved.settings]
  exact secure

/-- Another model of the same provider is valid when the provider allows it. -/
theorem ValidConfig.withModel (valid : ValidConfig app env config) {model : String}
    (listed : ∀ provider, app.getProvider config.providerName = .ok provider →
      provider.models = [] ∨ model ∈ provider.models) :
    ValidConfig app env { config with model } := by
  obtain ⟨provider, found, checked, _, secure⟩ := valid
  exact ⟨provider, found, checked, listed provider found, secure⟩

/-- If every conversation that is made live with a saved model and no saved provider has a model
that the default provider allows, then all sessions have valid settings. -/
theorem session_configs_valid (valid : ValidConfig app env baseline)
    (reached : (settingsMachine uuid env app baseline).ReachableUnder
      (RestoresListedModel uuid app baseline) s) :
    ∀ id session, s.sessions.lookup id = some session → ValidConfig app env session.config := by
  suffices brings : ∀ s call config, RestoresListedModel uuid app baseline s call →
      call.brought uuid env app baseline s = some config → ValidConfig app env config from
    fun id session found => (settings_invariant brings reached id session found).1
  intro s call config permitted brought
  refine brought_good (fun config provider => validConfig_of_resolved) valid ?_ brought
  rintro sessionId model rfl opens
  exact valid.withModel (permitted opens)

end Valid

/-- A runtime before its first call, whose conversations are all saved. -/
def savedState : AgentState := { emptyState with saved := fun _ => true }

theorem savedState_start (uuid : UuidCrate) (baseline : AgentConfig) :
    (agentMachine uuid baseline).start savedState :=
  ⟨rfl, rfl, fun _ => rfl, fun _ => rfl, fun _ => rfl⟩

/-- A local provider with one model. -/
def localProvider : ProviderConfig :=
  ⟨none, "http://localhost:11434/v1", "llama3", ["llama3"], none, none, none, none, none,
    none, none⟩

/-- A configuration with the default provider of the samples and a second one. -/
def sampleApp : AppConfig :=
  ⟨"ollama", 50,
    [("ollama", localProvider),
      ("remote", { localProvider with defaultModel := "large", models := [] })],
    by decide⟩

/-- No environment variable is set. -/
def bareEnv : Environment := fun _ => none

theorem sampleConfig_valid : ValidConfig sampleApp bareEnv sampleConfig :=
  validConfig_of_resolved ⟨rfl, by decide, .inr (by decide), by decide⟩

/-- A conversation is loaded whose provider was not saved. -/
def loadModel (model : String) : List SettingsCall :=
  [.loadSession sampleText ⟨none, some model⟩ true]

/-- The sample run restores a model that the default provider lists. -/
theorem session_configs_sample : ∃ (s : AgentState) (session : SessionState),
    s.sessions.lookup sampleText = some session ∧ session.config.model = "llama3" ∧
    ∀ id session, s.sessions.lookup id = some session →
      ValidConfig sampleApp bareEnv session.config := by
  have executed : (settingsMachine Uuid.crate bareEnv sampleApp sampleConfig).exec savedState
    (loadModel "llama3") =
    some _ := rfl
  have listed : RestoresListedModel Uuid.crate sampleApp sampleConfig savedState
      (.loadSession sampleText ⟨none, some "llama3"⟩ true) := by
    intro _ provider found
    cases found
    exact .inr (by decide)
  have permitted : (settingsMachine Uuid.crate bareEnv sampleApp sampleConfig).Permits
    (RestoresListedModel Uuid.crate sampleApp sampleConfig) savedState (loadModel "llama3") :=
      ⟨listed, fun _ _ => trivial⟩
  exact ⟨_, _, rfl, rfl, session_configs_valid sampleConfig_valid
    ⟨savedState, savedState_start Uuid.crate sampleConfig, Machine.exec_runs permitted executed⟩⟩

/-- A saved model that the default provider does not list becomes the model of the session. -/
theorem unlisted_model_restored : ∃ (s : AgentState) (session : SessionState),
    ValidConfig sampleApp bareEnv sampleConfig ∧
    (settingsMachine Uuid.crate bareEnv sampleApp sampleConfig).Reachable s ∧
    s.sessions.lookup sampleText = some session ∧ session.config.model = "gone" ∧
    ¬ ValidConfig sampleApp bareEnv session.config := by
  have executed : (settingsMachine Uuid.crate bareEnv sampleApp sampleConfig).exec savedState
    (loadModel "gone") =
    some _ := rfl
  refine ⟨_, _, sampleConfig_valid,
    Machine.reachable_of_exec (savedState_start Uuid.crate sampleConfig) executed, rfl, rfl, ?_⟩
  rintro ⟨provider, found, _, listed, _⟩
  cases found
  revert listed
  decide

section Defaults
variable {uuid : UuidCrate} {env : Environment} {app : AppConfig} {baseline config : AgentConfig}
  {builder : OpenheimBuilder} {loadConfig : Except Error AppConfig}

/-- A session on the default model has the default settings, and its client was built for them.
Sessions on one model have one configuration, so a switch to another model and back restores it. -/
structure DefaultSettings (uuid : UuidCrate) (env : Environment) (app : AppConfig)
    (baseline : AgentConfig) : Prop where
  shared : ∀ s, (settingsMachine uuid env app baseline).Reachable s → ∀ id session,
    s.sessions.lookup id = some session → sameModel session.config baseline →
      session.config = baseline ∧ session.llm.getD ⟨baseline⟩ = ⟨session.config⟩
  restored : ∀ s t, (settingsMachine uuid env app baseline).Reachable s →
    (settingsMachine uuid env app baseline).Reachable t → ∀ id before other after,
      s.sessions.lookup id = some before → t.sessions.lookup other = some after →
        sameModel before.config after.config → before.config = after.config

/-- Settings that are what the configuration says about their provider and their model. -/
def Plain (app : AppConfig) (env : Environment) (config : AgentConfig) : Prop :=
  ∃ provider, app.getProvider config.providerName = .ok provider ∧
    config = app.agentConfig env config.providerName provider config.model

theorem Plain.unique {first second : AgentConfig} (one : Plain app env first)
    (two : Plain app env second) (same : sameModel first second) : first = second := by
  obtain ⟨provider, found, settings⟩ := one
  obtain ⟨other, also, others⟩ := two
  simp only [sameModel, Bool.and_eq_true, decide_eq_true_eq] at same
  rw [same.1, also] at found
  cases found
  rw [settings, others, same.1, same.2]

theorem plain_of_resolved {provider : ProviderConfig}
    (resolved : app.Resolved env config provider) :
    Plain app env config := ⟨provider, resolved.found, resolved.settings⟩

theorem Plain.withModel (plain : Plain app env config) (model : String) :
    Plain app env { config with model } := by
  obtain ⟨provider, found, settings⟩ := plain
  refine ⟨provider, found, ?_⟩
  rw [settings]
  rfl

/-- The settings of all sessions are plain when the default settings are. -/
theorem session_configs_plain (plain : Plain app env baseline) {s : AgentState}
    (reached : (settingsMachine uuid env app baseline).Reachable s) :
    ∀ id session, s.sessions.lookup id = some session →
      Plain app env session.config ∧ session.llm = sessionLlm baseline session.config :=
  settings_invariant (fun _ _ _ _ brought =>
    brought_good (fun _ _ => plain_of_resolved) plain (fun _ model _ _ => plain.withModel model)
      brought) reached

theorem DefaultSettings.of_plain (plain : Plain app env baseline) :
    DefaultSettings uuid env app baseline where
  shared s reached id session found same := by
    obtain ⟨settings, llm⟩ := session_configs_plain plain reached id session found
    have config := settings.unique plain same
    rw [llm, sessionLlm, if_pos same, config]
    exact ⟨rfl, rfl⟩
  restored s t reached also id before other after found present same :=
    (session_configs_plain plain reached id before found).1.unique
      (session_configs_plain plain also other after present).1 same

/-- What a provider and a model resolve to can become the settings of a session. -/
theorem reaches_resolved (uuid : UuidCrate) (baseline : AgentConfig)
    (resolved : app.resolveWithProvider env config.providerName config.model = .ok config) :
    ∃ (s : AgentState) (id : String) (session : SessionState),
      (settingsMachine uuid env app baseline).Reachable s ∧ s.sessions.lookup id = some session ∧
        session.config = config := by
  obtain ⟨t, session, stepped, found, settings⟩ :=
    agentStep_opens uuid baseline config (s := savedState) rfl ⟨uuid.parseStr_toText 0, rfl⟩ rfl
  have restored : (restoreConfig env app baseline ⟨some config.providerName, some config.model⟩).1 =
      config := by
    simp only [restoreConfig, resolved]
  have called : (settingsMachine uuid env app baseline).step savedState
      (.loadSession (uuid.toText 0) ⟨some config.providerName, some config.model⟩ true) =
          some t := by
    show settingsStep uuid env app baseline savedState
      (.loadSession (uuid.toText 0) ⟨some config.providerName, some config.model⟩ true) = some t
    rw [settingsStep, restored, withConfig]
    exact stepped
  have step : (settingsMachine uuid env app baseline).Step Machine.free savedState t :=
    ⟨_, trivial, called⟩
  exact ⟨t, uuid.toText 0, session, ⟨savedState, savedState_start uuid baseline, .single step⟩,
    found, settings⟩

/-- Exactly when the builder changes nothing about what the configuration resolves to, the
sessions on the default model have the default settings. A programmatic configuration
holds what the builder sets. -/
theorem default_settings_iff (built : builder.build env loadConfig = .ok (baseline, app)) :
    DefaultSettings uuid env app baseline ↔
      builder.programmatic ∨ ∃ plain, app.resolve env builder.model = .ok plain ∧
        builder.Agrees plain := by
  rcases OpenheimBuilder.build_resolved built with
    ⟨programmatic, provider, resolved⟩ | ⟨given, plain, provider, choice, resolved, changed⟩
  · exact ⟨fun _ => .inl programmatic, fun _ => .of_plain (plain_of_resolved resolved)⟩
  · constructor
    · intro settings
      obtain ⟨s, id, session, reached, found, same⟩ :=
        reaches_resolved uuid baseline resolved.again
      have model : sameModel session.config baseline := by
        rw [same, changed]
        simp [sameModel, OpenheimBuilder.override]
      have config := (settings.shared s reached id session found model).1
      refine .inr ⟨plain, choice, OpenheimBuilder.override_eq_iff.mp ?_⟩
      rw [← changed, ← config, same]
    · rintro (programmatic | ⟨other, also, agrees⟩)
      · exact absurd programmatic given
      · cases choice.symm.trans also
        rw [OpenheimBuilder.override_eq_iff.mpr agrees] at changed
        subst changed
        exact .of_plain (plain_of_resolved resolved)

end Defaults

/-- A builder that reads the sample configuration and sets how many iterations a turn may take. -/
def iterationsBuilder (count : Nat) : OpenheimBuilder :=
  ⟨none, none, none, none, none, some count, none, none, none⟩

/-- The default settings of a client that lowers the number of iterations. -/
def loweredConfig : AgentConfig := { sampleConfig with maxIterations := 3 }

theorem lowered_built :
    (iterationsBuilder 3).build bareEnv (.ok sampleApp) = .ok (loweredConfig, sampleApp) := rfl

/-- The sample configuration allows fifty iterations anyway, so setting them changes nothing. -/
theorem default_settings_sample : DefaultSettings Uuid.crate bareEnv sampleApp sampleConfig := by
  have built : (iterationsBuilder 50).build bareEnv (.ok sampleApp) =
    .ok (sampleConfig, sampleApp) := rfl
  have agrees : (iterationsBuilder 50).Agrees sampleConfig := by
    constructor
    · rintro count ⟨⟩
      rfl
    · rintro seconds ⟨⟩
    · rintro tokens ⟨⟩
    · rintro tokens ⟨⟩
  exact (default_settings_iff built).mpr (.inr ⟨sampleConfig, rfl, agrees⟩)

/-- A session starts with the lowered number, switches to another model and back. -/
def switchAndBack : List SettingsCall :=
  [.newSession sampleId none true, .step .continueOpening, .step .continueOpening,
    .step .continueOpening, .switchModel sampleText "remote" "large" true,
      .switchModel sampleText "ollama" "llama3" true]

/-- After the switch back the session uses the shared client, but no longer the default settings. -/
theorem switch_back_loses_override : ∃ (s : AgentState) (session : SessionState),
    (iterationsBuilder 3).build bareEnv (.ok sampleApp) = .ok (loweredConfig, sampleApp) ∧
    (settingsMachine Uuid.crate bareEnv sampleApp loweredConfig).Reachable s ∧
    s.sessions.lookup sampleText = some session ∧ sameModel session.config loweredConfig ∧
    session.llm = none ∧
    session.config.maxIterations = 50 ∧ ¬ DefaultSettings Uuid.crate bareEnv sampleApp
      loweredConfig := by
  have started : (settingsMachine Uuid.crate bareEnv sampleApp loweredConfig).start emptyState :=
    ⟨rfl, rfl, fun _ => rfl, fun _ => rfl, fun _ => rfl⟩
  have executed : (settingsMachine Uuid.crate bareEnv sampleApp loweredConfig).exec emptyState
    switchAndBack =
    some _ := rfl
  have reached := Machine.reachable_of_exec started executed
  refine ⟨_, _, lowered_built, reached, rfl, rfl, rfl, rfl, fun settings => ?_⟩
  have same := (settings.shared _ reached sampleText _ rfl rfl).1
  have counts := congrArg AgentConfig.maxIterations same
  revert counts
  decide

end Openheim.Runtime
