import Openheim.Config.Resolve

/-
This file follows the settings that `OpenheimBuilder` of `src/client.rs` gives to a client.
-/

namespace Openheim

/-- What a built-in provider is called, where it is and its default model. -/
def builtinProviders : List (String × String × String) :=
  [("openai", "https://api.openai.com/v1", "gpt-4o"),
    ("anthropic", "https://api.anthropic.com/v1", "claude-sonnet-4-6"),
    ("gemini", "https://generativelanguage.googleapis.com/v1beta", "gemini-3.8-flash")]

/-- Any other provider gets the defaults of the first one. -/
def builtinProviderDefaults (provider : String) : String × String :=
  (builtinProviders.lookup provider).getD (builtinProviders.head (List.cons_ne_nil _ _)).2

/-- The choices made on the builder, as far as the settings of agents depend on them. -/
structure OpenheimBuilder where
  appConfig : Option AppConfig
  provider : Option String
  apiKey : Option String
  model : Option String
  apiBase : Option String
  maxIterations : Option Nat
  timeoutSecs : Option Nat
  maxTokens : Option Nat
  contextWindow : Option Nat

namespace OpenheimBuilder

/-- Setting any of these leaves the config file out. -/
def programmatic (builder : OpenheimBuilder) : Bool :=
  builder.provider.isSome || builder.apiKey.isSome || builder.apiBase.isSome

/-- A configuration with the one provider that the builder describes. -/
def programmaticConfig (builder : OpenheimBuilder) (env : Environment) :
    Except Error (AgentConfig × AppConfig) := do
  let provider := builder.provider.getD "openai"
  let (defaultApiBase, defaultModel) := builtinProviderDefaults provider
  let model := builder.model.getD defaultModel
  let entry : ProviderConfig :=
    { kind := none
      apiBase := builder.apiBase.getD defaultApiBase
      defaultModel := model
      models := [model]
      envVar := none
      apiKey := some (builder.apiKey.getD "")
      timeoutSecs := some (builder.timeoutSecs.getD defaultTimeoutSecs)
      maxTokens := builder.maxTokens
      contextWindow := builder.contextWindow
      thinking := none
      replayThinking := none }
  let appConfig : AppConfig :=
    ⟨provider, builder.maxIterations.getD 10, [(provider, entry)], List.pairwise_singleton _ _⟩
  let agentConfig ← appConfig.resolveProviderDefault env provider
  return (agentConfig, appConfig)

/-- The choices of the builder win over what the configuration resolves to. -/
def override (builder : OpenheimBuilder) (config : AgentConfig) : AgentConfig :=
  { config with
    maxIterations := builder.maxIterations.getD config.maxIterations
    timeoutSecs := builder.timeoutSecs.getD config.timeoutSecs
    maxTokens := builder.maxTokens.or config.maxTokens
    contextWindow := builder.contextWindow.or config.contextWindow }

/-- The default settings and the configuration of a client. A file is loaded unless the
configuration is given. -/
def build (builder : OpenheimBuilder) (env : Environment) (loadConfig : Except Error AppConfig) :
    Except Error (AgentConfig × AppConfig) :=
  if builder.programmatic ∧ builder.appConfig.isSome then
    .error (.configError ("app_config can't be combined with provider, api_key or api_base; " ++
      "set them on the config's provider entry"))
  else if builder.programmatic then builder.programmaticConfig env
  else do
    let appConfig ← builder.appConfig.elim loadConfig .ok
    let agentConfig ← appConfig.resolve env builder.model
    return (builder.override agentConfig, appConfig)

/-- What the builder sets is what the settings already are. -/
structure Agrees (builder : OpenheimBuilder) (config : AgentConfig) : Prop where
  maxIterations : ∀ count ∈ builder.maxIterations, config.maxIterations = count
  timeoutSecs : ∀ seconds ∈ builder.timeoutSecs, config.timeoutSecs = seconds
  maxTokens : ∀ tokens ∈ builder.maxTokens, config.maxTokens = some tokens
  contextWindow : ∀ tokens ∈ builder.contextWindow, config.contextWindow = some tokens

section Build
variable {builder : OpenheimBuilder} {env : Environment} {loadConfig : Except Error AppConfig}
  {config : AgentConfig} {app : AppConfig}

theorem getD_eq_iff {α : Type} {choice : Option α} {value : α} :
    choice.getD value = value ↔ ∀ chosen ∈ choice, value = chosen := by
  cases choice with
  | none => simp
  | some chosen => simp [eq_comm]

theorem or_eq_iff {α : Type} {choice value : Option α} :
    choice.or value = value ↔ ∀ chosen ∈ choice, value = some chosen := by
  cases choice with
  | none => simp
  | some chosen => simp [eq_comm]

theorem override_eq_iff : builder.override config = config ↔ builder.Agrees config := by
  unfold override
  constructor
  · intro same
    exact ⟨getD_eq_iff.mp (congrArg AgentConfig.maxIterations same),
      getD_eq_iff.mp (congrArg AgentConfig.timeoutSecs same),
      or_eq_iff.mp (congrArg AgentConfig.maxTokens same),
      or_eq_iff.mp (congrArg AgentConfig.contextWindow same)⟩
  · intro agrees
    rw [getD_eq_iff.mpr agrees.maxIterations, getD_eq_iff.mpr agrees.timeoutSecs,
      or_eq_iff.mpr agrees.maxTokens, or_eq_iff.mpr agrees.contextWindow]

/-- A client has resolved settings, and those of its builder on top of them when
a configuration was loaded. -/
theorem build_resolved (built : builder.build env loadConfig = .ok (config, app)) :
    (builder.programmatic ∧ ∃ provider, app.Resolved env config provider) ∨
      (¬ builder.programmatic ∧ ∃ plain provider, app.resolve env builder.model = .ok plain ∧
        app.Resolved env plain provider ∧ config = builder.override plain) := by
  unfold build at built
  split at built
  · cases built
  · split at built
    · next programmatic =>
      obtain ⟨resolved, found, same⟩ := AppConfig.bind_eq_ok built
      cases same
      exact .inl ⟨programmatic, AppConfig.resolveProviderDefault_resolved found⟩
    · next given =>
      obtain ⟨loaded, _, later⟩ := AppConfig.bind_eq_ok built
      obtain ⟨plain, resolved, same⟩ := AppConfig.bind_eq_ok later
      cases same
      obtain ⟨provider, entry⟩ := AppConfig.resolve_resolved resolved
      exact .inr ⟨given, plain, provider, resolved, entry, rfl⟩

end Build

end OpenheimBuilder

end Openheim
