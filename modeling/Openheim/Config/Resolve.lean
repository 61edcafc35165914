import Openheim.Config.Types
import Openheim.Core.Error
import Openheim.Core.Json
import Openheim.Library.Lines

/-
This file follows `src/config/resolve.rs`, where the settings of an agent are assembled from a
provider entry.
-/

namespace Openheim

/-- The environment variables of the process. -/
abbrev Environment := String → Option String

def defaultTimeoutSecs : Nat := 120

/-- The built-in names map to their own kind. -/
def ProviderKind.inferFromName (providerName : String) : ProviderKind :=
  if providerName = "openai" then .openAi
  else if providerName = "anthropic" then .anthropic
  else if providerName = "gemini" then .gemini
  else .openAiCompatible

namespace ProviderConfig

def resolveTimeoutSecs (provider : ProviderConfig) : Nat :=
  provider.timeoutSecs.getD defaultTimeoutSecs

/-- The environment comes first, then the inline key, and a local endpoint has none. -/
def resolveApiKey (env : Environment) (provider : ProviderConfig) : String :=
  match provider.envVar.bind env with
  | some key => if Lines.isBlank key.toList then provider.apiKey.getD "" else key
  | none => provider.apiKey.getD ""

def resolveKind (provider : ProviderConfig) (providerName : String) : ProviderKind :=
  provider.kind.getD (.inferFromName providerName)

def resolveThinking (provider : ProviderConfig) (kind : ProviderKind) : Bool :=
  match provider.thinking with
  | some .adaptive => true
  | some .off => false
  | none => kind = .anthropic

end ProviderConfig

def startsWith (text start : String) : Bool := start.toList.isPrefixOf text.toList

/-- What every use of a provider entry checks first. -/
def validateProvider (env : Environment) (name : String) (provider : ProviderConfig) :
    Except Error Unit :=
  if provider.apiBase = "" then
    .error (.configError ("Provider '" ++ name ++ "' has an empty api_base"))
  else if ¬ startsWith provider.apiBase "http://" ∧ ¬ startsWith provider.apiBase "https://" then
    .error (.configError ("Provider '" ++ name ++ "' api_base '" ++ provider.apiBase ++
      "' must start with http:// or https://"))
  else if startsWith provider.apiBase "http://" ∧ provider.resolveApiKey env ≠ "" then
    .error (.configError ("Provider '" ++ name ++ "' api_base '" ++ provider.apiBase ++
      "' uses http:// but has an API key configured; credentials must not be sent over an unencrypted connection. " ++
      "Use https:// or drop the API key for keyless local endpoints"))
  else if provider.contextWindow = some 0 then
    .error (.configError ("Provider '" ++ name ++ "' context_window must be greater than 0"))
  else if provider.models ≠ [] ∧ provider.defaultModel ∉ provider.models then
    .error (.configError ("Provider '" ++ name ++ "' default_model '" ++ provider.defaultModel ++
      "' is not listed in models: [" ++ ", ".intercalate provider.models ++ "]"))
  else .ok ()

namespace AppConfig

/-- The settings for one model of a provider entry. -/
def agentConfig (app : AppConfig) (env : Environment) (providerName : String)
    (provider : ProviderConfig) (model : String) : AgentConfig where
  providerName
  kind := provider.resolveKind providerName
  apiBase := provider.apiBase
  apiKey := provider.resolveApiKey env
  model
  maxIterations := app.maxIterations
  timeoutSecs := provider.resolveTimeoutSecs
  maxTokens := provider.maxTokens
  contextWindow := provider.contextWindow
  thinking := provider.resolveThinking (provider.resolveKind providerName)
  replayThinking := provider.replayThinking.getD false

def providerNames (app : AppConfig) : String := ", ".intercalate (app.providers.map Prod.fst)

def getProvider (app : AppConfig) (providerName : String) : Except Error ProviderConfig :=
  match app.providers.lookup providerName with
  | some provider => .ok provider
  | none =>
      .error (.configError ("Provider '" ++ providerName ++
        "' not found in config. Available providers: " ++ app.providerNames))

/-- A provider by its name, with its own default model. -/
def resolveProviderDefault (app : AppConfig) (env : Environment) (providerName : String) :
    Except Error AgentConfig := do
  let provider ← app.getProvider providerName
  validateProvider env providerName provider
  return app.agentConfig env providerName provider provider.defaultModel

/-- A provider by its name with one of its models; an empty list allows every model. -/
def resolveWithProvider (app : AppConfig) (env : Environment) (providerName model : String) :
    Except Error AgentConfig := do
  let provider ← app.getProvider providerName
  validateProvider env providerName provider
  if provider.models ≠ [] ∧ model ∉ provider.models then
    throw (.configError ("Model '" ++ model ++ "' is not allowed for provider '" ++ providerName ++
      "'. Allowed models: [" ++ ", ".intercalate provider.models ++ "]"))
  return app.agentConfig env providerName provider model

/-- The first of the providers that lists the model. -/
def resolveModelIn (app : AppConfig) (env : Environment) (model : String) :
    List (String × ProviderConfig) → Except Error AgentConfig
  | [] => .error (.configError ("Model '" ++ model ++
      "' not found in any provider. Check the [providers] section in your config file."))
  | (name, provider) :: rest =>
      if model ∈ provider.models then do
        validateProvider env name provider
        return app.agentConfig env name provider model
      else resolveModelIn app env model rest

def resolveModel (app : AppConfig) (env : Environment) (model : String) :
    Except Error AgentConfig :=
  app.resolveModelIn env model app.providers

def resolve (app : AppConfig) (env : Environment) : Option String → Except Error AgentConfig
  | some name => app.resolveModel env name
  | none => app.resolveProviderDefault env app.defaultProvider

/-- Settings that come from a provider entry which passed the check, for a
model that the entry allows. -/
structure Resolved (app : AppConfig) (env : Environment) (config : AgentConfig)
    (provider : ProviderConfig) : Prop where
  found : app.getProvider config.providerName = .ok provider
  valid : validateProvider env config.providerName provider = .ok ()
  listed : provider.models = [] ∨ config.model ∈ provider.models
  settings : config = app.agentConfig env config.providerName provider config.model

section Resolution
variable {app : AppConfig} {env : Environment} {config : AgentConfig} {provider : ProviderConfig}
  {name model : String}

/-- A computation that succeeds has succeeded at its first step. -/
theorem bind_eq_ok {α β : Type} {first : Except Error α} {next : α → Except Error β} {result : β}
    (succeeded : first >>= next = .ok result) :
    ∃ value, first = .ok value ∧ next value = .ok result := by
  cases first with
  | error error => cases succeeded
  | ok value => exact ⟨value, rfl, succeeded⟩

/-- The default model of a checked entry is one of its models. -/
theorem validateProvider_listed (valid : validateProvider env name provider = .ok ()) :
    provider.models = [] ∨ provider.defaultModel ∈ provider.models := by
  unfold validateProvider at valid
  split at valid
  · cases valid
  · split at valid
    · cases valid
    · split at valid
      · cases valid
      · split at valid
        · cases valid
        · split at valid
          · cases valid
          · next fine =>
              exact or_iff_not_imp_left.mpr fun listed => not_not.mp fun missing =>
                fine ⟨listed, missing⟩

/-- A checked entry sends no key over an unencrypted connection. -/
theorem validateProvider_secure (valid : validateProvider env name provider = .ok ()) :
    ¬ (startsWith provider.apiBase "http://" ∧ provider.resolveApiKey env ≠ "") := by
  unfold validateProvider at valid
  split at valid
  · cases valid
  · split at valid
    · cases valid
    · split at valid
      · cases valid
      · next secure => exact secure

theorem resolveProviderDefault_resolved
    (resolved : app.resolveProviderDefault env name = .ok config) :
    ∃ provider, app.Resolved env config provider := by
  obtain ⟨provider, found, later⟩ := bind_eq_ok resolved
  obtain ⟨_, valid, same⟩ := bind_eq_ok later
  cases same
  exact ⟨provider, found, valid, validateProvider_listed valid, rfl⟩

theorem resolveWithProvider_resolved
    (resolved : app.resolveWithProvider env name model = .ok config) :
    ∃ provider, app.Resolved env config provider := by
  obtain ⟨provider, found, later⟩ := bind_eq_ok resolved
  obtain ⟨_, valid, checked⟩ := bind_eq_ok later
  split at checked
  · cases checked
  · next allowed =>
    cases checked
    have listed : provider.models = [] ∨ model ∈ provider.models :=
      or_iff_not_imp_left.mpr fun some_listed => not_not.mp fun missing =>
        allowed ⟨some_listed, missing⟩
    exact ⟨provider, found, valid, listed, rfl⟩

/-- The settings have the provider and the model that were asked for. -/
theorem resolveWithProvider_names (resolved : app.resolveWithProvider env name model = .ok config) :
    config.providerName = name ∧ config.model = model := by
  obtain ⟨provider, _, later⟩ := bind_eq_ok resolved
  obtain ⟨_, _, checked⟩ := bind_eq_ok later
  split at checked
  · cases checked
  · cases checked
    exact ⟨rfl, rfl⟩

/-- An entry that is met in the list of providers is the one that is found by its name. -/
theorem getProvider_of_mem (member : (name, provider) ∈ app.providers) :
    app.getProvider name = .ok provider := by
  have sorted := app.sorted
  unfold getProvider
  suffices looked : app.providers.lookup name = some provider by rw [looked]
  generalize app.providers = providers at sorted member
  induction providers with
  | nil => cases member
  | cons first rest ih =>
      obtain ⟨before, later⟩ := List.pairwise_cons.mp sorted
      rcases List.mem_cons.mp member with same | inside
      · cases same
        rw [List.lookup_cons, beq_self_eq_true]
      · have different : name ≠ first.1 := by
          intro same
          have less := before name (List.mem_map.mpr ⟨_, inside, rfl⟩)
          rw [same] at less
          exact String.lt_irrefl _ less
        rw [List.lookup_cons, beq_false_of_ne different]
        exact ih later inside

theorem resolveModel_resolved (resolved : app.resolveModel env model = .ok config) :
    ∃ provider, app.Resolved env config provider := by
  suffices search : ∀ providers, providers ⊆ app.providers →
      app.resolveModelIn env model providers = .ok config →
      ∃ provider, app.Resolved env config provider from search app.providers
        (List.Subset.refl _) resolved
  intro providers
  induction providers with
  | nil =>
      intro _ found
      cases found
  | cons first rest ih =>
      intro known found
      rw [resolveModelIn] at found
      split at found
      · next listed =>
        obtain ⟨_, valid, same⟩ := bind_eq_ok found
        cases same
        exact ⟨first.2, getProvider_of_mem (known List.mem_cons_self), valid, .inr listed, rfl⟩
      · exact ih (fun entry member => known (List.mem_cons_of_mem _ member)) found

/-- Every way to resolve settings ends in resolved settings. -/
theorem resolve_resolved {choice : Option String} (resolved : app.resolve env choice = .ok config) :
    ∃ provider, app.Resolved env config provider := by
  cases choice with
  | none => exact resolveProviderDefault_resolved resolved
  | some model => exact resolveModel_resolved resolved

/-- Resolved settings are what their provider and their model resolve to. -/
theorem Resolved.again (resolved : app.Resolved env config provider) :
    app.resolveWithProvider env config.providerName config.model = .ok config := by
  have allowed : ¬ (provider.models ≠ [] ∧ config.model ∉ provider.models) := fun both =>
    resolved.listed.elim both.1 both.2
  have settings := resolved.settings
  unfold resolveWithProvider
  rw [resolved.found]
  show (validateProvider env config.providerName provider >>= _) = _
  rw [resolved.valid]
  show (if provider.models ≠ [] ∧ config.model ∉ provider.models then _ else _) = _
  rw [if_neg allowed]
  exact congrArg Except.ok settings.symm

end Resolution

end AppConfig

end Openheim
