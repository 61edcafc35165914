import Mathlib.Data.List.Basic

namespace Openheim

/-- The wire protocol that a provider speaks. -/
inductive ProviderKind where
  | openAi
  | anthropic
  | gemini
  | openAiCompatible
  deriving DecidableEq, Repr

/-- Extended thinking of a provider. -/
inductive ThinkingMode where
  | adaptive
  | off
  deriving DecidableEq, Repr

/-- One entry of the providers in the configuration. -/
structure ProviderConfig where
  kind : Option ProviderKind
  apiBase : String
  defaultModel : String
  models : List String
  envVar : Option String
  apiKey : Option String
  timeoutSecs : Option Nat
  maxTokens : Option Nat
  contextWindow : Option Nat
  thinking : Option ThinkingMode
  replayThinking : Option Bool
  deriving DecidableEq, Repr

/-- The part of the configuration from which agents are set up. The providers
are ordered by their names. -/
structure AppConfig where
  defaultProvider : String
  maxIterations : Nat
  providers : List (String × ProviderConfig)
  sorted : (providers.map Prod.fst).Pairwise (· < ·)

/-- The settings that an agent run uses. -/
structure AgentConfig where
  providerName : String
  kind : ProviderKind
  apiBase : String
  apiKey : String
  model : String
  maxIterations : Nat
  timeoutSecs : Nat
  maxTokens : Option Nat
  contextWindow : Option Nat
  thinking : Bool
  replayThinking : Bool
  deriving DecidableEq, Repr

/-- One client serves two configurations that name the same model. -/
def sameModel (a b : AgentConfig) : Bool := a.providerName = b.providerName && a.model = b.model

end Openheim
