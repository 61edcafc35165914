import Openheim.Config.Resolve
import Openheim.Tools.Executor

/-
This file follows `src/tools/delegate.rs`: the tool that runs a subagent, up to the start of its
loop and from its end.
-/

namespace Openheim.Tools

/-- The arguments of the tool. -/
structure DelegateArgs where
  task : String
  agent : Option String
  systemPrompt : Option String
  tools : Option (List String)
  model : Option String
  provider : Option String
  maxIterations : Option Nat
  deriving DecidableEq, Repr

/-- A profile for one call. A subagent may not run longer than its parent. -/
def inlineProfile (systemPrompt : String) (args : DelegateArgs) (sessionMaxIterations : Nat) :
    AgentProfile where
  name := "inline"
  description := ""
  model := args.model
  provider := args.provider
  tools := args.tools
  maxIterations := args.maxIterations.map fun count => min count sessionMaxIterations
  systemPrompt

/-- What is needed from outside: the variables of the process, the derived reader of the arguments,
and an HTTP client for a model other than that of the session. -/
structure DelegateEnvironment where
  env : Environment
  parseArgs : String → Except String DelegateArgs
  http : Except Error Unit

/-- A subagent that is about to run. -/
structure Delegation where
  profile : AgentProfile
  task : String
  config : AgentConfig
  executor : ToolExecutor

namespace DelegateTool

/-- Subagents without a model of their own fall back to the given settings. -/
def forSession {Executor : Type} (tool : DelegateTool Executor) (config : AgentConfig) :
    DelegateTool Executor :=
  { tool with baseConfig := config }

variable (tool : DelegateTool ToolExecutor)

def findProfile (name : String) : Option AgentProfile :=
  tool.profiles.find? fun profile => profile.name = name

/-- The settings of a subagent, with what its profile overrides. -/
def resolveRuntime (world : DelegateEnvironment) (profile : AgentProfile) :
    Except Error AgentConfig := do
  let config ←
    match profile.provider, profile.model with
    | some provider, some model => tool.appConfig.resolveWithProvider world.env provider model
    | none, some model => tool.appConfig.resolve world.env (some model)
    | _, none => .ok tool.baseConfig
  let config := profile.maxIterations.elim config fun maxIterations => { config with maxIterations }
  if sameModel config tool.baseConfig then return config
  else
    world.http
    return config

/-- The tools of a subagent: those of the base executor, narrowed to the list of
its profile if there is one. -/
def buildExecutor (profile : AgentProfile) : ToolExecutor :=
  match profile.tools with
  | some allowed => .scopedTo tool.baseExecutor allowed
  | none => tool.baseExecutor

/-- The profile that the arguments name or describe. -/
def chooseProfile (args : DelegateArgs) : Except Error AgentProfile :=
  match args.agent, args.systemPrompt with
  | some _, some _ =>
      .error (.toolExecutionError ("Provide either 'agent' (a pre-configured subagent) or " ++
      "'system_prompt' (an inline one), not both."))
  | some agentName, none =>
      match tool.findProfile agentName with
      | some profile => .ok profile
      | none =>
          .error (.toolExecutionError ("Unknown subagent '" ++ agentName ++
              "'. Available subagents: " ++
          ", ".intercalate (tool.profiles.map AgentProfile.name) ++
          ". Alternatively, define an inline subagent via 'system_prompt'."))
  | none, some systemPrompt => .ok (inlineProfile systemPrompt args tool.baseConfig.maxIterations)
  | none, none =>
      .error (.toolExecutionError
        ("Missing subagent: provide 'agent' (a pre-configured subagent) or " ++
      "'system_prompt' (an inline one)."))

/-- What the tool does before the loop of the subagent starts. -/
def prepare (world : DelegateEnvironment) (arguments : String) : Except Error Delegation := do
  let args ← (world.parseArgs arguments).mapError fun reason =>
    .parseError ("failed to parse arguments: " ++ reason)
  let profile ← tool.chooseProfile args
  let config ← tool.resolveRuntime world profile
  return ⟨profile, args.task, config, tool.buildExecutor profile⟩

/-- The answer of a subagent, with a note when it did not finish normally. -/
def answer (profileName : String) (maxIterations : Nat) (result : AgentResult) : String :=
  match result.stopReason with
  | .maxIterations => result.finalResponse ++ "\n\n[Note: subagent '" ++ profileName ++
      "' reached its iteration limit (" ++ toString maxIterations ++
      ") before finishing — this answer may be incomplete.]"
  | reason =>
      match reason.notice with
      | some notice => result.finalResponse ++ "\n\n[Note: subagent '" ++ profileName ++
          "' did not finish normally: " ++ notice ++ ".]"
      | none => result.finalResponse

variable {tool} {world : DelegateEnvironment} {arguments : String} {args : DelegateArgs}
  {delegation : Delegation}
  {profile : AgentProfile} {config : AgentConfig}

/-- What a subagent that starts was made from. -/
theorem prepare_ok (prepared : tool.prepare world arguments = .ok delegation) :
    ∃ args, world.parseArgs arguments = .ok args ∧
      tool.chooseProfile args = .ok delegation.profile ∧
      tool.resolveRuntime world delegation.profile = .ok delegation.config ∧
      delegation.executor = tool.buildExecutor delegation.profile := by
  obtain ⟨args, parsed, chosen⟩ := AppConfig.bind_eq_ok prepared
  obtain ⟨profile, choice, resolved⟩ := AppConfig.bind_eq_ok chosen
  obtain ⟨config, runtime, same⟩ := AppConfig.bind_eq_ok resolved
  cases same
  refine ⟨args, ?_, choice, runtime, rfl⟩
  cases outcome : world.parseArgs arguments with
  | error reason => rw [outcome] at parsed; cases parsed
  | ok read => rw [outcome] at parsed; cases parsed; rfl

/-- A subagent that starts has the executor that is built for its profile. -/
theorem prepare_executor (prepared : tool.prepare world arguments = .ok delegation) :
    delegation.executor = tool.buildExecutor delegation.profile := by
  obtain ⟨_, _, _, _, executor⟩ := prepare_ok prepared
  exact executor

/-- A call that names no profile describes one. -/
theorem chooseProfile_inline (inline : args.agent = none)
    (chosen : tool.chooseProfile args = .ok profile) :
    ∃ systemPrompt, args.systemPrompt = some systemPrompt ∧
      profile = inlineProfile systemPrompt args tool.baseConfig.maxIterations := by
  rw [chooseProfile, inline] at chosen
  cases prompt : args.systemPrompt with
  | none => rw [prompt] at chosen; cases chosen
  | some systemPrompt =>
      rw [prompt] at chosen
      cases chosen
      exact ⟨systemPrompt, rfl, rfl⟩

/-- The iterations are those of the profile, else those of the configuration for a model of its own,
else those of the session. -/
theorem resolveRuntime_maxIterations (resolved : tool.resolveRuntime world profile = .ok config) :
    config.maxIterations = profile.maxIterations.getD
      (if profile.model.isSome then tool.appConfig.maxIterations
          else tool.baseConfig.maxIterations) := by
  have settled {settings : AgentConfig} (later : (if sameModel settings tool.baseConfig then
      pure settings
      else world.http >>= fun _ => pure settings) = Except.ok config) : config = settings := by
    split at later
    · cases later
      rfl
    · obtain ⟨_, _, same⟩ := AppConfig.bind_eq_ok later
      cases same
      rfl
  have count (base : AgentConfig) : (profile.maxIterations.elim base fun maxIterations =>
      { base with maxIterations }).maxIterations =
        profile.maxIterations.getD base.maxIterations := by
    cases profile.maxIterations <;> rfl
  have configured {base : AgentConfig} {provider : ProviderConfig}
      (settings : tool.appConfig.Resolved world.env base provider) :
      base.maxIterations = tool.appConfig.maxIterations :=
        congrArg AgentConfig.maxIterations settings.settings
  rw [resolveRuntime] at resolved
  dsimp only at resolved
  split at resolved
  · next provider model _ named =>
    obtain ⟨base, first, later⟩ := AppConfig.bind_eq_ok resolved
    obtain ⟨_, settings⟩ := AppConfig.resolveWithProvider_resolved first
    rw [settled later, count, configured settings, named]
    rfl
  · next model _ named =>
    obtain ⟨base, first, later⟩ := AppConfig.bind_eq_ok resolved
    obtain ⟨_, settings⟩ := AppConfig.resolve_resolved first
    rw [settled later, count, configured settings, named]
    rfl
  · next unnamed =>
    rw [settled resolved, count, unnamed]
    rfl

/-- A subagent hands over only what its profile lists, and to handlers of the base executor. -/
theorem buildExecutor_handled {called : String} {handler : ToolHandler ToolExecutor}
    (handled : (tool.buildExecutor profile).execute called = .handled handler) :
    (∀ allowed ∈ profile.tools, called ∈ allowed) ∧
      tool.baseExecutor.execute called = .handled handler := by
  rw [buildExecutor] at handled
  split at handled
  · next allowed listing =>
    obtain ⟨listed, base⟩ := ToolExecutor.execute_scoped handled
    refine ⟨fun other member => ?_, base⟩
    obtain rfl : allowed = other := Option.some.inj (listing.symm.trans member)
    exact listed
  · next unlisted =>
    refine ⟨fun other member => ?_, handled⟩
    rw [unlisted] at member
    cases member

end DelegateTool

end Openheim.Tools
