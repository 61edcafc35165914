import Openheim.Runtime.Session
import Openheim.Tools.Delegate

/-
This file follows the tools of `AgentState` in `src/core/runtime/state.rs`: how the registry is
filled, which executor a turn gets, and how turns and the subagents of `src/tools/delegate.rs` call
their executors.
-/

namespace Openheim.Runtime
open Openheim.Tools

/-- The built-in tools; the shell is among them only when it is allowed. -/
def builtinTools (allowShell : Bool) : List Tool :=
  (if allowShell then [⟨"execute_command", { kind := .execute, approvalScope := .exactArguments }⟩]
    else []) ++ [⟨"read_file", { readOnly := true, kind := .read }⟩,
      ⟨"write_file", { kind := .edit }⟩, ⟨"edit_file", { kind := .edit }⟩,
      ⟨"list_dir", { readOnly := true, kind := .read }⟩,
      ⟨"search", { readOnly := true, kind := .search }⟩,
        ⟨"web_fetch", { readOnly := true, kind := .fetch }⟩]

/-- The tools of the long-term memory. -/
def memoryTools : List Tool :=
  [⟨"remember", { kind := .think }⟩, ⟨"search_memory", { readOnly := true, kind := .search }⟩,
    ⟨"edit_memory", { kind := .edit }⟩, ⟨"forget", { kind := .delete }⟩]

/-- What the tools of a process are built from. A tool of an MCP server is known by the name under
which it is exposed, and it declares nothing. -/
structure ToolSettings where
  json : SerdeJson
  env : Environment
  parseArgs : String → Except String DelegateArgs
  describe : Error → String
  allowShell : Bool
  rag : Bool
  mcpTools : List String
  customTools : List Tool
  profiles : List AgentProfile
  appConfig : AppConfig
  config : AgentConfig

namespace ToolSettings
variable (settings : ToolSettings)

/-- The tools that come from outside. -/
def foreignTools : List Tool :=
  (settings.mcpTools.map fun name => ⟨name, {}⟩) ++ settings.customTools

/-- The tools in the order in which they are registered. -/
def tools : List Tool :=
  builtinTools settings.allowShell ++ settings.foreignTools ++ if settings.rag then
    memoryTools else []

/-- The registry as it is before `delegate_task` is added. -/
def base : SystemToolExecutor := SystemToolExecutor.registerAll [] settings.tools

def delegate : DelegateTool ToolExecutor :=
  ⟨.system settings.base, settings.profiles, settings.appConfig, settings.config⟩

def executor : ToolExecutor := .system (settings.base.register (.delegate settings.delegate))

/-- The executor of a turn: the read-only tools in one mode, and in the other one all tools, with
subagents on the settings of the session. -/
def turnExecutor (mode : AgentMode) (config : AgentConfig) : ToolExecutor :=
  match mode with
  | .architect => .scopedTo settings.executor settings.executor.readOnlyTools
  | .code => settings.executor.overlayWith (.delegate (settings.delegate.forSession config))

end ToolSettings

/-- The call that a subagent works for, and its profile. -/
structure Subagent where
  call : CallId
  profile : AgentProfile

/-- What stays fixed for a run of the agent loop: its executor, the mode of its
turn, and whom it works for. -/
structure Scope where
  executor : ToolExecutor
  mode : AgentMode
  subagent : Option Subagent

/-- A run of the agent loop. All runs of a turn share its token. -/
structure ScopedRun extends Scope where
  agent : AgentRun
  turn : Nat

/-- A handler was executed for a call under the name that the model gave. -/
structure Execution where
  call : CallId
  name : String
  handler : ToolHandler ToolExecutor

/-- The runs by number, the results that are known without waiting, and the executed handlers. -/
structure ScopeState where
  runs : List ScopedRun
  known : List (CallId × Except String String)
  log : List Execution

/-- What happens next. Executing a call may need an HTTP client for a
subagent, whose request has a size. -/
inductive ScopeAction where
  | startTurn (mode : AgentMode) (config : AgentConfig) (promptBuilder : Option PromptBuilder)
      (toolsBytes : Nat)
      (messages : List Message)
  | cancel (turn : Nat)
  | agent (number : Nat) (action : AgentAction)
  | execute (number index : Nat) (http : Except Error Unit) (toolsBytes : Nat)
  | complete (number index : Nat) (result : Except String String)

/-- The call at a place of the reply whose calls are executed. -/
def executingCall (phase : Phase) (index : Nat) : Option (Nat × ToolUseBlock) :=
  match phase with
  | .executing iteration choice _ _ => choice.message.toolCalls[index]?.map fun block =>
      (iteration, block)
  | _ => none

/-- A call of the given iteration is being executed. -/
def isExecuting (phase : Phase) (iteration index : Nat) : Bool :=
  match phase with
  | .executing current _ _ progress => current = iteration ∧ progress[index]? = some .executing
  | _ => false

namespace ScopeState

def scopes (s : ScopeState) : List Scope := s.runs.map ScopedRun.toScope

/-- A subagent lives while the call that started it executes, and so do the runs above it. -/
def isLive (s : ScopeState) : Nat → Nat → Bool
  | 0, _ => false
  | depth + 1, number =>
      match s.runs[number]? with
      | none => false
      | some run =>
          match run.subagent with
          | none => true
          | some subagent =>
              (s.runs[subagent.call.run]?.any fun parent =>
                isExecuting parent.agent.phase subagent.call.iteration subagent.call.index) &&
                s.isLive depth subagent.call.run

def liveRun (s : ScopeState) (number : Nat) : Option ScopedRun :=
  if s.isLive s.runs.length number then s.runs[number]? else none

def setAgent (s : ScopeState) (number : Nat) (run : ScopedRun) (agent : AgentRun) : ScopeState :=
  { s with runs := s.runs.set number { run with agent } }

def addRun (s : ScopeState) (run : ScopedRun) : ScopeState := { s with runs := s.runs ++ [run] }

def note (s : ScopeState) (execution : Execution) : ScopeState :=
  { s with log := execution :: s.log }

def know (s : ScopeState) (call : CallId) (result : Except String String) : ScopeState :=
  { s with known := (call, result) :: s.known }

/-- A step of the loop that concerns neither the executor nor the token. -/
def stepAgent (settings : ToolSettings) (s : ScopeState) (number : Nat) (action : AgentAction) :
    Option ScopeState :=
  match action with
  | .cancel | .execute _ | .complete _ _ => none
  | _ =>
      (s.liveRun number).bind fun run =>
        (run.agent.step settings.json action).map fun agent => s.setAgent number run agent

/-- A subagent runs with a history of its own under the token of its parent. -/
def startSubagent (s : ScopeState) (parent : ScopedRun) (call : CallId) (toolsBytes : Nat)
    (delegation : Delegation) :
    ScopeState :=
  s.addRun
    { executor := delegation.executor
      mode := parent.mode
      subagent := some ⟨call, delegation.profile⟩
      agent := .start delegation.config (some ⟨some delegation.profile.systemPrompt, []⟩) toolsBytes
        [.ofUser delegation.task] parent.agent.cancelled
      turn := parent.turn }

/-- A handler is executed; one that runs subagents starts one or fails. -/
def handle (settings : ToolSettings) (s : ScopeState) (run : ScopedRun) (call : CallId)
    (block : ToolUseBlock)
    (http : Except Error Unit) (toolsBytes : Nat) (handler : ToolHandler ToolExecutor) :
    ScopeState :=
  let noted := s.note ⟨call, block.name, handler⟩
  match handler with
  | .plain _ => noted
  | .delegate tool =>
      match tool.prepare ⟨settings.env, settings.parseArgs, http⟩ block.arguments with
      | .ok delegation => noted.startSubagent run call toolsBytes delegation
      | .error error => noted.know call (.error (settings.describe error))

/-- An allowed call is handed to the executor of its run. -/
def execute (settings : ToolSettings) (s : ScopeState) (number index : Nat)
    (http : Except Error Unit) (toolsBytes : Nat) : Option ScopeState :=
  (s.liveRun number).bind fun run =>
    (executingCall run.agent.phase index).bind fun (iteration, block) =>
      (run.agent.execute index).map fun agent =>
        let call : CallId := ⟨number, iteration, index⟩
        let begun := s.setAgent number run agent
        match run.executor.execute block.name with
        | .answered result => begun.know call (result.mapError settings.describe)
        | .handled handler => begun.handle settings run call block http toolsBytes handler

/-- What the loop of a subagent came to, for the call that it works for. -/
def subagentResult (settings : ToolSettings) (run : ScopedRun) : Option (Except String String) :=
  match run.subagent, run.agent.phase with
  | some subagent, .returned (.ok result) =>
      some (.ok (DelegateTool.answer subagent.profile.name run.agent.config.maxIterations result))
  | some _, .returned (.error error) => some (.error (settings.describe error))
  | _, _ => none

/-- A call may get this result: the known one, that of its subagent,
or any that its tool returns. -/
def mayReturn (settings : ToolSettings) (s : ScopeState) (call : CallId)
    (result : Except String String) : Bool :=
  match s.known.lookup call, s.runs.find? fun run => run.subagent.any fun subagent =>
      subagent.call = call with
  | some known, _ => result = known
  | none, some run => subagentResult settings run = some result
  | none, none => true

/-- A call finishes, one that was refused without having been executed. -/
def complete (settings : ToolSettings) (s : ScopeState) (number index : Nat)
    (result : Except String String) :
    Option ScopeState :=
  (s.liveRun number).bind fun run =>
    (executingCall run.agent.phase index).bind fun (iteration, _) =>
      if isExecuting run.agent.phase iteration index ∧
        ¬ s.mayReturn settings ⟨number, iteration, index⟩ result then none
      else (run.agent.complete index result).map fun agent => s.setAgent number run agent

/-- The token of a turn fires for all of its runs. -/
def cancel (s : ScopeState) (turn : Nat) : ScopeState :=
  { s with runs := s.runs.map fun run =>
      if run.turn = turn then { run with agent := { run.agent with cancelled := true } } else run }

/-- One step of some turn or subagent. -/
def step (settings : ToolSettings) (s : ScopeState) : ScopeAction → Option ScopeState
  | .startTurn mode config promptBuilder toolsBytes messages =>
      some (s.addRun
        { executor := settings.turnExecutor mode config
          mode
          subagent := none
          agent := .start config promptBuilder toolsBytes messages false
          turn := s.runs.length })
  | .cancel turn => some (s.cancel turn)
  | .agent number action => s.stepAgent settings number action
  | .execute number index http toolsBytes => s.execute settings number index http toolsBytes
  | .complete number index result => s.complete settings number index result

end ScopeState

/-- All turns and subagents of one process, which begins without runs. -/
def scopeMachine (settings : ToolSettings) : Machine ScopeState ScopeAction where
  start s := s = ⟨[], [], []⟩
  step := ScopeState.step settings

end Openheim.Runtime
