import Openheim.Core.SessionPermissions
import Openheim.Library.SortedMap

/-
This file follows the tool handlers and executors of `src/tools`: the registry of `mod.rs`, and the
wrappers of `scoped_executor.rs` and `overlay_executor.rs`. A definition is known by its name, and
an executor either answers a call itself or hands it to a handler.
-/

namespace Openheim.Tools

/-- What kind of action a tool performs. -/
inductive ToolKindHint where
  | read
  | edit
  | delete
  | move
  | search
  | execute
  | think
  | fetch
  | switchMode
  | other
  deriving DecidableEq, Repr

/-- What a handler declares about itself. -/
structure ToolCapabilities where
  readOnly : Bool := false
  kind : ToolKindHint := .other
  approvalScope : ApprovalScope := .toolName
  deriving DecidableEq, Repr

/-- A handler that works by itself: a built-in tool, a tool of an MCP server, or one of the
embedding program. -/
structure Tool where
  name : String
  capabilities : ToolCapabilities
  deriving DecidableEq, Repr

/-- A user-defined subagent. -/
structure AgentProfile where
  name : String
  description : String
  model : Option String
  provider : Option String
  tools : Option (List String)
  maxIterations : Option Nat
  systemPrompt : String
  deriving DecidableEq, Repr

/-- The tool that runs subagents, which get their tools from the base executor. -/
structure DelegateTool (Executor : Type) where
  baseExecutor : Executor
  profiles : List AgentProfile
  appConfig : AppConfig
  baseConfig : AgentConfig

inductive ToolHandler (Executor : Type) where
  | plain (tool : Tool)
  | delegate (tool : DelegateTool Executor)

namespace ToolHandler
variable {Executor : Type}

def name : ToolHandler Executor → String
  | .plain tool => tool.name
  | .delegate _ => delegateToolName

/-- The tools of a subagent can write and execute, so its tool declares nothing. -/
def capabilities : ToolHandler Executor → ToolCapabilities
  | .plain tool => tool.capabilities
  | .delegate _ => {}

end ToolHandler

/-- The registry, an allowlist around an executor, and a single tool on top of an executor. -/
inductive ToolExecutor where
  | system (handlers : List (String × ToolHandler ToolExecutor))
  | scopedTo (inner : ToolExecutor) (allowed : List String)
  | overlay (inner : ToolExecutor) (handler : ToolHandler ToolExecutor) (name : String)

/-- An executor answers a call itself or leaves it to a handler. -/
inductive Dispatch where
  | answered (result : Except Error String)
  | handled (handler : ToolHandler ToolExecutor)

namespace ToolExecutor

/-- The names of the tools that are offered, in their order. -/
def listTools : ToolExecutor → List String
  | .system handlers => handlers.map fun entry => entry.2.name
  | .scopedTo inner allowed => inner.listTools.filter fun name => name ∈ allowed
  | .overlay inner handler name =>
      if name ∈ inner.listTools then inner.listTools else inner.listTools ++ [handler.name]

/-- What becomes of a call to a tool. -/
def execute : ToolExecutor → String → Dispatch
  | .system handlers, called =>
      match handlers.lookup called with
      | some handler => .handled handler
      | none => .answered (.error (.toolExecutionError ("Unknown tool: " ++ called)))
  | .scopedTo inner allowed, called =>
      if called ∈ allowed then inner.execute called
      else .answered
        (.ok ("Tool '" ++ called ++ "' is not available to this agent. Available tools: " ++
        ", ".intercalate allowed))
  | .overlay inner handler name, called => if called = name then .handled handler
      else inner.execute called

/-- What the tool of a name declares; the allowlist does not matter here. -/
def capabilities : ToolExecutor → String → ToolCapabilities
  | .system handlers, called => ((handlers.lookup called).map ToolHandler.capabilities).getD {}
  | .scopedTo inner _, called => inner.capabilities called
  | .overlay inner handler name, called => if called = name then handler.capabilities
      else inner.capabilities called

/-- One tool is routed to the handler instead. -/
def overlayWith (inner : ToolExecutor) (handler : ToolHandler ToolExecutor) : ToolExecutor :=
  .overlay inner handler handler.name

/-- The tools that declare themselves read-only. -/
def readOnlyTools (executor : ToolExecutor) : List String :=
  executor.listTools.filter fun name => (executor.capabilities name).readOnly

variable {executor inner : ToolExecutor} {allowed : List String} {called : String}
  {handler : ToolHandler ToolExecutor}

/-- An allowlist hands over only what it lists, and leaves it to the same handler. -/
theorem execute_scoped
    (handled : (ToolExecutor.scopedTo inner allowed).execute called = .handled handler) :
    called ∈ allowed ∧ inner.execute called = .handled handler := by
  rw [execute] at handled
  split at handled
  · next listed => exact ⟨listed, handled⟩
  · cases handled

/-- What an executor declares under a name is what the handler declares that gets the call. -/
theorem capabilities_of_handled (handled : executor.execute called = .handled handler) :
    executor.capabilities called = handler.capabilities := by
  fun_induction capabilities executor called with
  | case1 handlers called =>
      rw [execute] at handled
      split at handled
      · next found =>
        cases handled
        rw [found]
        rfl
      · cases handled
  | case2 inner allowed called ih => exact ih (execute_scoped handled).2
  | case3 inner other called =>
      rw [execute, if_pos rfl] at handled
      cases handled
      rfl
  | case4 inner other called name different ih =>
      rw [execute, if_neg different] at handled
      exact ih handled

/-- An executor that is scoped to the read-only tools hands over to read-only handlers. -/
theorem readOnly_of_scoped
    (handled : (ToolExecutor.scopedTo executor executor.readOnlyTools).execute called =
      .handled handler) :
    handler.capabilities.readOnly = true := by
  obtain ⟨listed, same⟩ := execute_scoped handled
  have declared := (List.mem_filter.mp listed).2
  rw [capabilities_of_handled same] at declared
  exact declared

end ToolExecutor

/-- The registry of all tools by name. -/
abbrev SystemToolExecutor := List (String × ToolHandler ToolExecutor)

namespace SystemToolExecutor

/-- A tool of the same name is overwritten. -/
def register (executor : SystemToolExecutor) (handler : ToolHandler ToolExecutor) :
    SystemToolExecutor :=
  SortedMap.insert handler.name handler executor

def registerAll (executor : SystemToolExecutor) (tools : List Tool) : SystemToolExecutor :=
  tools.foldl (fun executor tool => executor.register (.plain tool)) executor

theorem lookup_register_self (executor : SystemToolExecutor) (handler : ToolHandler ToolExecutor) :
    (executor.register handler).lookup handler.name = some handler :=
  SortedMap.lookup_insert_self _ _ _

theorem lookup_register_of_ne (executor : SystemToolExecutor) {called : String}
    {handler : ToolHandler ToolExecutor}
    (different : called ≠ handler.name) :
    (executor.register handler).lookup called = executor.lookup called :=
  SortedMap.lookup_insert_of_ne different _ _

end SystemToolExecutor

end Openheim.Tools
