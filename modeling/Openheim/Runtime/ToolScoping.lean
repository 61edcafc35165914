import Openheim.Runtime.ToolScopes

namespace Openheim.Runtime
open Openheim.Tools

section Registry
variable {settings : ToolSettings} {called : String} {handler : ToolHandler ToolExecutor}

/-- What is found after tools were registered is the last one of its
name, or what was there before. -/
theorem registerAll_lookup {tools : List Tool} {registry : SystemToolExecutor}
    (found : (registry.registerAll tools).lookup called = some handler) :
    (∃ tool ∈ tools, tool.name = called ∧ handler = .plain tool) ∨
      registry.lookup called = some handler := by
  induction tools generalizing registry with
  | nil => exact .inr found
  | cons tool rest ih =>
      rcases ih found with ⟨other, member, name, same⟩ | before
      · exact .inl ⟨other, List.mem_cons_of_mem _ member, name, same⟩
      · by_cases named : called = tool.name
        · subst named
          have new := (registry.lookup_register_self (.plain tool)).symm.trans before
          exact .inl ⟨tool, List.mem_cons_self, rfl, (Option.some.inj new).symm⟩
        · exact .inr ((registry.lookup_register_of_ne named).symm.trans before)

/-- The base registry holds tools that work by themselves, each under its own name. -/
theorem base_lookup (found : settings.base.lookup called = some handler) :
    ∃ tool ∈ settings.tools, tool.name = called ∧ handler = .plain tool := by
  rcases registerAll_lookup found with registered | before
  · exact registered
  · cases before

/-- A tool that is executed is one of the base. -/
theorem base_handled
    (handled : (ToolExecutor.system settings.base).execute called = .handled handler) :
    settings.base.lookup called = some handler := by
  rw [ToolExecutor.execute] at handled
  split at handled
  · next found =>
    cases handled
    exact found
  · cases handled

/-- The tools of the program itself have other names than the one that starts subagents. -/
theorem foreign_of_delegateName {tool : Tool} (member : tool ∈ settings.tools)
    (name : tool.name = delegateToolName) :
    tool ∈ settings.foreignTools := by
  have builtin : ∀ allowShell, ∀ tool ∈ builtinTools allowShell,
    tool.name ≠ delegateToolName := by decide
  have remembering : ∀ tool ∈ memoryTools, tool.name ≠ delegateToolName := by decide
  rcases List.mem_append.mp member with early | late
  · rcases List.mem_append.mp early with own | foreign
    · exact absurd name (builtin _ tool own)
    · exact foreign
  · split at late
    · exact absurd name (remembering tool late)
    · cases late

/-- In the mode with all tools, the only handler that runs subagents is the one on
the settings of the session. -/
theorem code_delegate {config : AgentConfig} {tool : DelegateTool ToolExecutor}
    (handled : (settings.turnExecutor .code config).execute called = .handled (.delegate tool)) :
    tool = settings.delegate.forSession config := by
  rw [ToolSettings.turnExecutor, ToolExecutor.overlayWith, ToolExecutor.execute] at handled
  split at handled
  · cases handled
    rfl
  · next different =>
    have same : (settings.base.register (.delegate settings.delegate)).lookup called =
        settings.base.lookup called :=
      settings.base.lookup_register_of_ne different
    rw [ToolSettings.executor, ToolExecutor.execute, same] at handled
    split at handled
    · next found =>
      obtain ⟨plain, _, _, same⟩ := base_lookup found
      cases handled
      cases same
    · cases handled

end Registry

/-- A turn has the executor of its mode, and a subagent, which only a turn with all tools can start,
has the executor that is built for its profile from the base registry. -/
def Scope.Built (settings : ToolSettings) (scope : Scope) : Prop :=
  match scope.subagent with
  | none => ∃ config, scope.executor = settings.turnExecutor scope.mode config
  | some subagent => scope.mode = .code ∧
      scope.executor = settings.delegate.buildExecutor subagent.profile

/-- An execution that its scope permits. -/
structure Scope.Permits (settings : ToolSettings) (scope : Scope)
    (execution : Execution) : Prop where
  readOnly : scope.mode = .architect → scope.subagent = none ∧
    execution.handler.capabilities.readOnly
  listed : ∀ subagent ∈ scope.subagent, ∀ allowed ∈ subagent.profile.tools, execution.name ∈ allowed
  registered : scope.subagent.isSome → settings.base.lookup execution.name = some execution.handler
  notDelegate : scope.subagent.isSome → (∀ tool, execution.handler ≠ .delegate tool) ∧
    (execution.name = delegateToolName → ∃ tool ∈ settings.foreignTools,
      tool.name = delegateToolName)

section Scopes
variable {settings : ToolSettings} {scope : Scope}

/-- Whatever a built executor hands to a handler is permitted. -/
theorem Scope.Built.permits (built : scope.Built settings) {execution : Execution}
    (handled : scope.executor.execute execution.name = .handled execution.handler) :
    scope.Permits settings execution := by
  unfold Scope.Built at built
  split at built
  · next turn =>
    obtain ⟨config, executor⟩ := built
    refine ⟨fun architect => ⟨turn, ?_⟩, by simp [turn], by simp [turn], by simp [turn]⟩
    rw [executor, architect] at handled
    exact ToolExecutor.readOnly_of_scoped handled
  · next subagent working =>
    obtain ⟨code, executor⟩ := built
    rw [executor] at handled
    obtain ⟨listed, base⟩ := DelegateTool.buildExecutor_handled handled
    have found := base_handled base
    obtain ⟨tool, member, name, plain⟩ := base_lookup found
    refine ⟨fun architect => ?_, ?_, fun _ => found, fun _ => ⟨?_, fun named => ?_⟩⟩
    · rw [code] at architect
      cases architect
    · intro other same allowed
      obtain rfl : subagent = other := Option.some.inj (working.symm.trans same)
      exact listed allowed
    · intro delegate same
      rw [plain] at same
      cases same
    · exact ⟨tool, foreign_of_delegateName member (name.trans named), name.trans named⟩

/-- Only a turn with all tools starts subagents, and they are built from the base registry. -/
theorem Scope.Built.delegates (built : scope.Built settings) {called : String}
    {tool : DelegateTool ToolExecutor}
    (handled : scope.executor.execute called = .handled (.delegate tool)) (profile : AgentProfile) :
    scope.mode = .code ∧ tool.buildExecutor profile = settings.delegate.buildExecutor profile := by
  have permitted : scope.Permits settings ⟨⟨0, 0, 0⟩, called, .delegate tool⟩ :=
    built.permits handled
  cases subagent : scope.subagent with
  | some subagent => exact absurd rfl ((permitted.notDelegate (by rw [subagent]; rfl)).1 tool)
  | none =>
      unfold Scope.Built at built
      rw [subagent] at built
      obtain ⟨config, executor⟩ := built
      cases mode : scope.mode with
      | architect => cases (permitted.readOnly mode).2
      | code =>
          rw [executor, mode] at handled
          rw [code_delegate handled]
          exact ⟨rfl, rfl⟩

end Scopes

/-- Every run is built as it should be, and every execution was handed over
by the executor of its run. -/
structure ScopeInvariant (settings : ToolSettings) (s : ScopeState) : Prop where
  built : ∀ scope ∈ s.scopes, scope.Built settings
  handled : ∀ execution ∈ s.log, ∃ scope, s.scopes[execution.call.run]? = some scope ∧
    scope.executor.execute execution.name = .handled execution.handler

section Steps
variable {settings : ToolSettings} {s t : ScopeState} {run : ScopedRun} {number : Nat}

/-- A live run is in the list. -/
theorem liveRun_get (live : s.liveRun number = some run) : s.runs[number]? = some run := by
  unfold ScopeState.liveRun at live
  split at live
  · exact live
  · cases live

/-- A live run has its scope. -/
theorem liveRun_scope (live : s.liveRun number = some run) :
    s.scopes[number]? = some run.toScope := by
  rw [ScopeState.scopes, List.getElem?_map, liveRun_get live]
  rfl

/-- A step of a loop leaves the scope of its run as it is. -/
theorem setAgent_scopes (live : s.liveRun number = some run) (agent : AgentRun) :
    (s.setAgent number run agent).scopes = s.scopes := by
  have get := liveRun_scope live
  rw [ScopeState.scopes, ScopeState.setAgent, List.map_set]
  obtain ⟨bound, same⟩ := List.getElem?_eq_some_iff.mp get
  exact (congrArg (s.scopes.set number) same.symm).trans (List.set_getElem_self bound)

theorem cancel_scopes (turn : Nat) : (s.cancel turn).scopes = s.scopes := by
  rw [ScopeState.scopes, ScopeState.cancel, List.map_map]
  apply List.map_congr_left
  intro run _
  show (if run.turn = turn then { run with agent := { run.agent with cancelled := true } }
    else run).toScope =
    run.toScope
  split
  · rfl
  · rfl

namespace ScopeInvariant

/-- Without runs there is nothing to scope. -/
theorem empty (settings : ToolSettings) : ScopeInvariant settings ⟨[], [], []⟩ :=
  ⟨by simp [ScopeState.scopes], by simp⟩

/-- A step that changes neither the scopes nor the log. -/
theorem frame (inv : ScopeInvariant settings s) (scopes : t.scopes = s.scopes)
    (log : t.log = s.log) :
    ScopeInvariant settings t where
  built := by
    rw [scopes]
    exact inv.built
  handled := by
    rw [scopes, log]
    exact inv.handled

/-- A new run is built with its scope. -/
theorem addRun (inv : ScopeInvariant settings s) (built : run.toScope.Built settings) :
    ScopeInvariant settings (s.addRun run) := by
  have scopes : (s.addRun run).scopes = s.scopes ++ [run.toScope] := List.map_append
  constructor
  · intro scope member
    rw [scopes] at member
    rcases List.mem_append.mp member with old | new
    · exact inv.built scope old
    · cases List.mem_singleton.mp new
      exact built
  · intro execution member
    obtain ⟨scope, get, handled⟩ := inv.handled execution member
    refine ⟨scope, ?_, handled⟩
    rw [scopes]
    exact (List.getElem?_append_left (List.getElem?_eq_some_iff.mp get).1).trans get

/-- An execution is noted with the scope of its run. -/
theorem note (inv : ScopeInvariant settings s) {execution : Execution} {scope : Scope}
    (get : s.scopes[execution.call.run]? = some scope)
    (handled : scope.executor.execute execution.name = .handled execution.handler) :
    ScopeInvariant settings (s.note execution) where
  built := inv.built
  handled other member := by
    rcases List.mem_cons.mp member with rfl | old
    · exact ⟨scope, get, handled⟩
    · exact inv.handled other old

/-- A step of a loop leaves the scopes. -/
theorem stepAgent (inv : ScopeInvariant settings s) {action : AgentAction}
    (stepped : s.stepAgent settings number action = some t) : ScopeInvariant settings t := by
  have moved : ∃ run agent, s.liveRun number = some run ∧ s.setAgent number run agent = t := by
    unfold ScopeState.stepAgent at stepped
    split at stepped
    · cases stepped
    · cases stepped
    · cases stepped
    · obtain ⟨run, live, taken⟩ := Option.bind_eq_some_iff.mp stepped
      obtain ⟨agent, _, same⟩ := Option.map_eq_some_iff.mp taken
      exact ⟨run, agent, live, same⟩
  obtain ⟨run, agent, live, rfl⟩ := moved
  exact inv.frame (setAgent_scopes live agent) rfl

/-- A call that completes leaves the scopes. -/
theorem complete (inv : ScopeInvariant settings s) {index : Nat} {result : Except String String}
    (stepped : s.complete settings number index result = some t) : ScopeInvariant settings t := by
  obtain ⟨run, live, called⟩ := Option.bind_eq_some_iff.mp stepped
  obtain ⟨⟨iteration, block⟩, _, finished⟩ := Option.bind_eq_some_iff.mp called
  dsimp only at finished
  split at finished
  · cases finished
  · obtain ⟨agent, _, rfl⟩ := Option.map_eq_some_iff.mp finished
    exact inv.frame (setAgent_scopes live agent) rfl

/-- A handler that gets a call is noted, and a subagent that it starts is
built from the base registry. -/
theorem handle (inv : ScopeInvariant settings s) {call : CallId} {block : ToolUseBlock}
    {http : Except Error Unit}
    {toolsBytes : Nat} {handler : ToolHandler ToolExecutor}
    (get : s.scopes[call.run]? = some run.toScope)
    (handled : run.executor.execute block.name = .handled handler) :
    ScopeInvariant settings (s.handle settings run call block http toolsBytes handler) := by
  have noted : ScopeInvariant settings (s.note ⟨call, block.name, handler⟩) := inv.note get handled
  cases handler with
  | plain tool => exact noted
  | delegate tool =>
      unfold ScopeState.handle
      dsimp only
      split
      · next delegation prepared =>
        apply noted.addRun
        obtain ⟨code, same⟩ :=
          (inv.built _ (List.mem_of_getElem? get)).delegates handled delegation.profile
        refine ⟨code, ?_⟩
        rw [← same]
        exact DelegateTool.prepare_executor prepared
      · exact noted.frame rfl rfl

/-- What a run executes is permitted by its scope. -/
theorem execute (inv : ScopeInvariant settings s) {index toolsBytes : Nat}
    {http : Except Error Unit}
    (stepped : s.execute settings number index http toolsBytes = some t) :
    ScopeInvariant settings t := by
  obtain ⟨run, live, called⟩ := Option.bind_eq_some_iff.mp stepped
  obtain ⟨⟨iteration, block⟩, _, begun⟩ := Option.bind_eq_some_iff.mp called
  obtain ⟨agent, _, same⟩ := Option.map_eq_some_iff.mp begun
  have scopes := setAgent_scopes live agent
  have moved : ScopeInvariant settings (s.setAgent number run agent) := inv.frame scopes rfl
  dsimp only at same
  split at same
  · cases same
    exact moved.frame rfl rfl
  · next handler handled =>
    cases same
    apply moved.handle _ handled
    rw [scopes]
    exact liveRun_scope live

/-- Every step of a turn or a subagent keeps the invariant. -/
theorem step (inv : ScopeInvariant settings s) {action : ScopeAction}
    (stepped : s.step settings action = some t) :
    ScopeInvariant settings t := by
  cases action with
  | startTurn mode config promptBuilder toolsBytes messages =>
      cases stepped
      exact inv.addRun ⟨config, rfl⟩
  | cancel turn =>
      cases stepped
      exact inv.frame (cancel_scopes turn) rfl
  | agent number action => exact inv.stepAgent stepped
  | execute number index http toolsBytes => exact inv.execute stepped
  | complete number index result => exact inv.complete stepped

end ScopeInvariant

end Steps

/-- In all runs of turns and subagents, whatever the model replies, every executed handler is one
that the scope of its run permits: a read-only one in a turn without writing tools, where no
subagent runs, and in a subagent one that its profile lists and that the base registry holds under
the called name, never the one that runs subagents. -/
theorem tools_scoped {settings : ToolSettings} {s : ScopeState}
    (reached : (scopeMachine settings).Reachable s) :
    ∀ execution ∈ s.log, ∃ run, s.runs[execution.call.run]? = some run ∧
      run.toScope.Permits settings execution := by
  have inv : ScopeInvariant settings s := by
    apply reached.invariant
    · rintro first rfl
      exact .empty settings
    · intro first action last before _ stepped
      exact before.step stepped
  intro execution member
  obtain ⟨scope, get, handled⟩ := inv.handled execution member
  rw [ScopeState.scopes, List.getElem?_map] at get
  obtain ⟨run, found, rfl⟩ := Option.map_eq_some_iff.mp get
  have built := inv.built _ (List.mem_map.mpr ⟨run, List.mem_of_getElem? found, rfl⟩)
  exact ⟨run, found, built.permits handled⟩

/-- The sample process has one profile, which may only read files. -/
def sampleTools : ToolSettings where
  json := ⟨fun text => if text = "{}" then some (.object []) else none, fun _ => "{}"⟩
  env _ := none
  parseArgs _ := .ok ⟨"look", some "reader", none, none, none, none, none⟩
  describe _ := "failed"
  allowShell := false
  rag := false
  mcpTools := []
  customTools := []
  profiles := [⟨"reader", "Reads.", none, none, some ["read_file"], none, "Read."⟩]
  appConfig := ⟨"local", 5, [], List.Pairwise.nil⟩
  config := ⟨"local", .openAiCompatible, "", "", "small", 5, 60, none, none, false, false⟩

def callReply (tool : String) : Reply :=
  ⟨⟨⟨.assistant, [.toolUse "a" tool "{}" none]⟩, some .toolCalls, none⟩, rfl⟩

/-- One iteration of a run whose reply calls one tool, which is allowed and executed. -/
def callTool (number : Nat) (tool : String) : List ScopeAction :=
  [.agent number .proceed, .agent number (.reply (.ok (callReply tool))), .agent number .proceed,
    .agent number (.decide 0 .allowOnce), .agent number .proceed, .execute number 0 (.ok ()) 0]

/-- A turn whose subagent reads a file, and a turn without writing tools that
reads one and cannot write one. -/
def sampleScopes : List ScopeAction :=
  .startTurn .code sampleTools.config none 0 [.ofUser "go"] :: callTool 0 "delegate_task" ++
    callTool 1 "read_file" ++ .startTurn .architect sampleTools.config none 0 [.ofUser "plan"] ::
    callTool 2 "read_file" ++ [.complete 2 0 (.ok "text"), .agent 2 .proceed, .agent 2 .proceed] ++
      callTool 2 "write_file"

/-- The sample session executes three handlers. -/
theorem tools_scoped_sample :
    ∃ s, (scopeMachine sampleTools).exec ⟨[], [], []⟩ sampleScopes = some s ∧
    s.log.length = 3 ∧
    ∀ execution ∈ s.log, ∃ run, s.runs[execution.call.run]? = some run ∧
      run.toScope.Permits sampleTools execution := by
  have counted : ((scopeMachine sampleTools).exec ⟨[], [], []⟩ sampleScopes).map
      (fun s => s.log.length) = some 3 := by
    decide +kernel
  obtain ⟨s, executed, three⟩ := Option.map_eq_some_iff.mp counted
  exact ⟨s, executed, three, tools_scoped (Machine.reachable_of_exec rfl executed)⟩

end Openheim.Runtime
