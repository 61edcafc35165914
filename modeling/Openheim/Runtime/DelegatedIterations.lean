import Openheim.Core.RunEnd
import Openheim.Runtime.SessionSettings
import Openheim.Runtime.ToolScoping

/-
This file shows when a subagent may take more iterations than the session that it works for.
-/

namespace Openheim.Runtime
open Openheim.Tools

/-- A model is given but no number of iterations, and the configuration allows
more of them than the session. -/
def RaisesIterations (app : AppConfig) (session : AgentConfig) (args : DelegateArgs) : Prop :=
  args.model.isSome = true ∧ args.maxIterations = none ∧ session.maxIterations < app.maxIterations

section Calls
variable {tool : DelegateTool ToolExecutor} {session : AgentConfig} {world : DelegateEnvironment}
  {arguments : String}
  {args : DelegateArgs} {delegation : Delegation}

/-- The iterations of a subagent that its call describes. -/
theorem inline_maxIterations (parsed : world.parseArgs arguments = .ok args)
    (inline : args.agent = none)
    (prepared : (tool.forSession session).prepare world arguments = .ok delegation) :
    delegation.config.maxIterations = (args.maxIterations.map fun count =>
        min count session.maxIterations).getD
      (if args.model.isSome then tool.appConfig.maxIterations else session.maxIterations) := by
  obtain ⟨read, again, chosen, resolved, -⟩ := DelegateTool.prepare_ok prepared
  obtain rfl : args = read := Except.ok.inj (parsed.symm.trans again)
  obtain ⟨systemPrompt, -, same⟩ := DelegateTool.chooseProfile_inline inline chosen
  rw [same] at resolved
  exact DelegateTool.resolveRuntime_maxIterations resolved

/-- Only a model without a number of iterations takes them from the configuration. -/
theorem inline_bounded_iff (parsed : world.parseArgs arguments = .ok args)
    (inline : args.agent = none)
    (prepared : (tool.forSession session).prepare world arguments = .ok delegation) :
    delegation.config.maxIterations ≤ session.maxIterations ↔
      ¬ RaisesIterations tool.appConfig session args := by
  rw [inline_maxIterations parsed inline prepared, RaisesIterations]
  cases args.maxIterations with
  | some count => simp
  | none => cases args.model <;> simp

end Calls

/-- What stays of every run: its scope and its settings. -/
def ScopeState.fixed (s : ScopeState) : List (Scope × AgentConfig) :=
  s.runs.map fun run => (run.toScope, run.agent.config)

/-- A subagent was prepared by a call of a turn, with the settings of that turn. -/
def PreparedFor (settings : ToolSettings) (config : AgentConfig) (profile : AgentProfile)
    (prepared : AgentConfig) :
    Prop :=
  ∃ arguments http delegation,
    (settings.delegate.forSession config).prepare ⟨settings.env, settings.parseArgs,
      http⟩ arguments = .ok delegation ∧ delegation.profile = profile ∧ delegation.config = prepared

/-- Turns have the executor of their settings, and subagents were prepared with
the settings of their turn. -/
structure Grounded (settings : ToolSettings) (fixed : List (Scope × AgentConfig)) : Prop where
  turns : ∀ entry ∈ fixed, entry.1.subagent = none →
    entry.1.executor = settings.turnExecutor entry.1.mode entry.2
  subagents : ∀ entry ∈ fixed, ∀ subagent ∈ entry.1.subagent, ∃ parent,
    fixed[subagent.call.run]? = some parent ∧ parent.1.subagent = none ∧
      PreparedFor settings parent.2 subagent.profile entry.2

section Steps
variable {settings : ToolSettings} {s t : ScopeState} {run : ScopedRun} {number : Nat}

/-- No step of a loop changes its settings. -/
theorem step_config {json : SerdeJson} {before after : AgentRun} {action : AgentAction}
    (stepped : before.step json action = some after) : after.config = before.config := by
  cases AgentRun.step_end stepped with
  | cancel fires same => rw [same]
  | begin iteration stands allowed goesOn phase inside => exact goesOn.config
  | stay goesOn iterations before phase seen => exact goesOn.config
  | fail goesOn error before phase => exact goesOn.config
  | finish middle goesOn reason before cause ends =>
      rw [ends]
      exact goesOn.config

theorem liveRun_fixed (live : s.liveRun number = some run) :
    s.fixed[number]? = some (run.toScope, run.agent.config) := by
  rw [ScopeState.fixed, List.getElem?_map, liveRun_get live]
  rfl

theorem setAgent_fixed (live : s.liveRun number = some run) {agent : AgentRun}
    (same : agent.config = run.agent.config) :
    (s.setAgent number run agent).fixed = s.fixed := by
  have get := liveRun_fixed live
  rw [ScopeState.fixed, ScopeState.setAgent, List.map_set]
  obtain ⟨bound, there⟩ := List.getElem?_eq_some_iff.mp get
  have entry : ({ run with agent := agent }.toScope, agent.config) = s.fixed[number] := by
    rw [there, same]
  exact (congrArg (s.fixed.set number) entry).trans (List.set_getElem_self bound)

theorem cancel_fixed (turn : Nat) : (s.cancel turn).fixed = s.fixed := by
  rw [ScopeState.fixed, ScopeState.cancel, List.map_map]
  refine List.map_congr_left fun run _ => ?_
  dsimp only [Function.comp_apply]
  split
  · rfl
  · rfl

namespace Grounded

/-- A new run is grounded when it is a turn or was prepared for one. -/
theorem append {fixed : List (Scope × AgentConfig)} (grounded : Grounded settings fixed)
    {scope : Scope}
    {config : AgentConfig}
    (turn : scope.subagent = none → scope.executor = settings.turnExecutor scope.mode config)
    (prepared : ∀ subagent ∈ scope.subagent, ∃ parent, fixed[subagent.call.run]? = some parent ∧
      parent.1.subagent = none ∧ PreparedFor settings parent.2 subagent.profile config) :
    Grounded settings (fixed ++ [(scope, config)]) := by
  have kept {index : Nat} {entry : Scope × AgentConfig} (get : fixed[index]? = some entry) :
      (fixed ++ [(scope, config)])[index]? = some entry :=
    (List.getElem?_append_left (List.getElem?_eq_some_iff.mp get).1).trans get
  constructor
  · intro entry member
    rcases List.mem_append.mp member with old | new
    · exact grounded.turns entry old
    · cases List.mem_singleton.mp new
      exact turn
  · intro entry member subagent working
    rcases List.mem_append.mp member with old | new
    · obtain ⟨parent, get, rest⟩ := grounded.subagents entry old subagent working
      exact ⟨parent, kept get, rest⟩
    · cases List.mem_singleton.mp new
      obtain ⟨parent, get, rest⟩ := prepared subagent working
      exact ⟨parent, kept get, rest⟩

theorem stepAgent (grounded : Grounded settings s.fixed) {action : AgentAction}
    (stepped : s.stepAgent settings number action = some t) : Grounded settings t.fixed := by
  have moved : ∃ run agent, s.liveRun number = some run ∧
      run.agent.step settings.json action = some agent ∧
      s.setAgent number run agent = t := by
    unfold ScopeState.stepAgent at stepped
    split at stepped
    · cases stepped
    · cases stepped
    · cases stepped
    · obtain ⟨run, live, taken⟩ := Option.bind_eq_some_iff.mp stepped
      obtain ⟨agent, moved, same⟩ := Option.map_eq_some_iff.mp taken
      exact ⟨run, agent, live, moved, same⟩
  obtain ⟨run, agent, live, moved, rfl⟩ := moved
  rw [setAgent_fixed live (step_config moved)]
  exact grounded

theorem complete (grounded : Grounded settings s.fixed) {index : Nat}
    {result : Except String String}
    (stepped : s.complete settings number index result = some t) : Grounded settings t.fixed := by
  obtain ⟨run, live, called⟩ := Option.bind_eq_some_iff.mp stepped
  obtain ⟨⟨iteration, block⟩, _, finished⟩ := Option.bind_eq_some_iff.mp called
  dsimp only at finished
  split at finished
  · cases finished
  · obtain ⟨agent, completed, rfl⟩ := Option.map_eq_some_iff.mp finished
    have moved : run.agent.step settings.json (.complete index result) = some agent := completed
    rw [setAgent_fixed live (step_config moved)]
    exact grounded

/-- A handler that runs subagents is the one on the settings of its turn. -/
theorem delegates (grounded : Grounded settings s.fixed) (scopes : ScopeInvariant settings s)
    (live : s.liveRun number = some run) {called : String} {tool : DelegateTool ToolExecutor}
    (handled : run.executor.execute called = .handled (.delegate tool)) :
    run.subagent = none ∧ tool = settings.delegate.forSession run.agent.config := by
  have built := scopes.built _ (List.mem_of_getElem? (liveRun_scope live))
  have permitted : run.toScope.Permits settings ⟨⟨0, 0, 0⟩, called, .delegate tool⟩ :=
    built.permits handled
  have turn : run.subagent = none := by
    cases subagent : run.subagent with
    | none => rfl
    | some subagent => exact absurd rfl ((permitted.notDelegate (by rw [subagent]; rfl)).1 tool)
  have executor := grounded.turns _ (List.mem_of_getElem? (liveRun_fixed live)) turn
  dsimp only at executor
  cases mode : run.mode with
  | architect => cases (permitted.readOnly mode).2
  | code =>
      rw [executor, mode] at handled
      exact ⟨turn, code_delegate handled⟩

theorem execute (grounded : Grounded settings s.fixed) (scopes : ScopeInvariant settings s)
    {index toolsBytes : Nat}
    {http : Except Error Unit}
    (stepped : s.execute settings number index http toolsBytes = some t) :
    Grounded settings t.fixed := by
  obtain ⟨run, live, called⟩ := Option.bind_eq_some_iff.mp stepped
  obtain ⟨⟨iteration, block⟩, _, begun⟩ := Option.bind_eq_some_iff.mp called
  obtain ⟨agent, executing, same⟩ := Option.map_eq_some_iff.mp begun
  have stepped : run.agent.step settings.json (.execute index) = some agent := executing
  have fixed := setAgent_fixed live (step_config stepped)
  have moved : Grounded settings (s.setAgent number run agent).fixed := by
    rw [fixed]
    exact grounded
  dsimp only at same
  split at same
  · cases same
    exact moved
  · next handler handled =>
    cases same
    cases handler with
    | plain tool => exact moved
    | delegate tool =>
        obtain ⟨turn, rfl⟩ := grounded.delegates scopes live handled
        unfold ScopeState.handle
        dsimp only
        split
        · next delegation prepared =>
          have added : (((s.setAgent number run agent).note ⟨⟨number, iteration, index⟩, block.name,
              .delegate (settings.delegate.forSession run.agent.config)⟩).startSubagent run ⟨number,
                iteration, index⟩
                toolsBytes delegation).fixed = (s.setAgent number run agent).fixed ++
                  [(⟨delegation.executor, run.mode,
                    some ⟨⟨number, iteration, index⟩, delegation.profile⟩⟩,
                    delegation.config)] := List.map_append
          rw [added]
          refine moved.append (fun absent => nomatch absent) fun subagent working => ?_
          cases working
          rw [fixed]
          exact ⟨_, liveRun_fixed live, turn, block.arguments, http, delegation, prepared, rfl, rfl⟩
        · exact moved

/-- Every step keeps the runs grounded. -/
theorem step (grounded : Grounded settings s.fixed) (scopes : ScopeInvariant settings s)
    {action : ScopeAction}
    (stepped : s.step settings action = some t) : Grounded settings t.fixed := by
  cases action with
  | startTurn mode config promptBuilder toolsBytes messages =>
      cases stepped
      have added : (s.addRun
        { executor := settings.turnExecutor mode config
          mode
          subagent := none
          agent := .start config promptBuilder toolsBytes messages false
          turn :=
              s.runs.length }).fixed = s.fixed ++
                [(⟨settings.turnExecutor mode config, mode, none⟩, config)] :=
        List.map_append
      rw [added]
      exact grounded.append (fun _ => rfl) fun _ absent => nomatch absent
  | cancel turn =>
      cases stepped
      rw [cancel_fixed]
      exact grounded
  | agent number action => exact grounded.stepAgent stepped
  | execute number index http toolsBytes => exact grounded.execute scopes stepped
  | complete number index result => exact grounded.complete stepped

end Grounded

end Steps

/-- In every run of turns and subagents, each subagent was prepared by a call of its turn
with the settings of that turn. -/
theorem grounded_of_reachable {settings : ToolSettings} {s : ScopeState}
    (reached : (scopeMachine settings).Reachable s) :
    Grounded settings s.fixed := by
  have both : ScopeInvariant settings s ∧ Grounded settings s.fixed := by
    apply reached.invariant
    · rintro first rfl
      exact ⟨.empty settings, by simp [ScopeState.fixed], by simp [ScopeState.fixed]⟩
    · intro first action last before _ stepped
      exact ⟨before.1.step stepped, before.2.step before.1 stepped⟩
  exact both.2

/-- The settings of every subagent were prepared by a call of its turn with the settings of that
turn, and those of one that the call describes allow no more iterations than the session exactly
when they are not taken from the configuration. -/
theorem subagent_iterations_iff (settings : ToolSettings) :
    (∀ s, (scopeMachine settings).Reachable s → ∀ run ∈ s.runs, ∀ subagent ∈ run.subagent,
      ∃ parent, s.runs[subagent.call.run]? = some parent ∧ parent.subagent = none ∧
        PreparedFor settings parent.agent.config subagent.profile run.agent.config) ∧
    (∀ session http arguments args delegation, settings.parseArgs arguments = .ok args →
        args.agent = none →
      (settings.delegate.forSession session).prepare ⟨settings.env, settings.parseArgs,
          http⟩ arguments =
        .ok delegation →
      (delegation.config.maxIterations ≤ session.maxIterations ↔
        ¬ RaisesIterations settings.appConfig session args)) := by
  constructor
  · intro s reached run member subagent working
    have entry : (run.toScope, run.agent.config) ∈ s.fixed := List.mem_map.mpr ⟨run, member, rfl⟩
    obtain ⟨found, get, turn, prepared⟩ :=
      (grounded_of_reachable reached).subagents _ entry subagent working
    rw [ScopeState.fixed, List.getElem?_map] at get
    obtain ⟨parent, there, rfl⟩ := Option.map_eq_some_iff.mp get
    exact ⟨parent, there, turn, prepared⟩
  · intro session http arguments args delegation parsed inline prepared
    exact inline_bounded_iff parsed inline prepared

/-- The tools of a client that lowered the number of iterations, whose model
describes a subagent with a model. -/
def loweredTools : ToolSettings :=
  { sampleTools with
    env := bareEnv
    parseArgs := fun _ => .ok ⟨"look", none, some "Look.", none, some "llama3", none, none⟩
    appConfig := sampleApp
    config := loweredConfig }

/-- The session may take three iterations, and its subagent fifty. -/
theorem subagent_raises_iterations : ∃ s, (iterationsBuilder 3).build bareEnv (.ok sampleApp) =
      .ok (loweredConfig, sampleApp) ∧
    (scopeMachine loweredTools).exec ⟨[], [], []⟩
      (.startTurn .code loweredConfig none 0 [.ofUser "go"] ::
        callTool 0 "delegate_task") = some s ∧
    s.runs.map (fun run => run.agent.config.maxIterations) = [3, 50] := by
  have counted : ((scopeMachine loweredTools).exec ⟨[], [], []⟩
      (.startTurn .code loweredConfig none 0 [.ofUser "go"] :: callTool 0 "delegate_task")).map
        (fun s => s.runs.map fun run => run.agent.config.maxIterations) = some [3, 50] := by
    decide +kernel
  obtain ⟨s, executed, counts⟩ := Option.map_eq_some_iff.mp counted
  exact ⟨s, lowered_built, executed, counts⟩

end Openheim.Runtime
