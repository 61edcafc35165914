import Openheim.Core.Agent

/-
This file follows `RememberingGate` of `src/core/permission.rs` and `SubagentGate` of
`src/tools/delegate.rs`: the permission checks of all turns and subagents of one session, which
share the remembered decisions.
-/

namespace Openheim

/-- The name under which subagents are started. -/
def delegateToolName : String := "delegate_task"

/-- What the gate of a session is built with. -/
structure GateSettings where
  json : SerdeJson
  alwaysAllowedTools : List String
  approvalScope : String → ApprovalScope

/-- The key under which a decision about a request is remembered. -/
def GateSettings.key (settings : GateSettings) (request : PermissionRequest) : String :=
  approvalKey settings.json (settings.approvalScope request.toolName) request.toolName
    request.arguments

/-- A turn asks the remembering gate, and a subagent asks the gate of
its parent under its own name. -/
inductive Gate where
  | remembering
  | subagent (parent : Gate) (name : String)
  deriving DecidableEq, Repr

/-- The request as it reaches the remembering gate. -/
def Gate.forward : Gate → PermissionRequest → PermissionRequest
  | .remembering, request => request
  | .subagent parent name, request => parent.forward (request.fromSubagent name)

/-- One call of one reply: the run, the iteration of its loop, and the
place of the call in the reply. -/
structure CallId where
  run : Nat
  iteration : Nat
  index : Nat
  deriving DecidableEq, Repr

/-- How far the check of a call has come. -/
inductive CheckStage where
  | idle
  | asking (request : PermissionRequest)
  | answered (request : PermissionRequest) (decision : PermissionDecision)
  deriving DecidableEq, Repr

/-- A run of the agent loop: a turn of the session or a subagent of one. All runs of a turn share
its task, and `busy` says that the task goes on with an answer of the inner gate. -/
structure SessionRun where
  agent : AgentRun
  gate : Gate
  parent : Option CallId
  turn : Nat
  checks : Nat → CheckStage
  busy : Bool

/-- What happened at the gates and at the executors. -/
inductive GateEvent where
  | started (call : CallId) (request : PermissionRequest)
  | asked (call : CallId) (request : PermissionRequest)
  | answered (call : CallId) (request : PermissionRequest) (decision : PermissionDecision)
  | recorded (key : String) (decision : PermissionDecision)
  | returned (call : CallId) (decision : PermissionDecision)
  | executed (call : CallId) (block : ToolUseBlock)
  deriving DecidableEq, Repr

/-- The remembered decisions, the runs by number, and what happened, with the latest first. -/
structure PermissionState where
  approvals : String → Option PermissionDecision
  runs : List SessionRun
  log : List GateEvent

/-- What happens next in the session. -/
inductive GateAction where
  | startTurn (config : AgentConfig) (promptBuilder : Option PromptBuilder) (toolsBytes : Nat)
      (messages : List Message)
  | delegate (call : CallId) (name systemPrompt task : String) (config : AgentConfig)
      (toolsBytes : Nat)
  | cancel (turn : Nat)
  | agent (number : Nat) (action : AgentAction)
  | execute (number index : Nat)
  | check (number index : Nat)
  | answer (number index : Nat) (decision : PermissionDecision)
  | remember (number index : Nat)

namespace PermissionState

/-- The executor runs the given call. -/
def isExecuting (s : PermissionState) (call : CallId) : Bool :=
  match s.runs[call.run]? with
  | none => false
  | some run =>
      match run.agent.phase with
      | .executing iteration _ _ progress => iteration = call.iteration ∧
          progress[call.index]? = some .executing
      | _ => false

/-- A subagent lives while the call that started it executes, and so do the runs above it. -/
def isLive (s : PermissionState) : Nat → Nat → Bool
  | 0, _ => false
  | depth + 1, number =>
      match s.runs[number]? with
      | none => false
      | some run =>
          match run.parent with
          | none => true
          | some call => s.isExecuting call && s.isLive depth call.run

/-- A live run can take a step of its own when no run of its turn goes on with an answer. -/
def ready (s : PermissionState) (number : Nat) : Option SessionRun :=
  match s.runs[number]? with
  | none => none
  | some run =>
      if s.isLive s.runs.length number ∧ s.runs.all fun other => other.turn ≠ run.turn ∨
        !other.busy then some run
      else none

def setRun (s : PermissionState) (number : Nat) (run : SessionRun) : PermissionState :=
  { s with runs := s.runs.set number run }

def note (s : PermissionState) (event : GateEvent) : PermissionState :=
  { s with log := event :: s.log }

/-- A new run asks about no call yet. -/
def addRun (s : PermissionState) (agent : AgentRun) (gate : Gate) (parent : Option CallId)
    (turn : Nat) :
    PermissionState :=
  { s with runs := s.runs ++ [⟨agent, gate, parent, turn, fun _ => .idle, false⟩] }

/-- The tool starts a subagent with a history of its own under the token
and the gate of its parent. -/
def delegate (s : PermissionState) (call : CallId) (name systemPrompt task : String)
    (config : AgentConfig) (toolsBytes : Nat) : Option PermissionState :=
  match s.ready call.run with
  | none => none
  | some parent =>
      match parent.agent.phase with
      | .executing _ choice _ _ =>
          let named := choice.message.toolCalls[call.index]?.any fun block =>
            block.name = delegateToolName
          let first := s.runs.all fun run => run.parent ≠ some call
          if s.isExecuting call ∧ named ∧ first then
            some (s.addRun (.start config (some ⟨some systemPrompt, []⟩) toolsBytes [.ofUser task]
              parent.agent.cancelled)
              (.subagent parent.gate name) (some call) parent.turn)
          else none
      | _ => none

/-- The checks begin when the loop starts to ask about the calls of a reply. -/
def checksAfter (checks : Nat → CheckStage) : Phase → Phase → Nat → CheckStage
  | .announced _ _, .deciding _ _ _ => fun _ => .idle
  | _, _ => checks

/-- A step of the loop that concerns neither the gate nor the executor nor the token. -/
def stepAgent (settings : GateSettings) (s : PermissionState) (number : Nat)
    (action : AgentAction) :
    Option PermissionState :=
  match action with
  | .cancel | .decide _ _ | .execute _ => none
  | _ =>
      (s.ready number).bind fun run =>
        (run.agent.step settings.json action).map fun agent =>
          s.setRun number { run with
            agent, checks := checksAfter run.checks run.agent.phase agent.phase }

/-- An allowed call is handed to the executor. -/
def execute (s : PermissionState) (number index : Nat) : Option PermissionState :=
  match s.ready number with
  | none => none
  | some run =>
      match run.agent.phase with
      | .executing iteration choice _ _ =>
          choice.message.toolCalls[index]?.bind fun block =>
            (run.agent.execute index).map fun agent =>
              (s.setRun number { run with agent }).note (.executed ⟨number, iteration, index⟩ block)
      | _ => none

/-- The check of a call returns a decision to the loop. -/
def returnDecision (s : PermissionState) (number : Nat) (run : SessionRun) (call : CallId)
    (decision : PermissionDecision) : Option PermissionState :=
  (run.agent.decide call.index decision).map fun agent =>
    (s.setRun number { run with agent, busy := false }).note (.returned call decision)

/-- A check starts: it is answered from the list or from memory, or it asks the inner gate. -/
def check (settings : GateSettings) (s : PermissionState) (number index : Nat) :
    Option PermissionState :=
  match s.ready number with
  | none => none
  | some run =>
      match run.agent.phase with
      | .deciding iteration choice decisions =>
          match choice.message.toolCalls[index]?, decisions[index]?, run.checks index with
          | some block, some .pending, .idle =>
              let call : CallId := ⟨number, iteration, index⟩
              let request := run.gate.forward (.new block.id block.name block.arguments)
              let begun := s.note (.started call request)
              if request.toolName ∈ settings.alwaysAllowedTools then
                begun.returnDecision number run call .allowOnce
              else
                match s.approvals (settings.key request) with
                | some remembered => begun.returnDecision number run call remembered
                | none =>
                    some ((begun.setRun number { run with
                      checks :=
                        Function.update run.checks index (.asking request) }).note
                          (.asked call request))
          | _, _, _ => none
      | _ => none

/-- The inner gate answers a check. -/
def answer (s : PermissionState) (number index : Nat) (decision : PermissionDecision) :
    Option PermissionState :=
  match s.ready number with
  | none => none
  | some run =>
      match run.agent.phase with
      | .deciding iteration choice decisions =>
          match choice.message.toolCalls[index]?, decisions[index]?, run.checks index with
          | some _, some .pending, .asking request =>
              some ((s.setRun number { run with
                checks := Function.update run.checks index (.answered request decision), busy :=
                  true }).note
                  (.answered ⟨number, iteration, index⟩ request decision))
          | _, _, _ => none
      | _ => none

/-- A sticky decision replaces what was remembered under its key; any other
decision is not remembered. -/
def record (s : PermissionState) (key : String) (decision : PermissionDecision) : PermissionState :=
  if decision.isSticky then
    { s with approvals := Function.update s.approvals key (some decision) }.note
      (.recorded key decision)
  else s

/-- An answered check remembers the decision and returns it. -/
def remember (settings : GateSettings) (s : PermissionState) (number index : Nat) :
    Option PermissionState :=
  match s.runs[number]? with
  | none => none
  | some run =>
      match run.agent.phase with
      | .deciding iteration choice decisions =>
          match choice.message.toolCalls[index]?, decisions[index]?, run.checks index with
          | some _, some .pending, .answered request decision =>
              (s.record (settings.key request) decision).returnDecision number run ⟨number,
                iteration, index⟩ decision
          | _, _, _ => none
      | _ => none

/-- The token of a turn fires for all of its runs. -/
def cancel (s : PermissionState) (turn : Nat) : PermissionState :=
  { s with runs := s.runs.map fun run =>
      if run.turn = turn then { run with agent := { run.agent with cancelled := true } } else run }

/-- One step of some run of the session. -/
def step (settings : GateSettings) (s : PermissionState) : GateAction → Option PermissionState
  | .startTurn config promptBuilder toolsBytes messages =>
      some (s.addRun (.start config promptBuilder toolsBytes messages false) .remembering none
        s.runs.length)
  | .delegate call name systemPrompt task config toolsBytes =>
      s.delegate call name systemPrompt task config toolsBytes
  | .cancel turn => some (s.cancel turn)
  | .agent number action => s.stepAgent settings number action
  | .execute number index => s.execute number index
  | .check number index => s.check settings number index
  | .answer number index decision => s.answer number index decision
  | .remember number index => s.remember settings number index

end PermissionState

/-- All runs of one session, which begins without runs and without remembered decisions. -/
def permissionMachine (settings : GateSettings) : Machine PermissionState GateAction where
  start s := s = ⟨fun _ => none, [], []⟩
  step := PermissionState.step settings

end Openheim
