import Openheim.Config.Types
import Openheim.Core.Error
import Openheim.Core.Permission
import Openheim.Core.Request
import Openheim.Library.Lines
import Openheim.Library.Machine
import Openheim.Library.Utf8

/-
This file follows `run_agent` of `src/core/agent.rs` as a machine. A step is what the loop does
between two points where it waits, or what the model, the gate, a tool or the cancel token does to
it.
-/

namespace Openheim

/-- The result recorded for a call whose turn was cancelled before it finished. -/
def cancelledToolResult : String := "Cancelled by user."

/-- Longest tool result kept, in bytes. -/
def maxToolResultBytes : Nat := 128 * 1024

/-- The last character boundary at or before a byte index. -/
def floorCharBoundary (text : List Char) : Nat → Nat
  | 0 => 0
  | index + 1 => if Utf8.isCharBoundary text (index + 1) then index + 1
      else floorCharBoundary text index

/-- The characters that lie wholly in the first bytes of a text. -/
def truncate : List Char → Nat → List Char
  | [], _ => []
  | char :: rest, bytes => if char.utf8Size ≤ bytes then
      char :: truncate rest (bytes - char.utf8Size) else []

/-- A tool result is cut at a character boundary, with a note that says how much was left out. -/
def capToolResult (result : String) : String :=
  let total := result.utf8ByteSize
  if total ≤ maxToolResultBytes then result
  else
    let last := floorCharBoundary result.toList maxToolResultBytes
    String.ofList (truncate result.toList last) ++ "\n[tool output truncated: showing the first " ++
      toString last ++ " of " ++ toString total ++ " bytes]"

/-- Arguments can be run when they are blank or a JSON object. -/
def argumentsAreUsable (json : SerdeJson) (arguments : String) : Bool :=
  Lines.isBlank arguments.toList || ((json.parse arguments).any Json.isObject)

/-- The result recorded for a call whose arguments are not a JSON object. -/
def malformedArgumentsResult (cutOff : Bool) : String :=
  "Error: the arguments of this call are not a valid JSON object, so it was not run." ++
    if cutOff then
      " The reply reached the output token limit before the call was complete. " ++
        "Make the call again with smaller arguments, splitting the work across several calls."
    else ""

/-- The error for a request that stays too long with every earlier turn left out. -/
def turnTooLong (providerMessage : String) : Error :=
  .contextOverflow ("the current turn alone doesn't fit in the model's context window; " ++
    "start a new session (provider said: " ++ providerMessage ++ ")")

/-- How a turn ends when the model replies without tool calls; nothing
means that the loop goes on. -/
def stopForReplyWithoutTools (finishReason : Option FinishReason) (hasText : Bool) :
    Option StopReason :=
  match finishReason with
  | some .paused => none
  | some .maxTokens => some .maxTokens
  | some .refusal => some .refusal
  | _ => if hasText then some .endTurn else some .noContent

/-- One streamed piece of a reply. -/
inductive LlmChunk where
  | text (text : String)
  | thinking (thought : String)
  deriving DecidableEq, Repr

def forwardChunk : LlmChunk → StreamEvent
  | .text text => .llmResponse text
  | .thinking thought => .thinkingContent thought

/-- A reply of the model is a choice whose message every client builds with the assistant role. -/
structure Reply extends Choice where
  fromAssistant : message.role = .assistant

/-- What is known about one call while its permission is settled. -/
inductive Decision where
  | malformed
  | pending
  | decided (decision : PermissionDecision)
  deriving DecidableEq, Repr

/-- How far a call has come once every decision is in. The result of a finished
call says whether it failed. -/
inductive Progress where
  | waiting
  | executing
  | finished (result : String) (isError : Bool)
  deriving DecidableEq, Repr

def Progress.outcome : Progress → Option (String × Bool)
  | .finished result isError => some (result, isError)
  | _ => none

/-- Where the loop stands. -/
inductive Phase where
  | iterating (iteration : Nat)
  | sending (iteration overflowRetries : Nat) (request : Request)
  | announced (iteration : Nat) (choice : Reply)
  | deciding (iteration : Nat) (choice : Reply) (decisions : List Decision)
  | executing (iteration : Nat) (choice : Reply) (decisions : List Decision)
      (progress : List Progress)
  | recorded (iteration : Nat)
  | returned (result : Except Error AgentResult)

/-- One call of `run_agent`: its arguments, its locals, and the events
passed to the callback so far. -/
structure AgentRun where
  config : AgentConfig
  promptBuilder : Option PromptBuilder
  messages : List Message
  fitter : ContextFitter
  reportedDropped : Nat
  finalResponse : String
  iterationsUsed : Nat
  contextUsage : Option Usage
  cancelled : Bool
  events : List StreamEvent
  phase : Phase

/-- What happens next. A failed tool gives the text of its error. -/
inductive AgentAction where
  | cancel
  | proceed
  | chunk (chunk : LlmChunk)
  | reply (reply : Except Error Reply)
  | decide (index : Nat) (decision : PermissionDecision)
  | execute (index : Nat)
  | complete (index : Nat) (result : Except String String)
  | observeCancel

namespace AgentRun

/-- The state in which a call of `run_agent` starts. -/
def start (config : AgentConfig) (promptBuilder : Option PromptBuilder) (toolsBytes : Nat)
    (messages : List Message) (cancelled : Bool) : AgentRun :=
  let system := promptBuilder.elim [] fun builder => builder.build []
  ⟨config, promptBuilder, messages, .new config.contextWindow system toolsBytes, 0, "", 0, none,
    cancelled, [], .iterating 0⟩

def emit (run : AgentRun) (events : List StreamEvent) : AgentRun :=
  { run with events := run.events ++ events }

def enter (run : AgentRun) (phase : Phase) : AgentRun := { run with phase }

/-- The loop ends with the closing event. -/
def finish (run : AgentRun) (stopReason : StopReason) : AgentRun :=
  (run.emit [.finished run.finalResponse run.iterationsUsed]).enter
    (.returned (.ok ⟨run.finalResponse, run.iterationsUsed, stopReason, run.contextUsage⟩))

/-- The request is built and sent, and a changed number of left out messages is reported. -/
def send (run : AgentRun) (iteration overflowRetries : Nat) : AgentRun :=
  let request := prepareRequest run.messages run.promptBuilder run.fitter
  let dropped := request.fitted.dropped
  if 0 < dropped ∧ dropped ≠ run.reportedDropped then
    ({ run with reportedDropped := dropped }.emit [.contextTrimmed dropped]).enter
      (.sending iteration overflowRetries request)
  else run.enter (.sending iteration overflowRetries request)

/-- The reply goes into the history before anything is done about it. -/
def append (run : AgentRun) (message : Message) : AgentRun :=
  { run with
    messages := run.messages ++ [message], events := run.events ++ [.messageAppended message] }

/-- The usage that a reply reports replaces the last one. -/
def reportUsage (run : AgentRun) : Option Usage → AgentRun
  | some usage => { run with contextUsage := some usage }.emit [.usage usage]
  | none => run

def announceCall (call : ToolUseBlock) : StreamEvent := .toolCall call.id call.name call.arguments

def announceResult (call : ToolUseBlock) (result : String) (isError : Bool) : StreamEvent :=
  .toolResult call.id call.name result isError

/-- A reply that arrived is recorded, and its calls are announced or
its finish reason is followed. -/
def accept (run : AgentRun) (iteration : Nat) (request : Request) (choice : Reply) : AgentRun :=
  let fitter := choice.usage.elim run.fitter (run.fitter.recordUsage request.bytes)
  let appended := ({ run with fitter }.append choice.message).reportUsage choice.usage
  if choice.message.toolCalls.isEmpty then
    let answered :=
      { appended with finalResponse := choice.message.text.getD appended.finalResponse }
    match stopForReplyWithoutTools choice.finishReason choice.message.text.isSome with
    | none => answered.enter (.iterating (iteration + 1))
    | some reason => answered.finish reason
  else (appended.emit (choice.message.toolCalls.map announceCall)).enter
    (.announced iteration choice)

/-- A request that was too long is sent again with more turns left
out, a bounded number of times. -/
def reject (run : AgentRun) (iteration overflowRetries : Nat) (request : Request) : Error → AgentRun
  | .contextOverflow providerMessage =>
      if overflowRetries = maxOverflowRetries then
        run.enter (.returned (.error (turnTooLong providerMessage)))
      else
        match run.fitter.recordOverflow request.fitted request.bytes with
        | none => run.enter (.returned (.error (turnTooLong providerMessage)))
        | some fitter => { run with fitter }.send iteration (overflowRetries + 1)
  | error => run.enter (.returned (.error error))

/-- Records the result of each call in the order of the calls; one
without an outcome was cancelled. -/
def record : AgentRun → List (ToolUseBlock × Option (String × Bool)) → AgentRun
  | run, [] => run
  | run, (call, some (result, isError)) :: rest =>
      (run.append (.toolResult call.id call.name result isError)).record rest
  | run, (call, none) :: rest =>
      ((run.emit [announceResult call cancelledToolResult true]).append
        (.toolResult call.id call.name cancelledToolResult true)).record rest

/-- The calls are left with the outcomes that they have. -/
def leaveCalls (run : AgentRun) (iteration : Nat) (choice : Reply)
    (outcomes : List (Option (String × Bool))) :
    AgentRun :=
  (run.record (choice.message.toolCalls.zip outcomes)).enter (.recorded iteration)

/-- A call that may not run has its result at once. -/
def refusal (choice : Reply) : Decision → Option String
  | .malformed => some (malformedArgumentsResult (choice.finishReason = some .maxTokens))
  | .decided decision => if decision.isAllowed then none else some "Permission denied by user."
  | .pending => none

/-- The result of a call is announced as it finishes. -/
def settle (run : AgentRun) (iteration : Nat) (choice : Reply) (decisions : List Decision)
    (progress : List Progress)
    (index : Nat) (call : ToolUseBlock) (result : String) (isError : Bool) : AgentRun :=
  (run.emit [announceResult call (capToolResult result) isError]).enter
    (.executing iteration choice decisions
      (progress.set index (.finished (capToolResult result) isError)))

/-- The steps that the loop takes by itself. -/
def proceed (json : SerdeJson) (run : AgentRun) : Option AgentRun :=
  match run.phase with
  | .iterating iteration =>
      if run.config.maxIterations ≤ iteration then some (run.finish .maxIterations)
      else if run.cancelled then some (run.finish .cancelled)
      else some (({ run with iterationsUsed := iteration + 1 }.emit
        [.iterationStart (iteration + 1)]).send iteration 0)
  | .announced iteration choice =>
      if run.cancelled then
        some (run.leaveCalls iteration choice (choice.message.toolCalls.map fun _ => none))
      else some (run.enter (.deciding iteration choice (choice.message.toolCalls.map fun call =>
        if argumentsAreUsable json call.arguments then .pending else .malformed)))
  | .deciding iteration choice decisions =>
      if Decision.pending ∈ decisions then none
      else
        some (run.enter
          (.executing iteration choice decisions (decisions.map fun _ => .waiting)))
  | .executing iteration choice _ progress =>
      if progress.all fun call => call.outcome.isSome then
        some (run.leaveCalls iteration choice (progress.map Progress.outcome))
      else none
  | .recorded iteration =>
      if run.cancelled then some (run.finish .cancelled)
      else some (run.enter (.iterating (iteration + 1)))
  | _ => none

/-- The cancel token is seen while the loop waits. -/
def observeCancel (run : AgentRun) : Option AgentRun :=
  if run.cancelled then
    match run.phase with
    | .sending _ _ _ => some (run.finish .cancelled)
    | .deciding iteration choice decisions =>
        some (run.leaveCalls iteration choice (decisions.map fun _ => none))
    | .executing iteration choice _ progress =>
        some (run.leaveCalls iteration choice (progress.map Progress.outcome))
    | _ => none
  else none

/-- The gate answers one call. -/
def decide (run : AgentRun) (index : Nat) (decision : PermissionDecision) : Option AgentRun :=
  match run.phase with
  | .deciding iteration choice decisions =>
      if decisions[index]? = some .pending then
        some (run.enter (.deciding iteration choice (decisions.set index (.decided decision))))
      else none
  | _ => none

/-- The executor is asked to run one call that the gate allowed. -/
def execute (run : AgentRun) (index : Nat) : Option AgentRun :=
  match run.phase with
  | .executing iteration choice decisions progress =>
      match decisions[index]?, progress[index]? with
      | some (.decided decision), some .waiting =>
          if decision.isAllowed then
            some (run.enter (.executing iteration choice decisions (progress.set index .executing)))
          else none
      | _, _ => none
  | _ => none

/-- One call finishes: a refused one without running, an executing one
with what its tool returned. -/
def complete (run : AgentRun) (index : Nat) (result : Except String String) : Option AgentRun :=
  match run.phase with
  | .executing iteration choice decisions progress =>
      match choice.message.toolCalls[index]?, decisions[index]?, progress[index]? with
      | some call, some decision, some .waiting =>
          (refusal choice decision).map fun text =>
            run.settle iteration choice decisions progress index call text true
      | some call, some _, some .executing =>
          match result with
          | .ok text => some (run.settle iteration choice decisions progress index call text false)
          | .error text =>
              some (run.settle iteration choice decisions progress index call
                ("Error: " ++ text) true)
      | _, _, _ => none
  | _ => none

/-- One step of the loop or of what it waits for. -/
def step (json : SerdeJson) (run : AgentRun) : AgentAction → Option AgentRun
  | .cancel => some { run with cancelled := true }
  | .proceed => run.proceed json
  | .chunk chunk =>
      match run.phase with
      | .sending _ _ _ => some (run.emit [forwardChunk chunk])
      | _ => none
  | .reply reply =>
      match run.phase, reply with
      | .sending iteration _ request, .ok choice => some (run.accept iteration request choice)
      | .sending iteration overflowRetries request, .error error =>
          some (run.reject iteration overflowRetries request error)
      | _, _ => none
  | .decide index decision => run.decide index decision
  | .execute index => run.execute index
  | .complete index result => run.complete index result
  | .observeCancel => run.observeCancel

end AgentRun

/-- All runs of `run_agent` on one list of messages. -/
def agentLoop (json : SerdeJson) (messages : List Message) : Machine AgentRun AgentAction where
  start run := ∃ config promptBuilder toolsBytes cancelled,
    run = .start config promptBuilder toolsBytes messages cancelled
  step := AgentRun.step json

end Openheim
