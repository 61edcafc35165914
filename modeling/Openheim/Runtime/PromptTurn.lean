import Openheim.Core.AgentHistory
import Openheim.Memory.WriteOutcomes

/-
This file follows the history writes of `AgentState::prompt` in `src/core/runtime/state.rs`. A turn
loads its conversation, records its start, runs the agent loop, whose events are handled one after
the other, and saves at the end. Each write has an outcome.
-/

namespace Openheim.Runtime
open Openheim.Memory

/-- What a conversation is stored with: the two readers of JSON texts, and its id. -/
structure PromptSettings where
  serde : Memory.SerdeJson
  json : Openheim.SerdeJson
  id : Uuid

/-- What a turn is started with. -/
structure PromptInput where
  content : List ContentBlock
  config : AgentConfig
  skills : List String
  cwd : String
  toolsBytes : Nat

def PromptInput.user (input : PromptInput) : Message := ⟨.user, input.content⟩

/-- The loaded conversation with the live settings of the session and the message of the user. -/
def PromptInput.begin (input : PromptInput) (conv : Conversation) : Conversation where
  meta_ := { conv.meta_ with
    cwd := some input.cwd
    model := some input.config.model
    provider := some input.config.providerName }.fillTitleFrom input.user
  messages := conv.messages ++ [input.user]

/-- Where a turn stands. Its run comes with the number of events that are handled. -/
inductive PromptStage where
  | idle
  | prepared (input : PromptInput) (builder : PromptBuilder) (conv : Conversation)
  | recording (input : PromptInput) (builder : PromptBuilder) (conv : Conversation)
  | running (input : PromptInput) (meta_ : ConversationMeta) (run : AgentRun) (handled : Nat)
  | saved (input : PromptInput) (meta_ : ConversationMeta) (run : AgentRun) (success : Bool)
  | failed (error : Error)

namespace PromptStage

/-- The messages of the conversation in memory. -/
def messages : PromptStage → Option (List Message)
  | .idle | .failed _ => none
  | .prepared _ _ conv | .recording _ _ conv => some conv.messages
  | .running _ _ run _ | .saved _ _ run _ => some run.messages

def input : PromptStage → Option PromptInput
  | .idle | .failed _ => none
  | .prepared input _ _ | .recording input _ _ | .running input _ _ _
  | .saved input _ _ _ => some input

/-- The messages that the loop has produced. -/
def produced : PromptStage → List Message
  | .running _ _ run _ | .saved _ _ run _ => run.events.filterMap appendedMessage
  | _ => []

/-- Whether the final save of the turn succeeded, when it was made. -/
def success : PromptStage → Option Bool
  | .saved _ _ _ success => some success
  | _ => none

end PromptStage

/-- The files of the conversation, whether a write of the turn failed, its
token, and where it stands. -/
structure PromptTurn where
  files : ConversationFiles
  writeFailed : Bool
  cancelled : Bool
  stage : PromptStage

/-- What happens next in a turn, with the outcomes of the writes. -/
inductive PromptAction where
  | prepare (now : Instant) (outcome : SaveOutcome) (input : PromptInput)
      (builder : Except Error PromptBuilder)
  | recordMeta (now : Instant) (written : Bool)
  | recordUser (now : Instant) (line : LineWrite) (metaWritten : Bool)
  | cancel
  | agent (action : AgentAction)
  | handle (now : Instant) (line : LineWrite) (metaWritten : Bool)
  | save (now : Instant) (outcome : SaveOutcome)

namespace PromptTurn
variable (settings : PromptSettings)

/-- The conversation is loaded or created, and the message of the user joins it in memory. -/
def prepare (s : PromptTurn) (now : Instant) (outcome : SaveOutcome) (input : PromptInput)
    (builder : Except Error PromptBuilder) : Option PromptTurn :=
  match s.stage with
  | .idle =>
      let (files, resolved) :=
        resolveConversationWith settings.serde now outcome s.files settings.id
        (some input.config.model) (some input.config.providerName) input.skills
      match resolved, builder with
      | .ok conv, .ok builder =>
          some { s with files, stage := .prepared input builder (input.begin conv) }
      | .ok _, .error error => some { s with files, stage := .failed error }
      | .error error, _ => some { s with files, stage := .failed error }
  | _ => none

/-- The agent loop starts on the conversation in memory. -/
def launch (s : PromptTurn) (input : PromptInput) (builder : PromptBuilder) (conv : Conversation) :
    PromptTurn :=
  { s with
    stage := .running input conv.meta_
      (.start input.config (some builder) input.toolsBytes conv.messages s.cancelled) 0 }

/-- The metadata is recorded; without it the message of the user is not appended. -/
def recordMeta (s : PromptTurn) (now : Instant) (written : Bool) : Option PromptTurn :=
  match s.stage with
  | .prepared input builder conv =>
      if written then
        some { s with
          files := saveMeta now s.files conv.meta_, stage := .recording input builder conv }
      else some ({ s with writeFailed := true }.launch input builder conv)
  | _ => none

/-- The message of the user is appended before the loop starts. -/
def recordUser (s : PromptTurn) (now : Instant) (line : LineWrite) (metaWritten : Bool) :
    Option PromptTurn :=
  match s.stage with
  | .recording input builder conv =>
      let (files, appended) :=
        appendMessageWith settings.serde now line metaWritten s.files input.user
      some ({ s with files, writeFailed := !appended }.launch input builder conv)
  | _ => none

/-- The token of the turn fires. -/
def cancel (s : PromptTurn) : PromptTurn :=
  match s.stage with
  | .running input meta_ run handled =>
      { s with cancelled := true, stage := .running input meta_ { run with
        cancelled := true } handled }
  | _ => { s with cancelled := true }

/-- The loop goes on when all of its events are handled. -/
def stepAgent (s : PromptTurn) (action : AgentAction) : Option PromptTurn :=
  match s.stage with
  | .running input meta_ run handled =>
      if handled = run.events.length then
        (run.step settings.json action).map fun run =>
          { s with stage := .running input meta_ run handled }
      else none
  | _ => none

/-- The next event is handled: a message is appended unless a write failed before. -/
def handle (s : PromptTurn) (now : Instant) (line : LineWrite) (metaWritten : Bool) :
    Option PromptTurn :=
  match s.stage with
  | .running input meta_ run handled =>
      run.events[handled]?.map fun event =>
        match appendedMessage event, s.writeFailed with
        | some message, false =>
            let (files, appended) :=
              appendMessageWith settings.serde now line metaWritten s.files message
            { s with
              files, writeFailed := !appended, stage := .running input meta_ run (handled + 1) }
        | _, _ => { s with stage := .running input meta_ run (handled + 1) }
  | _ => none

/-- A turn with a successful call has a new snapshot of its usage. -/
def finalMeta (meta_ : ConversationMeta) : Except Error AgentResult → ConversationMeta
  | .ok result => { meta_ with contextUsage := result.contextUsage.or meta_.contextUsage }
  | .error _ => meta_

/-- At the end only the metadata is written, or the whole conversation when a write failed. -/
def save (s : PromptTurn) (now : Instant) (outcome : SaveOutcome) : Option PromptTurn :=
  match s.stage with
  | .running input meta_ run handled =>
      match run.phase with
      | .returned result =>
          if handled = run.events.length then
            let meta_ := finalMeta meta_ result
            if s.writeFailed then
              let (files, saved) :=
                saveConversationWith settings.serde now outcome s.files ⟨meta_, run.messages⟩
              some { s with files, stage := .saved input meta_ run saved.isOk }
            else
              some { s with
                files := saveMetaWith now outcome.metaWritten s.files meta_
                stage := .saved input meta_ run outcome.metaWritten }
          else none
      | _ => none
  | _ => none

/-- One step of a turn. -/
def step (s : PromptTurn) : PromptAction → Option PromptTurn
  | .prepare now outcome input builder => s.prepare settings now outcome input builder
  | .recordMeta now written => s.recordMeta now written
  | .recordUser now line metaWritten => s.recordUser settings now line metaWritten
  | .cancel => some s.cancel
  | .agent action => s.stepAgent settings action
  | .handle now line metaWritten => s.handle settings now line metaWritten
  | .save now outcome => s.save settings now outcome

/-- The message that the next append of the turn writes. -/
def nextMessage (s : PromptTurn) : Option Message :=
  match s.stage with
  | .recording input _ _ => some input.user
  | .running _ _ run handled => run.events[handled]?.bind appendedMessage
  | _ => none

end PromptTurn

/-- One turn, which starts on a log that is not torn. -/
def promptMachine (settings : PromptSettings) : Machine PromptTurn PromptAction where
  start s := s.stage = .idle ∧ s.writeFailed = false ∧ ∃ prior,
    WholeLog settings.serde s.files prior
  step := PromptTurn.step settings

/-- A line that is torn is torn between two characters. -/
def tornAtBoundary (settings : PromptSettings) (s : PromptTurn) : PromptAction → Prop
  | .recordUser _ line _ | .handle _ line _ => ∀ message ∈ s.nextMessage,
      line.AtBoundary settings.serde message
  | _ => True

end Openheim.Runtime
