import Openheim.Core.Json
import Openheim.Tools.Executor

/-
This file follows the session updates of `src/acp/util.rs`: those that a live turn sends for its
events, and those that replay a saved history.
-/

namespace Openheim.Acp
open Openheim.Tools

inductive ToolKind where
  | read
  | edit
  | delete
  | move
  | search
  | execute
  | think
  | fetch
  | switchMode
  | other
  deriving DecidableEq, Repr

inductive ToolCallStatus where
  | pending
  | inProgress
  | completed
  | failed
  deriving DecidableEq, Repr

/-- The content of a chunk. A text that is tagged as thinking carries `_meta.kind`. -/
inductive AcpContentBlock where
  | text (text : String) (thinking : Bool)
  | image (data mimeType : String)
  deriving DecidableEq, Repr

structure AcpToolCall where
  id : String
  title : String
  kind : ToolKind
  status : ToolCallStatus
  rawInput : Option Json

structure ToolCallUpdate where
  id : String
  status : ToolCallStatus
  rawOutput : Json

/-- What the client is told about a session. -/
inductive SessionUpdate where
  | userMessageChunk (content : AcpContentBlock)
  | agentMessageChunk (content : AcpContentBlock)
  | toolCall (call : AcpToolCall)
  | toolCallUpdate (update : ToolCallUpdate)

/-- ACP has no thinking content, so that reasoning is a text with a tag. -/
def thinkingChunk (content : String) : AcpContentBlock := .text content true

def acpToolKind : ToolKindHint → ToolKind
  | .read => .read
  | .edit => .edit
  | .delete => .delete
  | .move => .move
  | .search => .search
  | .execute => .execute
  | .think => .think
  | .fetch => .fetch
  | .switchMode => .switchMode
  | .other => .other

/-- The kind that the tool of a name declares; an unknown one is `other`. -/
def toolKindFor (toolName : String) (executor : ToolExecutor) : ToolKind :=
  acpToolKind (executor.capabilities toolName).kind

section Updates
variable (json : SerdeJson) (executor : ToolExecutor)

/-- The arguments of a call as JSON; malformed ones are shown as no input. -/
def rawInput (arguments : String) : Option Json := json.parse arguments

def resultStatus (isError : Bool) : ToolCallStatus := if isError then .failed else .completed

/-- The update that shows one piece of a saved message. -/
def replayEntry : TranscriptEntry → SessionUpdate
  | .userText text => .userMessageChunk (.text text false)
  | .userImage data mimeType => .userMessageChunk (.image data mimeType)
  | .thinking thinking => .agentMessageChunk (thinkingChunk thinking)
  | .assistantText text => .agentMessageChunk (.text text false)
  | .toolCall id name arguments =>
      .toolCall ⟨id, name, toolKindFor name executor, .inProgress, rawInput json arguments⟩
  | .toolResult toolCallId _ content isError =>
      .toolCallUpdate ⟨toolCallId, resultStatus isError, .string content⟩

/-- Replays saved history as session updates. -/
def replayHistoryMessages (messages : List Message) : List SessionUpdate :=
  (messages.flatMap Message.transcript).map (replayEntry json executor)

/-- The update of a live turn for one of its events, if there is any. -/
def streamEventToSessionUpdate : StreamEvent → Option SessionUpdate
  | .llmResponse content => some (.agentMessageChunk (.text content false))
  | .thinkingContent content => some (.agentMessageChunk (thinkingChunk content))
  | .toolCall id toolName arguments =>
      some (.toolCall ⟨id, toolName, toolKindFor toolName executor, .pending,
        rawInput json arguments⟩)
  | .toolResult id _ result isError =>
      some (.toolCallUpdate ⟨id, resultStatus isError, .string result⟩)
  | .iterationStart _ | .usage _ | .contextTrimmed _ | .finished _ _ | .messageAppended _ => none

/-- The updates that a live turn sends. -/
def acpUpdates (events : List StreamEvent) : List SessionUpdate :=
  events.filterMap (streamEventToSessionUpdate json executor)

end Updates

end Openheim.Acp
