import Mathlib.Data.List.Basic

namespace Openheim

/-- The chat role says what a message is. -/
inductive Role where
  | system
  | user
  | assistant
  | tool
  deriving DecidableEq, Repr

/-- One piece of message content. -/
inductive ContentBlock where
  | text (text : String)
  | thinking (thinking : String) (signature : Option String)
  | redactedThinking (data : String)
  | image (data mimeType : String)
  | toolUse (id name arguments : String) (signature : Option String)
  | toolResult (toolCallId toolName content : String) (isError : Bool)
  deriving DecidableEq, Repr

/-- A `ToolUse` block extracted from a message. -/
structure ToolUseBlock where
  id : String
  name : String
  arguments : String
  deriving DecidableEq, Repr

/-- The `ToolResult` block of a tool message. -/
structure ToolResultBlock where
  toolCallId : String
  toolName : String
  content : String
  isError : Bool
  deriving DecidableEq, Repr

structure Message where
  role : Role
  content : List ContentBlock
  deriving DecidableEq, Repr

def Message.ofUser (text : String) : Message := ⟨.user, [.text text]⟩

def Message.ofAssistant (text : String) : Message := ⟨.assistant, [.text text]⟩

/-- A tool-result message is `role: Tool` with a single `ToolResult` block. -/
def Message.toolResult (toolCallId toolName content : String) (isError : Bool) : Message :=
  ⟨.tool, [.toolResult toolCallId toolName content isError]⟩

def ContentBlock.asText : ContentBlock → Option String
  | .text content => some content
  | _ => none

def ContentBlock.asToolUse : ContentBlock → Option ToolUseBlock
  | .toolUse id name arguments _ => some ⟨id, name, arguments⟩
  | _ => none

def ContentBlock.asToolResult : ContentBlock → Option ToolResultBlock
  | .toolResult toolCallId toolName content isError => some ⟨toolCallId, toolName, content, isError⟩
  | _ => none

/-- The concatenation of all text blocks, or nothing if it is empty. -/
def Message.text (message : Message) : Option String :=
  let joined := String.join (message.content.filterMap ContentBlock.asText)
  if joined.isEmpty then none else some joined

/-- All `ToolUse` blocks of the message, in order. -/
def Message.toolCalls (message : Message) : List ToolUseBlock :=
  message.content.filterMap ContentBlock.asToolUse

/-- The first `ToolResult` block, whatever the role of the message. -/
def Message.toolResultBlock (message : Message) : Option ToolResultBlock :=
  message.content.findSome? ContentBlock.asToolResult

@[simp] theorem Message.toolResult_toolResultBlock (toolCallId toolName content : String)
    (isError : Bool) :
    (Message.toolResult toolCallId toolName content isError).toolResultBlock =
      some ⟨toolCallId, toolName, content, isError⟩ := rfl

/-- One piece of a stored message that a front end shows. -/
inductive TranscriptEntry where
  | userText (text : String)
  | userImage (data mimeType : String)
  | thinking (thinking : String)
  | assistantText (text : String)
  | toolCall (id name arguments : String)
  | toolResult (toolCallId toolName content : String) (isError : Bool)
  deriving DecidableEq, Repr

/-- A block is shown only in the role that it belongs to, and empty text of the assistant is not. -/
def TranscriptEntry.of : Role → ContentBlock → Option TranscriptEntry
  | .user, .text text => some (.userText text)
  | .user, .image data mimeType => some (.userImage data mimeType)
  | .assistant, .thinking thought _ => if thought.isEmpty then none else some (.thinking thought)
  | .assistant, .text text => if text.isEmpty then none else some (.assistantText text)
  | .assistant, .toolUse id name arguments _ => some (.toolCall id name arguments)
  | .tool, .toolResult toolCallId toolName content isError =>
      some (.toolResult toolCallId toolName content isError)
  | _, _ => none

/-- What a front end shows of a stored message, in stored order. -/
def Message.transcript (message : Message) : List TranscriptEntry :=
  message.content.filterMap (TranscriptEntry.of message.role)

/-- Token usage for a single call. -/
structure Usage where
  inputTokens : Nat
  outputTokens : Nat
  cacheCreationTokens : Nat
  cacheReadTokens : Nat
  deriving DecidableEq, Repr

/-- Why the provider stopped generating. -/
inductive FinishReason where
  | stop
  | toolCalls
  | maxTokens
  | refusal
  | paused
  | other (reason : String)
  deriving DecidableEq, Repr

/-- A completion choice returned by the provider. -/
structure Choice where
  message : Message
  finishReason : Option FinishReason
  usage : Option Usage
  deriving DecidableEq, Repr

/-- Why an agent run stopped. -/
inductive StopReason where
  | endTurn
  | maxIterations
  | maxTokens
  | refusal
  | cancelled
  | noContent
  deriving DecidableEq, Repr

/-- What is said about a turn that did not end normally. -/
def StopReason.notice : StopReason → Option String
  | .endTurn | .cancelled => none
  | .maxIterations => some "stopped at the iteration limit (max_iterations) before finishing"
  | .maxTokens => some "the response was cut off at the output token limit (max_tokens)"
  | .refusal => some "the model declined to respond"
  | .noContent => some "the model returned an empty response"

structure AgentResult where
  finalResponse : String
  iterationsUsed : Nat
  stopReason : StopReason
  contextUsage : Option Usage
  deriving DecidableEq, Repr

/-- An event from a running agent turn. -/
inductive StreamEvent where
  | iterationStart (iteration : Nat)
  | toolCall (id toolName arguments : String)
  | toolResult (id toolName result : String) (isError : Bool)
  | llmResponse (content : String)
  | thinkingContent (content : String)
  | usage (usage : Usage)
  | contextTrimmed (dropped : Nat)
  | finished (finalResponse : String) (iterations : Nat)
  | messageAppended (message : Message)
  deriving DecidableEq, Repr

end Openheim
