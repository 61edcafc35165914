import Openheim.Core.Models
import Openheim.Library.Exchange

/-
This file follows the conversion of messages in `src/core/llm/openai.rs`.
-/

namespace Openheim.Llm

inductive OpenAiContentPart where
  | text (text : String)
  | imageUrl (url : String)
  deriving DecidableEq, Repr

/-- The content of a message is plain text unless there is an image. -/
inductive OpenAiContent where
  | text (text : String)
  | parts (parts : List OpenAiContentPart)
  deriving DecidableEq, Repr

structure OpenAiRequestToolCall where
  id : String
  callType : String
  name : String
  arguments : String
  deriving DecidableEq, Repr

/-- A thinking block as it is streamed and sent back. A block of a type that the
client does not know is `other`. -/
inductive OpenAiThinkingBlock where
  | thinking (thinking : String) (signature : Option String)
  | redactedThinking (data : String)
  | other
  deriving DecidableEq, Repr

structure OpenAiMessage where
  role : String
  content : Option OpenAiContent
  toolCalls : Option (List OpenAiRequestToolCall)
  toolCallId : Option String
  thinkingBlocks : Option (List OpenAiThinkingBlock)
  deriving DecidableEq, Repr

namespace OpenAi

def userPart : ContentBlock → Option OpenAiContentPart
  | .text text => some (.text text)
  | .image data mimeType => some (.imageUrl ("data:" ++ mimeType ++ ";base64," ++ data))
  | _ => none

def OpenAiContentPart.plain : OpenAiContentPart → String
  | .text text => text
  | .imageUrl _ => ""

def OpenAiContentPart.isImage : OpenAiContentPart → Bool
  | .imageUrl _ => true
  | .text _ => false

def userContent (content : List ContentBlock) : OpenAiContent :=
  let parts := content.filterMap userPart
  if parts.any OpenAiContentPart.isImage then .parts parts
  else .text (String.join (parts.map OpenAiContentPart.plain))

def thinkingBlock : ContentBlock → Option OpenAiThinkingBlock
  | .thinking thinking (some signature) => some (.thinking thinking (some signature))
  | .redactedThinking data => some (.redactedThinking data)
  | _ => none

/-- The signed and redacted thinking of a message, in order. -/
def signedThinking (message : Message) : Option (List OpenAiThinkingBlock) :=
  let blocks := message.content.filterMap thinkingBlock
  if blocks.isEmpty then none else some blocks

def requestCall (call : ToolUseBlock) : OpenAiRequestToolCall :=
  ⟨call.id, "function", call.name, call.arguments⟩

/-- One message in the wire format; an assistant message with neither text nor calls is left out. -/
def convertMessage (replays : Bool) (message : Message) : Option OpenAiMessage :=
  match message.role with
  | .system => message.text.map fun text => ⟨"system", some (.text text), none, none, none⟩
  | .user => some ⟨"user", some (userContent message.content), none, none, none⟩
  | .assistant =>
      if message.text.isNone ∧ message.toolCalls.isEmpty then none
      else some ⟨"assistant", message.text.map .text,
        if message.toolCalls.isEmpty then none else some (message.toolCalls.map requestCall), none,
        if replays then signedThinking message else none⟩
  | .tool => message.toolResultBlock.map fun result =>
      ⟨"tool", some (.text result.content), none, some result.toolCallId, none⟩

/-- Thinking is replayed from the message after the last one of the user on. -/
def toolLoopStart (messages : List Message) (replayThinking : Bool) : Nat :=
  if replayThinking then messages.length - (messages.reverse.findIdx fun message =>
    message.role = .user)
  else messages.length

/-- Converts the messages from an index on. -/
def convertFrom (start : Nat) : Nat → List Message → List OpenAiMessage
  | _, [] => []
  | index, message :: rest => (convertMessage (start ≤ index) message).toList ++
      convertFrom start (index + 1) rest

def convertMessages (messages : List Message) (replayThinking : Bool) : List OpenAiMessage :=
  convertFrom (toolLoopStart messages replayThinking) 0 messages

/-- The calls and the results of a message. -/
def exchange : Exchange OpenAiMessage String where
  calls message := (message.toolCalls.getD []).map OpenAiRequestToolCall.id
  results message := message.toolCallId.toList

def isResult (message : OpenAiMessage) : Bool := message.role = "tool"

end OpenAi

end Openheim.Llm
