import Openheim.Core.Json
import Openheim.Core.Llm.SseChunking
import Openheim.Library.Lines
import Openheim.Library.SortedMap

/-
This file follows the reading of a streamed reply in `src/core/llm/anthropic.rs`.
-/

namespace Openheim.Llm

/-- A block as `content_block_start` opens it. A redacted block arrives whole, and a block of any
other type is not kept. -/
inductive AnthropicStreamContentBlock where
  | text
  | thinking
  | redactedThinking (data : String)
  | toolUse (id name : String)
  | other
  deriving DecidableEq, Repr

inductive AnthropicStreamDelta where
  | text (text : String)
  | thinking (thinking : String)
  | signature (signature : String)
  | inputJson (partialJson : String)
  | other
  deriving DecidableEq, Repr

structure AnthropicStartUsage where
  inputTokens : Nat
  outputTokens : Nat
  cacheCreationInputTokens : Nat
  cacheReadInputTokens : Nat
  deriving DecidableEq, Repr

/-- One event of the stream. An event of a type that the client does not handle is `other`. -/
inductive AnthropicStreamEvent where
  | messageStart (usage : AnthropicStartUsage)
  | contentBlockStart (index : Nat) (contentBlock : AnthropicStreamContentBlock)
  | contentBlockDelta (index : Nat) (delta : AnthropicStreamDelta)
  | messageDelta (stopReason : Option String) (outputTokens : Option Nat)
  | messageStop
  | error (message : Option String)
  | other
  deriving DecidableEq, Repr

/-- One content block of a streamed reply, filled in by its deltas. -/
inductive StreamBlock where
  | text (text : String)
  | thinking (thinking signature : String)
  | redactedThinking (data : String)
  | toolUse (id name json : String)
  | other
  deriving DecidableEq, Repr

namespace StreamBlock

def opened : AnthropicStreamContentBlock → StreamBlock
  | .text => .text ""
  | .thinking => .thinking "" ""
  | .redactedThinking data => .redactedThinking data
  | .toolUse id name => .toolUse id name ""
  | .other => .other

/-- The pieces that a delta of a block sends. -/
def sent : StreamBlock → AnthropicStreamDelta → List LlmChunk
  | .text _, .text more => [.text more]
  | .thinking _ _, .thinking more => [.thinking more]
  | _, _ => []

/-- A delta that does not fit the type of the block is ignored. -/
def apply : StreamBlock → AnthropicStreamDelta → StreamBlock
  | .text written, .text more => .text (written ++ more)
  | .thinking thought signature, .thinking more => .thinking (thought ++ more) signature
  | .thinking thought signature, .signature more => .thinking thought (signature ++ more)
  | .toolUse id name json, .inputJson partialJson => .toolUse id name (json ++ partialJson)
  | block, _ => block

/-- The finished block, if it is worth keeping. The signature of thinking alone still has to be
replayed, and a call without arguments gets an empty object. -/
def intoContent : StreamBlock → Option ContentBlock
  | .text written => if written.isEmpty then none else some (.text written)
  | .thinking thought signature =>
      if thought.isEmpty ∧ signature.isEmpty then none
      else some (.thinking thought (if signature.isEmpty then none else some signature))
  | .redactedThinking data => some (.redactedThinking data)
  | .toolUse id name json =>
      some (.toolUse id name (if Lines.isBlank json.toList then "{}" else json) none)
  | .other => none

end StreamBlock

namespace Anthropic

def mapStopReason : Option String → Option FinishReason
  | none => none
  | some reason =>
      some <|
        if reason = "tool_use" then .toolCalls
        else if reason = "end_turn" then .stop
        else if reason = "max_tokens" ∨ reason = "model_context_window_exceeded" then .maxTokens
        else if reason = "refusal" then .refusal
        else if reason = "pause_turn" then .paused
        else .other reason

end Anthropic

/-- One streamed reply, assembled event by event. The blocks stand in the order of their indexes. -/
structure AnthropicStream where
  blocks : List (Nat × StreamBlock)
  ordered : SortedMap.Ordered blocks
  stopReason : Option String
  usage : Usage
  complete : Bool

namespace AnthropicStream

def new : AnthropicStream := ⟨[], List.Pairwise.nil, none, ⟨0, 0, 0, 0⟩, false⟩

/-- What an event makes of the reply. -/
def take (stream : AnthropicStream) : AnthropicStreamEvent → AnthropicStream
  | .messageStart usage =>
      { stream with
        usage :=
          ⟨usage.inputTokens, usage.outputTokens, usage.cacheCreationInputTokens,
              usage.cacheReadInputTokens⟩ }
  | .contentBlockStart index contentBlock =>
      { stream with
        blocks := SortedMap.insert index (StreamBlock.opened contentBlock) stream.blocks
        ordered := stream.ordered.insert index _ }
  | .contentBlockDelta index delta =>
      { stream with
        blocks := SortedMap.modify index (fun block => block.apply delta) stream.blocks
        ordered := stream.ordered.modify index _ }
  | .messageDelta stopReason outputTokens =>
      { stream with
        stopReason := stopReason.orElse fun _ => stream.stopReason
        usage := { stream.usage with outputTokens := outputTokens.getD stream.usage.outputTokens } }
  | .messageStop => { stream with complete := true }
  | .error _ | .other => stream

/-- The pieces of the reply that an event sends on. -/
def sent (stream : AnthropicStream) : AnthropicStreamEvent → List LlmChunk
  | .contentBlockDelta index delta => (stream.blocks.lookup index).elim [] fun block =>
      block.sent delta
  | _ => []

def finish (stream : AnthropicStream) : Except Error Choice :=
  if stream.complete then
    .ok {
      message := ⟨.assistant, (stream.blocks.map Prod.snd).filterMap StreamBlock.intoContent⟩
      finishReason := Anthropic.mapStopReason stream.stopReason
      usage := some stream.usage }
  else .error (.incompleteResponse "Anthropic stream ended before message_stop")

section Payload
variable (parsePayload : String → Option AnthropicStreamEvent)

/-- The event of a payload. The end marker, an empty payload and one that the JSON
library does not parse have none. -/
def event (data : String) : Option AnthropicStreamEvent :=
  if data = "[DONE]" ∨ data = "" then none else parsePayload data

def payload (stream : AnthropicStream) (data : String) :
    List LlmChunk × Except Error (Bool × AnthropicStream) :=
  match event parsePayload data with
  | none => ([], .ok (false, stream))
  | some (.error message) =>
      ([], .error
        (.apiError ("Anthropic streaming error: " ++ message.getD "unknown streaming error")))
  | some .messageStop => ([], .ok (true, stream.take .messageStop))
  | some event => (stream.sent event, .ok (false, stream.take event))

def parser : StreamParser AnthropicStream := ⟨payload parsePayload, finish⟩

end Payload

end AnthropicStream

end Openheim.Llm
