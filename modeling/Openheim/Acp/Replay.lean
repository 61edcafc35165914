import Openheim.Acp.Util
import Openheim.Core.AgentHistory
import Openheim.Library.Chunks

/-
This file compares what a live turn shows through its session updates with what the replay of its
messages shows.
-/

namespace Openheim.Acp
open Openheim.Tools Chunks

inductive ChunkKind where
  | text
  | thinking
  deriving DecidableEq, Repr

/-- What the client shows of a call or of a result. A call is shown the same while
it is pending or in progress. -/
inductive ShownItem where
  | toolCall (id title : String) (kind : ToolKind) (rawInput : Option Json)
  | toolResult (id : String) (status : ToolCallStatus) (rawOutput : Json)

def ShownItem.isResult : ShownItem → Bool
  | .toolCall _ _ _ _ => false
  | .toolResult _ _ _ => true

/-- What the assistant shows through one update. -/
def SessionUpdate.shown : SessionUpdate → Option (Piece ChunkKind ShownItem)
  | .userMessageChunk _ | .agentMessageChunk (.image _ _) => none
  | .agentMessageChunk (.text text thinking) =>
      some (.chunk (if thinking then .thinking else .text) text)
  | .toolCall call => some (.item (.toolCall call.id call.title call.kind call.rawInput))
  | .toolCallUpdate update => some (.item (.toolResult update.id update.status update.rawOutput))

/-- What the client shows once adjacent chunks are merged. -/
def view (updates : List SessionUpdate) : List (Piece ChunkKind ShownItem) :=
  merge (updates.filterMap SessionUpdate.shown)

/-- Two lists of updates show the same, except that neighbouring results may change places. -/
def ShowSame (live replay : List SessionUpdate) : Prop :=
  SameUpTo (IsFree ShownItem.isResult) (view live) (view replay)

/-- The text and the thinking of a reply are streamed. -/
def streamedBlock : ContentBlock → Option (Piece ChunkKind ShownItem)
  | .text text => some (.chunk .text text)
  | .thinking thinking _ => some (.chunk .thinking thinking)
  | _ => none

def streamedChunk : LlmChunk → Piece ChunkKind ShownItem
  | .text text => .chunk .text text
  | .thinking thought => .chunk .thinking thought

/-- The replies that the events record, each with the chunks that were streamed for it, and the
chunks that wait for their reply. -/
def splitStream : List LlmChunk → List StreamEvent → List (List LlmChunk × Message) × List LlmChunk
  | chunks, [] => ([], chunks)
  | chunks, .llmResponse content :: rest => splitStream (chunks ++ [.text content]) rest
  | chunks, .thinkingContent content :: rest => splitStream (chunks ++ [.thinking content]) rest
  | chunks, .messageAppended message :: rest =>
      if message.role = .assistant then
        ((chunks, message) :: (splitStream [] rest).1, (splitStream [] rest).2)
      else splitStream chunks rest
  | chunks, _ :: rest => splitStream chunks rest

def streamedReplies (events : List StreamEvent) : List (List LlmChunk × Message) :=
  (splitStream [] events).1

def pendingChunks (events : List StreamEvent) : List LlmChunk := (splitStream [] events).2

/-- The chunks concatenate to the blocks of the reply, in their order. -/
def ChunksGive (chunks : List LlmChunk) (reply : Message) : Prop :=
  merge (chunks.map streamedChunk) = merge (reply.content.filterMap streamedBlock)

/-- A block that shows text or thinking. -/
def showsText : ContentBlock → Bool
  | .text text => !text.isEmpty
  | .thinking thinking _ => !thinking.isEmpty
  | _ => false

/-- No text and no thinking stand behind a tool call. -/
def textBeforeCalls : List ContentBlock → Bool
  | [] => true
  | .toolUse _ _ _ _ :: rest => rest.all fun block => !showsText block
  | _ :: rest => textBeforeCalls rest

/-- The token is not seen while a reply is streamed, that is between its first chunk and its end. -/
def notMidStream (run : AgentRun) (action : AgentAction) : Prop :=
  action = .observeCancel → AgentRun.isStreaming run.phase → pendingChunks run.events = []

end Openheim.Acp
