import Openheim.Core.Llm.OpenAi
import Openheim.Core.Llm.Sse
import Openheim.Core.Llm.Turns
import Openheim.Library.Lines

/-
This file follows the reading of a streamed reply in `src/core/llm/openai.rs`.
-/

namespace Openheim.Llm

structure OpenAiUsage where
  promptTokens : Nat
  completionTokens : Nat
  cachedTokens : Option Nat
  deriving DecidableEq, Repr

/-- The prompt tokens of the provider include the cached ones. -/
def OpenAiUsage.usage (usage : OpenAiUsage) : Usage :=
  let cached := usage.cachedTokens.getD 0
  ⟨usage.promptTokens - cached, usage.completionTokens, 0, cached⟩

structure OpenAiStreamFunctionDelta where
  name : Option String
  arguments : Option String
  deriving DecidableEq, Repr

/-- A piece of the call with an index; the server may send any index that a word holds. -/
structure OpenAiStreamToolCallDelta where
  index : UInt64
  id : Option String
  function : Option OpenAiStreamFunctionDelta
  deriving DecidableEq

structure OpenAiStreamDelta where
  content : Option String := none
  reasoningContent : Option String := none
  thinkingBlocks : Option Json := none
  providerSpecificFields : Option Json := none
  toolCalls : Option (List OpenAiStreamToolCallDelta) := none

structure OpenAiStreamChoice where
  delta : OpenAiStreamDelta
  finishReason : Option String

structure OpenAiStreamChunk where
  choices : List OpenAiStreamChoice
  usage : Option OpenAiUsage

/-- The pieces of calls that a chunk carries. -/
def OpenAiStreamChunk.toolCalls (chunk : OpenAiStreamChunk) : List OpenAiStreamToolCallDelta :=
  chunk.choices.head?.elim [] fun choice => choice.delta.toolCalls.getD []

/-- What the JSON library reads of a stream: a payload, and an entry of `thinking_blocks`. -/
structure OpenAiReader where
  chunk : String → Option OpenAiStreamChunk
  thinkingBlock : Json → Option OpenAiThinkingBlock

/-- How many calls a vector can be grown to. A call takes 72 bytes, and no vector
takes more than `isize::MAX`. -/
structure VecLimit where
  calls : Nat
  bounded : calls * 72 ≤ 0x7FFFFFFFFFFFFFFF

/-- One streamed tool call, assembled from its deltas. -/
structure ToolCallAcc where
  id : String
  name : String
  args : String
  deriving DecidableEq, Repr

namespace ToolCallAcc

def default : ToolCallAcc := ⟨"", "", ""⟩

def apply (acc : ToolCallAcc) (delta : OpenAiStreamToolCallDelta) : ToolCallAcc where
  id := delta.id.getD acc.id
  name := acc.name ++ (delta.function.bind OpenAiStreamFunctionDelta.name).getD ""
  args := acc.args ++ (delta.function.bind OpenAiStreamFunctionDelta.arguments).getD ""

/-- The finished call, if a name ever arrived. -/
def intoToolUse (uuid : Uuid) (acc : ToolCallAcc) : Option ContentBlock :=
  if acc.name.isEmpty then none
  else
    some (.toolUse (if acc.id.isEmpty then newToolCallId uuid else acc.id) acc.name
      (if Lines.isBlank acc.args.toList then "{}" else acc.args) none)

end ToolCallAcc

namespace OpenAi

def mapFinishReason (reason : String) : FinishReason :=
  if reason = "stop" then .stop
  else if reason = "tool_calls" then .toolCalls
  else if reason = "length" then .maxTokens
  else if reason = "content_filter" then .refusal
  else .other reason

/-- Signed and redacted thinking, then the reasoning that no signature closed,
then the text and the calls. -/
def assembleContent (thinking : List ContentBlock) (reasoning text : String)
    (toolUses : List ContentBlock) :
    List ContentBlock :=
  thinking ++ (if reasoning.isEmpty then [] else [.thinking reasoning none]) ++
    (if text.isEmpty then [] else [.text text]) ++ toolUses

end OpenAi

namespace OpenAiStreamDelta

/-- The blocks of `thinking_blocks`, or else of the copy in `provider_specific_fields`. -/
def takeThinkingBlocks (reader : OpenAiReader) (delta : OpenAiStreamDelta) :
    List OpenAiThinkingBlock :=
  match delta.thinkingBlocks.orElse fun _ =>
      delta.providerSpecificFields.bind (Json.get "thinking_blocks") with
  | some (.array entries) => entries.filterMap reader.thinkingBlock
  | _ => []

end OpenAiStreamDelta

/-- One streamed reply, assembled chunk by chunk. The reasoning is what no signature closed yet. -/
structure OpenAiStream where
  text : String
  thinking : List ContentBlock
  reasoning : String
  toolCalls : List ToolCallAcc
  finishReason : Option FinishReason
  usage : Option Usage
  isDone : Bool
  deriving DecidableEq, Repr

namespace OpenAiStream

def new : OpenAiStream := ⟨"", [], "", [], none, none, false⟩

/-- A signature closes a block. Its text is that of the entry, or else the
reasoning since the last signature. -/
def thinkingBlock (stream : OpenAiStream) : OpenAiThinkingBlock → OpenAiStream
  | .thinking thinking (some signature) =>
      if signature.isEmpty then stream
      else
        { stream with
          reasoning := ""
          thinking := stream.thinking ++
            [.thinking (if thinking.isEmpty then stream.reasoning else thinking) (some signature)] }
  | .redactedThinking data =>
      if data.isEmpty then stream
      else { stream with thinking := stream.thinking ++ [.redactedThinking data] }
  | _ => stream

/-- The vector of calls is grown to hold an index. It panics where this is not possible: the length
overflows, in a release build the vector is cut to nothing before it is indexed, or there is no room
for so many calls. -/
def growCalls (limit : VecLimit) (index : Nat) (calls : List ToolCallAcc) :
    Option (List ToolCallAcc) :=
  if index < calls.length then some calls
  else if index + 1 ≤ limit.calls then
    some (calls ++ List.replicate (index + 1 - calls.length) .default)
  else none

def takeToolCall (limit : VecLimit) (calls : List ToolCallAcc) (delta : OpenAiStreamToolCallDelta) :
    Option (List ToolCallAcc) :=
  (growCalls limit delta.index.toNat calls).map fun calls =>
    calls.modify delta.index.toNat fun acc => acc.apply delta

section Take
variable (reader : OpenAiReader) (limit : VecLimit)

/-- What a chunk makes of the reply, but for its tool calls. -/
def takeContent (stream : OpenAiStream) (chunk : OpenAiStreamChunk) : OpenAiStream :=
  let stream :=
    { stream with usage := (chunk.usage.map OpenAiUsage.usage).orElse fun _ => stream.usage }
  match chunk.choices with
  | [] => stream
  | choice :: _ =>
      let stream := { stream with
        finishReason := (choice.finishReason.map OpenAi.mapFinishReason).orElse fun _ =>
          stream.finishReason
        reasoning := stream.reasoning ++ choice.delta.reasoningContent.getD "" }
      let stream := (choice.delta.takeThinkingBlocks reader).foldl thinkingBlock stream
      { stream with text := stream.text ++ choice.delta.content.getD "" }

/-- What a chunk makes of the reply, unless the task panics. -/
def take (stream : OpenAiStream) (chunk : OpenAiStreamChunk) : Option OpenAiStream :=
  (chunk.toolCalls.foldlM (takeToolCall limit) stream.toolCalls).map fun toolCalls =>
    { stream.takeContent reader chunk with toolCalls }

variable (stream : OpenAiStream) (toolCalls : List ToolCallAcc)

theorem foldl_thinkingBlock_toolCalls (blocks : List OpenAiThinkingBlock) :
    blocks.foldl thinkingBlock { stream with toolCalls } =
      { blocks.foldl thinkingBlock stream with toolCalls } := by
  induction blocks generalizing stream with
  | nil => rfl
  | cons block rest ih =>
      have once : thinkingBlock { stream with toolCalls } block =
          { thinkingBlock stream block with toolCalls } := by
        cases block with
        | thinking thinking signature =>
            cases signature with
            | none => rfl
            | some signature => by_cases empty : signature.isEmpty <;> simp [thinkingBlock, empty]
        | redactedThinking data => by_cases empty : data.isEmpty <;> simp [thinkingBlock, empty]
        | other => rfl
      rw [List.foldl_cons, once, ih, List.foldl_cons]

theorem takeContent_toolCalls (chunk : OpenAiStreamChunk) :
    takeContent reader { stream with toolCalls } chunk = { takeContent reader stream chunk with
      toolCalls } := by
  unfold takeContent
  cases chunk.choices with
  | nil => rfl
  | cons choice others =>
      have kept := foldl_thinkingBlock_toolCalls { stream with
        usage := (chunk.usage.map OpenAiUsage.usage).orElse fun _ => stream.usage
        finishReason := (choice.finishReason.map OpenAi.mapFinishReason).orElse fun _ =>
          stream.finishReason
        reasoning := stream.reasoning ++ choice.delta.reasoningContent.getD "" } toolCalls
        (choice.delta.takeThinkingBlocks reader)
      exact congrArg (fun last => { last with text := last.text ++ choice.delta.content.getD "" })
        kept

theorem foldl_takeContent_toolCalls (chunks : List OpenAiStreamChunk) :
    chunks.foldl (takeContent reader) { stream with toolCalls } =
      { chunks.foldl (takeContent reader) stream with toolCalls } := by
  induction chunks generalizing stream with
  | nil => rfl
  | cons chunk rest ih => rw [List.foldl_cons, takeContent_toolCalls, ih, List.foldl_cons]

/-- The calls of chunks are taken in turn, and so is everything else. -/
theorem foldlM_take (chunks : List OpenAiStreamChunk) :
    chunks.foldlM (take reader limit) stream =
      ((chunks.flatMap OpenAiStreamChunk.toolCalls).foldlM (takeToolCall limit)
          stream.toolCalls).map fun toolCalls =>
        { chunks.foldl (takeContent reader) stream with toolCalls } := by
  induction chunks generalizing stream with
  | nil => rfl
  | cons chunk rest ih =>
      rw [List.foldlM_cons, List.flatMap_cons, List.foldlM_append, take]
      cases chunk.toolCalls.foldlM (takeToolCall limit) stream.toolCalls with
      | none => rfl
      | some toolCalls =>
          refine (ih _).trans ?_
          rw [foldl_takeContent_toolCalls]
          rfl

section Thoughts
variable {Kind : Type} {kind : ContentBlock → Option Kind}
  (noThinking : ∀ thought signature, kind (.thinking thought signature) = none)
  (noRedacted : ∀ data, kind (.redactedThinking data) = none)
include noThinking noRedacted

theorem thinkingBlock_filterMap (block : OpenAiThinkingBlock) :
    (stream.thinkingBlock block).thinking.filterMap kind = stream.thinking.filterMap kind := by
  cases block with
  | thinking thought signature =>
      cases signature with
      | none => rfl
      | some signature =>
          by_cases empty : signature.isEmpty <;>
            simp [thinkingBlock, empty, List.filterMap_append, noThinking]
  | redactedThinking data =>
      by_cases empty : data.isEmpty <;>
        simp [thinkingBlock, empty, List.filterMap_append, noRedacted]
  | other => rfl

/-- The thinking of a reply consists of thinking and redacted blocks only. -/
theorem foldl_takeContent_filterMap (chunks : List OpenAiStreamChunk) :
    (chunks.foldl (takeContent reader) stream).thinking.filterMap kind =
      stream.thinking.filterMap kind := by
  have blocks : ∀ (blocks : List OpenAiThinkingBlock) (before : OpenAiStream),
      (blocks.foldl thinkingBlock before).thinking.filterMap kind =
          before.thinking.filterMap kind := by
    intro blocks
    induction blocks with
    | nil => exact fun _ => rfl
    | cons block rest ih =>
        intro before
        rw [List.foldl_cons, ih, thinkingBlock_filterMap before noThinking noRedacted]
  induction chunks generalizing stream with
  | nil => rfl
  | cons chunk rest ih =>
      rw [List.foldl_cons, ih]
      unfold takeContent
      cases chunk.choices with
      | nil => rfl
      | cons choice others => exact blocks _ _

end Thoughts

end Take

/-- The pieces of the reply that a chunk sends on. -/
def sent (chunk : OpenAiStreamChunk) : List LlmChunk :=
  chunk.choices.head?.elim [] fun choice =>
    sentPiece .thinking choice.delta.reasoningContent ++ sentPiece .text choice.delta.content

/-- The reply is complete once the end marker or a finish reason arrived. -/
def finish (newIds : Nat → Uuid) (stream : OpenAiStream) : Except Error Choice :=
  if ¬stream.isDone ∧ stream.finishReason.isNone then
    .error (.incompleteResponse "OpenAI stream ended before a finish_reason or [DONE]")
  else
    .ok {
      message := ⟨.assistant, OpenAi.assembleContent stream.thinking stream.reasoning stream.text
        (stream.toolCalls.zipIdx.filterMap fun (acc, position) =>
          acc.intoToolUse (newIds position))⟩
      finishReason := stream.finishReason
      usage := stream.usage }

theorem finish_ok {newIds : Nat → Uuid} {stream : OpenAiStream} {choice : Choice}
    (finished : stream.finish newIds = .ok choice) :
    choice = ⟨⟨.assistant, OpenAi.assembleContent stream.thinking stream.reasoning stream.text
        (stream.toolCalls.zipIdx.filterMap fun (acc, position) =>
            acc.intoToolUse (newIds position))⟩,
      stream.finishReason, stream.usage⟩ := by
  unfold finish at finished
  split at finished
  · cases finished
  · cases finished
    rfl

section Read
variable (reader : OpenAiReader) (limit : VecLimit) (newIds : Nat → Uuid)

/-- What a payload sends, whether the stream is over, and the reply so
far, unless the task panics. -/
def payload (stream : OpenAiStream) (data : String) :
    Option (List LlmChunk × Bool × OpenAiStream) :=
  if data = "[DONE]" then some ([], true, { stream with isDone := true })
  else
    match reader.chunk data with
    | none => some ([], false, stream)
    | some chunk => (stream.take reader limit chunk).map fun next => (sent chunk, false, next)

/-- The payloads of a body are read one by one, and the reply is finished after the end marker or
the last of them. The calls without an id get the ids that are generated at their positions. -/
def read (stream : OpenAiStream) : List String → Option (List LlmChunk × Except Error Choice)
  | [] => some ([], stream.finish newIds)
  | data :: rest =>
      match stream.payload reader limit data with
      | none => none
      | some (sent, true, next) => some (sent, next.finish newIds)
      | some (sent, false, next) => (next.read rest).map fun (later, result) =>
          (sent ++ later, result)

/-- The chunks of the payloads before the end marker; a payload that does not parse has none. -/
def chunks (payloads : List String) : List OpenAiStreamChunk :=
  (payloads.takeWhile fun data => data ≠ "[DONE]").filterMap reader.chunk

/-- The reply after all chunks. -/
def ended (payloads : List String) (stream : OpenAiStream) : OpenAiStream :=
  { stream with isDone := stream.isDone || payloads.contains "[DONE]" }

/-- A body is read by taking its chunks in turn. -/
theorem read_eq (stream : OpenAiStream) (payloads : List String) :
    stream.read reader limit newIds payloads =
      ((chunks reader payloads).foldlM (take reader limit) stream).map fun last =>
        ((chunks reader payloads).flatMap sent, (ended payloads last).finish newIds) := by
  induction payloads generalizing stream with
  | nil => simp [read, chunks, ended]
  | cons data rest ih =>
      by_cases marker : data = "[DONE]"
      · simp [read, payload, chunks, ended, marker]
      · have kept : ∀ last, ended (data :: rest) last = ended rest last := by
          intro last
          simp [ended, Ne.symm marker]
        rw [read, payload, if_neg marker]
        cases parsed : reader.chunk data with
        | none =>
            have cut : chunks reader (data :: rest) = chunks reader rest := by
              simp [chunks, marker, parsed]
            simp only [cut, kept, ih, List.nil_append, Option.map_map]
            rfl
        | some chunk =>
            have cut : chunks reader (data :: rest) = chunk :: chunks reader rest := by
              simp [chunks, marker, parsed]
            rw [cut, List.foldlM_cons]
            cases took : stream.take reader limit chunk with
            | none => simp [took]
            | some next =>
                simp [ih, took, kept, Function.comp_def]

/-- The content of the reply after some chunks; the calls are taken apart from it. -/
def assembled (payloads : List String) : OpenAiStream :=
  (chunks reader payloads).foldl (takeContent reader) new

variable {reader limit newIds} {payloads : List String} {pieces : List LlmChunk} {choice : Choice}

/-- The message of a reply that is read. -/
theorem read_ok (reads : new.read reader limit newIds payloads = some (pieces, .ok choice)) :
    pieces = (chunks reader payloads).flatMap sent ∧
      ∃ calls, ((chunks reader payloads).flatMap OpenAiStreamChunk.toolCalls).foldlM
          (takeToolCall limit) [] =
          some calls ∧
        choice.message = ⟨.assistant, OpenAi.assembleContent (assembled reader payloads).thinking
          (assembled reader payloads).reasoning (assembled reader payloads).text
          (calls.zipIdx.filterMap fun (acc, position) => acc.intoToolUse (newIds position))⟩ := by
  rw [read_eq, foldlM_take, Option.map_map] at reads
  obtain ⟨calls, taken, finished⟩ := Option.map_eq_some_iff.mp reads
  have ⟨sent, finished⟩ := Prod.mk.inj finished
  exact ⟨sent.symm, calls, taken, congrArg Choice.message (finish_ok finished)⟩

end Read

end OpenAiStream

end Openheim.Llm
