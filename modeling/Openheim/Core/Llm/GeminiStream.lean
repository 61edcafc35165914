import Openheim.Core.Llm.Gemini
import Openheim.Core.Llm.SseChunking

/-
This file follows the reading of a streamed reply in `src/core/llm/gemini.rs`.
-/

namespace Openheim.Llm

structure GeminiUsageMetadata where
  promptTokenCount : Nat
  candidatesTokenCount : Nat
  cachedContentTokenCount : Nat
  deriving DecidableEq, Repr

def GeminiUsageMetadata.usage (usage : GeminiUsageMetadata) : Usage :=
  ⟨usage.promptTokenCount - usage.cachedContentTokenCount, usage.candidatesTokenCount, 0,
    usage.cachedContentTokenCount⟩

/-- A call as the provider writes it: it may leave out the id and the arguments. -/
structure GeminiSentCall where
  id : Option String
  name : String
  args : Option Json

/-- A part of a streamed reply as the provider writes it. -/
structure GeminiSentPart where
  text : Option String := none
  functionCall : Option GeminiSentCall := none
  thoughtSignature : Option String := none

structure GeminiSentCandidate where
  parts : List GeminiSentPart
  finishReason : Option String

structure GeminiSentChunk where
  candidates : List GeminiSentCandidate
  usageMetadata : Option GeminiUsageMetadata

structure GeminiCandidate where
  parts : List GeminiPart
  finishReason : Option String

structure GeminiResponse where
  candidates : List GeminiCandidate
  usageMetadata : Option GeminiUsageMetadata

/-- The field `args` has no default, so a call without it does not parse. -/
def GeminiSentCall.deserialize (call : GeminiSentCall) : Option GeminiFunctionCall :=
  call.args.map fun args => ⟨call.id, call.name, args⟩

def GeminiSentPart.deserialize (part : GeminiSentPart) : Option GeminiPart :=
  match part.functionCall with
  | none => some { text := part.text, thoughtSignature := part.thoughtSignature }
  | some call => call.deserialize.map fun call =>
      { text := part.text, functionCall := some call, thoughtSignature := part.thoughtSignature }

def GeminiSentCandidate.deserialize (candidate : GeminiSentCandidate) : Option GeminiCandidate :=
  (candidate.parts.mapM GeminiSentPart.deserialize).map fun parts => ⟨parts, candidate.finishReason⟩

/-- One part that does not parse fails the whole chunk. -/
def GeminiSentChunk.deserialize (chunk : GeminiSentChunk) : Option GeminiResponse :=
  (chunk.candidates.mapM GeminiSentCandidate.deserialize).map fun candidates =>
    ⟨candidates, chunk.usageMetadata⟩

namespace Gemini

/-- A reason without an equivalent is kept in lower case. -/
def mapFinishReason (lowercase : String → String) (reason : String) : FinishReason :=
  if reason = "STOP" then .stop
  else if reason = "MAX_TOKENS" then .maxTokens
  else if reason ∈ ["SAFETY", "RECITATION", "BLOCKLIST", "PROHIBITED_CONTENT", "SPII",
    "IMAGE_SAFETY"] then .refusal
  else .other (lowercase reason)

/-- A streamed call keeps its id and its signature. A call without an id
gets one that is generated. -/
def toolUseBlock (json : SerdeJson) (uuid : Uuid) (call : GeminiFunctionCall)
    (signature : Option String) :
    ContentBlock :=
  .toolUse (call.id.getD (newToolCallId uuid)) call.name (json.print call.args) signature

end Gemini

/-- What the reading of a stream depends on: the fields that the JSON library finds in a payload,
lower case of the standard library, and the uuids that are generated for the calls, by position. -/
structure GeminiReader where
  chunk : String → Option GeminiSentChunk
  json : SerdeJson
  lowercase : String → String
  newIds : Nat → Uuid

/-- One streamed reply, assembled chunk by chunk. -/
structure GeminiStream where
  text : String
  toolUses : List ContentBlock
  finishReason : Option FinishReason
  usage : Option Usage
  deriving DecidableEq, Repr

namespace GeminiStream
variable (reader : GeminiReader)

def new : GeminiStream := ⟨"", [], none, none⟩

def takePart (stream : GeminiStream) (part : GeminiPart) : GeminiStream where
  text := stream.text ++ part.text.getD ""
  toolUses := stream.toolUses ++ (part.functionCall.map fun call =>
    Gemini.toolUseBlock reader.json (reader.newIds stream.toolUses.length) call
      part.thoughtSignature).toList
  finishReason := stream.finishReason
  usage := stream.usage

/-- What a chunk makes of the reply. Only its first candidate counts. -/
def take (stream : GeminiStream) (event : GeminiResponse) : GeminiStream :=
  let stream :=
    { stream with
      usage := (event.usageMetadata.map GeminiUsageMetadata.usage).orElse fun _ => stream.usage }
  match event.candidates with
  | [] => stream
  | candidate :: _ =>
      let stream := { stream with
        finishReason :=
            (candidate.finishReason.map (Gemini.mapFinishReason reader.lowercase)).orElse fun _ =>
          stream.finishReason }
      candidate.parts.foldl (takePart reader) stream

/-- The pieces of the reply that a chunk sends on. -/
def sent (event : GeminiResponse) : List LlmChunk :=
  event.candidates.head?.elim [] fun candidate => candidate.parts.flatMap fun part =>
    sentPiece .text part.text

def event (data : String) : Option GeminiResponse :=
  (reader.chunk data).bind GeminiSentChunk.deserialize

/-- There is no event for the end of the stream. -/
def payload (stream : GeminiStream) (data : String) :
    List LlmChunk × Except Error (Bool × GeminiStream) :=
  match event reader data with
  | none => ([], .ok (false, stream))
  | some event => (sent event, .ok (false, stream.take reader event))

/-- The chunk with the finish reason is the last one. -/
def finish (stream : GeminiStream) : Except Error Choice :=
  if stream.finishReason.isNone then
    .error (.incompleteResponse "Gemini stream ended before a finishReason")
  else
    .ok {
      message :=
        ⟨.assistant, (if stream.text.isEmpty then [] else [.text stream.text]) ++ stream.toolUses⟩
      finishReason := stream.finishReason
      usage := stream.usage }

theorem finish_ok {stream : GeminiStream} {choice : Choice}
    (finished : stream.finish = .ok choice) :
    choice =
      ⟨⟨.assistant, (if stream.text.isEmpty then [] else [.text stream.text]) ++ stream.toolUses⟩,
      stream.finishReason, stream.usage⟩ := by
  unfold finish at finished
  split at finished
  · cases finished
  · cases finished
    rfl

def parser : StreamParser GeminiStream := ⟨payload reader, finish⟩

/-- All payloads are read, and their chunks are taken in turn. -/
theorem takeAll_eq (payloads : List String) (reading : Reading GeminiStream) :
    reading.takeAll (parser reader) payloads =
      (⟨(payloads.filterMap (event reader)).foldl (take reader) reading.parser,
        reading.payloads ++ payloads,
        reading.sent ++ (payloads.filterMap (event reader)).flatMap sent⟩, none) := by
  induction payloads generalizing reading with
  | nil => simp [Reading.takeAll]
  | cons data rest ih =>
      rw [Reading.takeAll, Reading.take, parser]
      dsimp only [payload]
      cases parsed : event reader data with
      | none =>
          dsimp only
          rw [List.append_nil]
          refine (ih _).trans ?_
          simp [parsed]
      | some event =>
          dsimp only
          refine (ih _).trans ?_
          simp [parsed]

end GeminiStream

end Openheim.Llm
