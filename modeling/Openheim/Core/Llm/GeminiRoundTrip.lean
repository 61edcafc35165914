import Openheim.Core.Llm.AnthropicRoundTrip
import Openheim.Core.Llm.GeminiStream

/-
This file shows when the function calls of a streamed Gemini reply are sent back as they came, with
their results.
-/

namespace Openheim.Llm

namespace Gemini

/-- The call of a part with its signature. -/
def signedCall (part : GeminiPart) : Option (GeminiFunctionCall × Option String) :=
  part.functionCall.map fun call => (call, part.thoughtSignature)

/-- If no call of a turn is signed, the first one gets the stand-in signature. -/
def withStandIn :
    List (GeminiFunctionCall × Option String) → List (GeminiFunctionCall × Option String)
  | [] => []
  | (call, signature) :: rest =>
      if signature.isNone ∧ rest.all fun other => other.2.isNone then
        (call, some skipSignatureValidation) :: rest
      else (call, signature) :: rest

section StandIn
variable (parts : List GeminiPart) (calls : List (GeminiFunctionCall × Option String))

/-- Only the first call of the parts is signed, and only if it has no signature. -/
theorem signFirstCall_calls :
    (signFirstCall parts).filterMap signedCall =
      match parts.filterMap signedCall with
      | [] => []
      | (call, _) :: rest => (call, some skipSignatureValidation) :: rest := by
  induction parts with
  | nil => rfl
  | cons part rest ih =>
      rw [signFirstCall]
      cases present : part.functionCall with
      | none =>
          have silent : signedCall part = none := by rw [signedCall, present, Option.map_none]
          rw [if_neg (by simp), List.filterMap_cons_none silent, List.filterMap_cons_none silent]
          exact ih
      | some call =>
          have called : signedCall part = some (call, part.thoughtSignature) := by
            rw [signedCall, present, Option.map_some]
          rw [if_pos Option.isSome_some, List.filterMap_cons_some called]
          rfl

/-- The parts of a turn are signed as their calls are. -/
theorem signForeignFunctionCalls_calls :
    (signForeignFunctionCalls parts).filterMap signedCall =
      withStandIn (parts.filterMap signedCall) := by
  have unsigned : ((parts.filter fun part => part.functionCall.isSome).all fun part =>
      part.thoughtSignature.isNone) =
      (parts.filterMap signedCall).all fun call => call.2.isNone := by
    induction parts with
    | nil => rfl
    | cons part rest ih => cases present : part.functionCall <;> simp [signedCall, present, ih]
  rw [signForeignFunctionCalls, unsigned]
  split
  · next all =>
    rw [signFirstCall_calls]
    cases found : parts.filterMap signedCall with
    | nil => rfl
    | cons call rest =>
        rw [found, List.all_cons, Bool.and_eq_true] at all
        rw [withStandIn, if_pos all]
  · next some =>
    cases found : parts.filterMap signedCall with
    | nil => rfl
    | cons call rest =>
        rw [found, List.all_cons, Bool.and_eq_true] at some
        rw [withStandIn, if_neg some]

/-- The stand-in signature changes no call. -/
theorem withStandIn_calls : (withStandIn calls).map Prod.fst = calls.map Prod.fst := by
  cases calls with
  | nil => rfl
  | cons call rest =>
      rw [withStandIn]
      split <;> rfl

end StandIn

section Responses
variable (json : SerdeJson)

/-- The results that are sent, in their order. -/
def responses (wire : List (Turn GeminiPart)) : List GeminiFunctionResponse :=
  wire.flatMap fun turn => turn.parts.filterMap GeminiPart.functionResponse

def response (result : ToolResultBlock) : GeminiFunctionResponse :=
  ⟨some result.toolCallId, result.toolName, .object [("result", .string result.content)]⟩

/-- The result of a tool message. -/
def toolResponse (message : Message) : Option GeminiFunctionResponse :=
  if message.role = .tool then message.toolResultBlock.map response else none

/-- The results of two lists of turns follow each other. -/
theorem responses_append (first second : List (Turn GeminiPart)) :
    responses (first ++ second) = responses first ++ responses second := List.flatMap_append

/-- The results of one turn are those of its parts. -/
theorem responses_singleton (turn : Turn GeminiPart) :
    responses [turn] = turn.parts.filterMap GeminiPart.functionResponse :=
  List.flatMap_singleton _ _

/-- A part that is merged into the turns adds its result, if it has one. -/
theorem responses_mergeResult (wire : List (Turn GeminiPart)) (part : GeminiPart) :
    responses (mergeResult wire part) = responses wire ++ part.functionResponse.toList := by
  rcases List.eq_nil_or_concat wire with rfl | ⟨init, ⟨role, parts⟩, rfl⟩
  · cases found : part.functionResponse <;> simp [mergeResult, responses, found]
  · rw [List.concat_eq_append]
    by_cases user : role = "user"
    · subst user
      rw [mergeResult_user]
      cases found : part.functionResponse <;> simp [responses, found]
    · rw [mergeResult_other user]
      cases found : part.functionResponse <;> simp [responses, found]

/-- A turn of the model has no results. -/
theorem assistantParts_responses (content : List ContentBlock) :
    ((format json).assistantParts content).filterMap GeminiPart.functionResponse = [] := by
  refine (signForeignFunctionCalls_filterMap (fun _ _ => rfl) _).trans ?_
  rw [List.filterMap_filterMap, List.filterMap_eq_nil_iff]
  intro block _
  cases block with
  | text text => rw [assistantPart]; split <;> rfl
  | _ => rfl

/-- What a user writes holds no result. -/
theorem userPart_response {block : ContentBlock} {part : GeminiPart}
    (converted : userPart block = some part) :
    part.functionResponse = none := by
  cases block with
  | text => cases converted; rfl
  | image => cases converted; rfl
  | _ => cases converted

/-- A message adds the result of its tool call, and no other. -/
theorem responses_convertMessage (wire : List (Turn GeminiPart)) (message : Message) :
    responses ((format json).convertMessage wire message) = responses wire ++
      (toolResponse message).toList := by
  cases role : message.role with
  | tool =>
      simp only [TurnFormat.convertMessage, role, toolResponse, if_true]
      cases message.toolResultBlock with
      | none => simp
      | some result => exact responses_mergeResult wire _
  | assistant =>
      simp only [TurnFormat.convertMessage, role, toolResponse]
      split
      · simp
      · rw [responses_append, responses_singleton, assistantParts_responses]
        rfl
  | user =>
      have none : (if (message.content.filterMap userPart).isEmpty then
          [({ text := some "" } : GeminiPart)]
          else message.content.filterMap userPart).filterMap GeminiPart.functionResponse = [] := by
        split
        · rfl
        · rw [List.filterMap_eq_nil_iff]
          intro part member
          obtain ⟨block, _, converted⟩ := List.mem_filterMap.mp member
          exact userPart_response converted
      simp only [TurnFormat.convertMessage, role, toolResponse, responses_append,
        responses_singleton]
      exact congrArg (responses wire ++ ·) none
  | system => simp [TurnFormat.convertMessage, role, toolResponse]

/-- The results of the tool messages are sent, each with the name and the id
that it has, and no others. -/
theorem responses_convertMessages (messages : List Message) :
    responses (convertMessages json messages) = messages.filterMap toolResponse := by
  have from_wire : ∀ wire, responses (messages.foldl (format json).convertMessage wire) =
      responses wire ++ messages.filterMap toolResponse := by
    induction messages with
    | nil => simp
    | cons message rest ih =>
        intro wire
        rw [List.foldl_cons, ih, responses_convertMessage, List.append_assoc]
        cases found : toolResponse message <;> simp [found]
  exact from_wire []

end Responses

end Gemini

namespace GeminiSentChunk

/-- The parts of the candidate that counts. -/
def parts (chunk : GeminiSentChunk) : List GeminiSentPart :=
  chunk.candidates.head?.elim [] GeminiSentCandidate.parts

def finishReason (chunk : GeminiSentChunk) : Option String :=
  chunk.candidates.head?.bind GeminiSentCandidate.finishReason

/-- The calls with their signatures. -/
def calls (chunk : GeminiSentChunk) : List (GeminiSentCall × Option String) :=
  chunk.parts.filterMap fun part => part.functionCall.map fun call => (call, part.thoughtSignature)

end GeminiSentChunk

/-- A call that was read, as it was sent. -/
def GeminiFunctionCall.asSent (call : GeminiFunctionCall) : GeminiSentCall :=
  ⟨call.id, call.name, some call.args⟩

namespace GeminiResponse

def calls (response : GeminiResponse) : List (GeminiFunctionCall × Option String) :=
  response.candidates.head?.elim [] fun candidate => candidate.parts.filterMap Gemini.signedCall

def finishReason (response : GeminiResponse) : Option String :=
  response.candidates.head?.bind GeminiCandidate.finishReason

end GeminiResponse

section Deserialize

/-- A part is read with the call and the signature that it was sent with. -/
theorem part_deserialize {part : GeminiSentPart} {read : GeminiPart}
    (reads : part.deserialize = some read) :
    (Gemini.signedCall read).map (Prod.map GeminiFunctionCall.asSent id) =
      part.functionCall.map fun call => (call, part.thoughtSignature) := by
  unfold GeminiSentPart.deserialize at reads
  cases present : part.functionCall with
  | none =>
      rw [present] at reads
      cases reads
      rfl
  | some call =>
      rw [present] at reads
      obtain ⟨made, deserialized, rfl⟩ := Option.map_eq_some_iff.mp reads
      obtain ⟨args, found, rfl⟩ := Option.map_eq_some_iff.mp deserialized
      simp [Gemini.signedCall, GeminiFunctionCall.asSent, ← found]

/-- Parts are read with the calls that they were sent with, in their order. -/
theorem parts_deserialize {parts : List GeminiSentPart} {read : List GeminiPart}
    (reads : parts.mapM GeminiSentPart.deserialize = some read) :
    (read.filterMap Gemini.signedCall).map (Prod.map GeminiFunctionCall.asSent id) =
      parts.filterMap fun part => part.functionCall.map fun call =>
        (call, part.thoughtSignature) := by
  induction parts generalizing read with
  | nil =>
      cases reads
      rfl
  | cons part rest ih =>
      rw [List.mapM_cons] at reads
      obtain ⟨first, one, reads⟩ := Option.bind_eq_some_iff.mp reads
      obtain ⟨others, all, reads⟩ := Option.bind_eq_some_iff.mp reads
      cases reads
      have same := part_deserialize one
      have later := ih all
      cases found : Gemini.signedCall first <;> cases sent : part.functionCall <;> simp_all

/-- What is read of a chunk are its calls and its finish reason. -/
theorem chunk_deserialize {chunk : GeminiSentChunk} {response : GeminiResponse}
    (reads : chunk.deserialize = some response) :
    response.calls.map (Prod.map GeminiFunctionCall.asSent id) = chunk.calls ∧
      response.finishReason = chunk.finishReason := by
  obtain ⟨candidates, all, rfl⟩ := Option.map_eq_some_iff.mp reads
  unfold GeminiResponse.calls GeminiResponse.finishReason GeminiSentChunk.calls
    GeminiSentChunk.parts
    GeminiSentChunk.finishReason
  cases found : chunk.candidates with
  | nil =>
      rw [found] at all
      cases all
      exact ⟨rfl, rfl⟩
  | cons candidate others =>
      rw [found, List.mapM_cons] at all
      obtain ⟨first, one, all⟩ := Option.bind_eq_some_iff.mp all
      obtain ⟨rest, _, all⟩ := Option.bind_eq_some_iff.mp all
      cases all
      obtain ⟨parts, read, rfl⟩ := Option.map_eq_some_iff.mp one
      exact ⟨parts_deserialize read, rfl⟩

/-- Parts whose calls all have arguments are read. -/
theorem parts_mapM_isSome {parts : List GeminiSentPart}
    (complete : ∀ part ∈ parts, ∀ call, part.functionCall = some call → call.args ≠ none) :
    ∃ read, parts.mapM GeminiSentPart.deserialize = some read := by
  induction parts with
  | nil => exact ⟨[], rfl⟩
  | cons part rest ih =>
      obtain ⟨first, later⟩ := List.forall_mem_cons.mp complete
      obtain ⟨read, all⟩ := ih later
      have one : ∃ made, part.deserialize = some made := by
        unfold GeminiSentPart.deserialize
        cases present : part.functionCall with
        | none => exact ⟨_, rfl⟩
        | some call =>
            obtain ⟨args, found⟩ := Option.ne_none_iff_exists'.mp (first call present)
            simp [GeminiSentCall.deserialize, found]
      obtain ⟨made, one⟩ := one
      exact ⟨made :: read, by simp [List.mapM_cons, one, all]⟩

/-- Candidates whose calls all have arguments are read. -/
theorem candidates_mapM_isSome {candidates : List GeminiSentCandidate}
    (complete : ∀ candidate ∈ candidates, ∀ part ∈ candidate.parts, ∀ call,
      part.functionCall = some call → call.args ≠ none) :
    ∃ read, candidates.mapM GeminiSentCandidate.deserialize = some read := by
  induction candidates with
  | nil => exact ⟨[], rfl⟩
  | cons candidate rest ih =>
      obtain ⟨first, later⟩ := List.forall_mem_cons.mp complete
      obtain ⟨read, all⟩ := ih later
      obtain ⟨parts, one⟩ := parts_mapM_isSome first
      exact ⟨⟨parts, candidate.finishReason⟩ :: read, by
        simp [List.mapM_cons, GeminiSentCandidate.deserialize, one, all]⟩

/-- A chunk whose calls all have arguments is read. -/
theorem chunk_isSome {chunk : GeminiSentChunk}
    (complete : ∀ candidate ∈ chunk.candidates, ∀ part ∈ candidate.parts, ∀ call,
      part.functionCall = some call → call.args ≠ none) :
    ∃ response, chunk.deserialize = some response := by
  obtain ⟨read, all⟩ := candidates_mapM_isSome complete
  exact ⟨⟨read, chunk.usageMetadata⟩, by rw [GeminiSentChunk.deserialize, all]; rfl⟩

end Deserialize

namespace GeminiStream
variable (reader : GeminiReader) (payloads : List String)

def sentCalls : List (GeminiSentCall × Option String) :=
  (payloads.filterMap reader.chunk).flatMap GeminiSentChunk.calls

/-- The finish reason that was sent last. -/
def sentReason : Option String :=
  ((payloads.filterMap reader.chunk).filterMap GeminiSentChunk.finishReason).getLast?

/-- The calls as they have to be sent back: with the id that they came with or a generated one, and
an empty object for absent arguments. -/
def expectedCalls : List (GeminiFunctionCall × Option String) :=
  (sentCalls reader payloads).mapIdx fun position (call, signature) =>
    (⟨some (call.id.getD (newToolCallId (reader.newIds position))), call.name,
      call.args.getD (.object [])⟩, signature)

/-- No call and no finish reason is lost, and the calls and the results are
sent back as they have to be. -/
def RoundTrips : Prop :=
  ∃ choice, parseStream (parser reader) new payloads = .ok choice ∧
    choice.finishReason = (sentReason reader payloads).map
      (Gemini.mapFinishReason reader.lowercase) ∧
    (∃ parts, (Gemini.format reader.json).SendsAs choice.message parts ∧
      parts.filterMap Gemini.signedCall = Gemini.withStandIn (expectedCalls reader payloads)) ∧
    ∀ (earlier : List Message) (output : ToolUseBlock → String × Bool),
      Gemini.responses (Gemini.convertMessages reader.json (earlier ++ choice.message ::
          choice.message.toolCalls.map fun call =>
            Message.toolResult call.id call.name (output call).1 (output call).2)) =
        Gemini.responses (Gemini.convertMessages reader.json earlier) ++
          choice.message.toolCalls.map (fun call => ⟨some call.id, call.name,
            .object [("result", .string (output call).1)]⟩) ∧
      choice.message.toolCalls.map (fun call => (some call.id, call.name)) =
        (expectedCalls reader payloads).map fun call => (call.1.id, call.1.name)

section Read

/-- The calls that were read. -/
def readCalls : List (GeminiFunctionCall × Option String) :=
  (payloads.filterMap (event reader)).flatMap GeminiResponse.calls

/-- The block of a call that was read at a position. -/
def callBlock (position : Nat) (call : GeminiFunctionCall × Option String) : ContentBlock :=
  Gemini.toolUseBlock reader.json (reader.newIds position) call.1 call.2

/-- Taking the parts of a chunk appends a block for each call, numbered by its place. -/
theorem foldl_takePart_toolUses (parts : List GeminiPart) (stream : GeminiStream) :
    (parts.foldl (takePart reader) stream).toolUses =
        stream.toolUses ++ (parts.filterMap Gemini.signedCall).mapIdx fun position =>
          callBlock reader (position + stream.toolUses.length) := by
  induction parts generalizing stream with
  | nil => simp
  | cons part rest ih =>
      rw [List.foldl_cons, ih, takePart]
      cases present : part.functionCall with
      | none => simp [Gemini.signedCall, present]
      | some call =>
          simp only [Gemini.signedCall, present, List.filterMap_cons, Option.map_some,
            Option.toList_some, List.length_append, List.length_singleton, List.append_assoc,
            List.mapIdx_cons, List.singleton_append, Nat.zero_add]
          have shifted :
              (fun position => callBlock reader (position + (stream.toolUses.length + 1))) =
              fun position => callBlock reader (position + 1 + stream.toolUses.length) :=
            funext fun position => congrArg (callBlock reader) (by omega)
          rw [shifted]
          rfl

/-- The parts of a chunk do not change the finish reason. -/
theorem foldl_takePart_finishReason (parts : List GeminiPart) (stream : GeminiStream) :
    (parts.foldl (takePart reader) stream).finishReason = stream.finishReason := by
  induction parts generalizing stream with
  | nil => rfl
  | cons part rest ih => rw [List.foldl_cons, ih, takePart]

/-- A chunk adds its calls and may replace the finish reason. -/
theorem take_spec (stream : GeminiStream) (event : GeminiResponse) :
    (stream.take reader event).toolUses = stream.toolUses ++ event.calls.mapIdx (fun position =>
        callBlock reader (position + stream.toolUses.length)) ∧
      (stream.take reader event).finishReason =
        (event.finishReason.map (Gemini.mapFinishReason reader.lowercase)).orElse fun _ =>
          stream.finishReason := by
  unfold take GeminiResponse.calls GeminiResponse.finishReason
  cases event.candidates with
  | nil => simp
  | cons candidate others =>
      exact ⟨foldl_takePart_toolUses reader candidate.parts _,
        foldl_takePart_finishReason reader candidate.parts _⟩

/-- The stream holds a block for every call so far, and the last finish reason. -/
theorem foldl_take_spec (events : List GeminiResponse) (stream : GeminiStream) :
    (events.foldl (take reader) stream).toolUses =
        stream.toolUses ++ (events.flatMap GeminiResponse.calls).mapIdx (fun position =>
          callBlock reader (position + stream.toolUses.length)) ∧
      (events.foldl (take reader) stream).finishReason =
        ((events.filterMap GeminiResponse.finishReason).getLast?.map
          (Gemini.mapFinishReason reader.lowercase)).orElse fun _ => stream.finishReason := by
  induction events generalizing stream with
  | nil => simp
  | cons event rest ih =>
      obtain ⟨toolUses, reason⟩ := take_spec reader stream event
      obtain ⟨allUses, lastReason⟩ := ih (stream.take reader event)
      rw [List.foldl_cons, allUses, lastReason, toolUses, reason]
      constructor
      · simp only [List.flatMap_cons, List.mapIdx_append, List.length_append, List.length_mapIdx,
          List.append_assoc]
        exact congrArg (fun place => stream.toolUses ++ (_ ++ List.mapIdx place _))
          (funext fun position => congrArg (callBlock reader) (by omega))
      · cases found : event.finishReason with
        | none => rw [List.filterMap_cons_none found]; rfl
        | some reason =>
            rw [List.filterMap_cons_some found, List.getLast?_cons]
            cases (rest.filterMap GeminiResponse.finishReason).getLast? <;> rfl

/-- The payloads that count are those of chunks that can be read. -/
theorem events_eq : payloads.filterMap (event reader) =
    (payloads.filterMap reader.chunk).filterMap GeminiSentChunk.deserialize := by
  rw [List.filterMap_filterMap]
  rfl

/-- Candidates that do not count have complete calls, if any. -/
def OthersComplete (chunk : GeminiSentChunk) : Prop :=
  ∀ candidate ∈ chunk.candidates.tail, ∀ part ∈ candidate.parts, ∀ call,
    part.functionCall = some call → call.args ≠ none

/-- A chunk is read if its calls, and those of its other candidates, have arguments. -/
theorem chunk_isSome_of_calls {chunk : GeminiSentChunk} (others : OthersComplete chunk)
    (complete : ∀ call ∈ chunk.calls, call.1.args ≠ none) :
    ∃ response, chunk.deserialize = some response := by
  refine chunk_isSome ?_
  unfold OthersComplete at others
  unfold GeminiSentChunk.calls GeminiSentChunk.parts at complete
  cases found : chunk.candidates with
  | nil => nofun
  | cons candidate rest =>
      rw [found] at others complete
      refine List.forall_mem_cons.mpr ⟨fun part member call present => ?_, others⟩
      exact complete (call, part.thoughtSignature)
        (List.mem_filterMap.mpr ⟨part, member, by rw [present, Option.map_some]⟩)

/-- If all chunks are read, so are all calls and finish reasons. -/
theorem read_all (chunks : List GeminiSentChunk)
    (reads : ∀ chunk ∈ chunks, ∃ response, chunk.deserialize = some response) :
    ((chunks.filterMap GeminiSentChunk.deserialize).flatMap GeminiResponse.calls).map
        (Prod.map GeminiFunctionCall.asSent id) = chunks.flatMap GeminiSentChunk.calls ∧
      (chunks.filterMap GeminiSentChunk.deserialize).filterMap GeminiResponse.finishReason =
        chunks.filterMap GeminiSentChunk.finishReason := by
  induction chunks with
  | nil => exact ⟨rfl, rfl⟩
  | cons chunk rest ih =>
      obtain ⟨⟨response, read⟩, later⟩ := List.forall_mem_cons.mp reads
      obtain ⟨calls, reason⟩ := chunk_deserialize read
      obtain ⟨allCalls, allReasons⟩ := ih later
      rw [List.filterMap_cons_some read, List.flatMap_cons, List.map_append, calls, allCalls]
      refine ⟨rfl, ?_⟩
      rw [List.filterMap_cons, List.filterMap_cons, reason, allReasons]

/-- A chunk that is not read loses a call. -/
theorem read_count (chunks : List GeminiSentChunk)
    (others : ∀ chunk ∈ chunks, OthersComplete chunk) :
    ((chunks.filterMap GeminiSentChunk.deserialize).flatMap GeminiResponse.calls).length ≤
        (chunks.flatMap GeminiSentChunk.calls).length ∧
      (((chunks.filterMap GeminiSentChunk.deserialize).flatMap GeminiResponse.calls).length =
          (chunks.flatMap GeminiSentChunk.calls).length →
        ∀ chunk ∈ chunks, ∃ response, chunk.deserialize = some response) := by
  induction chunks with
  | nil => exact ⟨Nat.le_refl _, fun _ => nofun⟩
  | cons chunk rest ih =>
      obtain ⟨first, later⟩ := List.forall_mem_cons.mp others
      obtain ⟨fewer, all⟩ := ih later
      rw [List.flatMap_cons, List.length_append]
      cases read : chunk.deserialize with
      | none =>
          have lost : 0 < chunk.calls.length := by
            rw [List.length_pos_iff]
            intro none
            obtain ⟨response, found⟩ := chunk_isSome_of_calls first (by rw [none]; nofun)
            cases read.symm.trans found
          rw [List.filterMap_cons_none read]
          exact ⟨by omega, fun same => by omega⟩
      | some response =>
          have kept : response.calls.length = chunk.calls.length := by
            rw [← (chunk_deserialize read).1, List.length_map]
          rw [List.filterMap_cons_some read, List.flatMap_cons, List.length_append, kept]
          refine ⟨by omega, fun same => List.forall_mem_cons.mpr ⟨⟨response, read⟩, all (by omega)⟩⟩

end Read

section Message

/-- A read call as it is sent back. -/
def backCall (position : Nat) (call : GeminiFunctionCall × Option String) :
    GeminiFunctionCall × Option String :=
  (⟨some (call.1.id.getD (newToolCallId (reader.newIds position))), call.1.name,
    toolInput reader.json (reader.json.print call.1.args)⟩, call.2)

/-- The reply that is stored, with the calls that were read. -/
def stored (stream : GeminiStream) : Message :=
  ⟨.assistant, (if stream.text.isEmpty then [] else [.text stream.text]) ++ stream.toolUses⟩

/-- The reply after all payloads. -/
def assembled : GeminiStream := (payloads.filterMap (event reader)).foldl (take reader) new

/-- The parser ends with what is assembled of all payloads. -/
theorem parseStream_eq : parseStream (parser reader) new payloads =
    (assembled reader payloads).finish := by
  rw [parseStream, takeAll_eq]
  rfl

/-- The assembled blocks are those of the calls that were read. -/
theorem read_toolUses : (assembled reader payloads).toolUses =
    (readCalls reader payloads).mapIdx (callBlock reader) :=
  (foldl_take_spec reader _ new).1

/-- Reading numbered blocks back gives the numbered results. -/
theorem mapIdx_filterMap {Block Kind : Type}
    {block : Nat → GeminiFunctionCall × Option String → Block}
    {kind : Block → Option Kind} {result : Nat → GeminiFunctionCall × Option String → Kind}
    (reads : ∀ position call, kind (block position call) = some (result position call))
    (calls : List (GeminiFunctionCall × Option String)) :
    (calls.mapIdx block).filterMap kind = calls.mapIdx result := by
  induction calls generalizing block result with
  | nil => rfl
  | cons call rest ih =>
      rw [List.mapIdx_cons, List.mapIdx_cons, List.filterMap_cons_some (reads 0 call)]
      exact congrArg (result 0 call :: ·) (ih fun position call => reads (position + 1) call)

variable {stream : GeminiStream} {calls : List (GeminiFunctionCall × Option String)}
  (toolUses : stream.toolUses = calls.mapIdx (callBlock reader))
include toolUses

/-- The stored message is sent back with its calls as they were read, and a stand-in signature where
no call was signed. -/
theorem stored_signedCalls :
    ((Gemini.format reader.json).assistantParts (stored stream).content).filterMap
      Gemini.signedCall =
      Gemini.withStandIn (calls.mapIdx (backCall reader)) := by
  refine (Gemini.signForeignFunctionCalls_calls _).trans (congrArg Gemini.withStandIn ?_)
  have noText :
      ((if stream.text.isEmpty then [] else [.text stream.text]).filterMap
        fun block : ContentBlock =>
      (Gemini.assistantPart reader.json block).bind Gemini.signedCall) = [] := by
    split
    · rfl
    · next written => simp [Gemini.assistantPart, Gemini.signedCall]
  rw [stored, List.filterMap_filterMap, List.filterMap_append, noText, List.nil_append, toolUses]
  exact @mapIdx_filterMap _ _ (callBlock reader) (fun block =>
    (Gemini.assistantPart reader.json block).bind
    Gemini.signedCall) (backCall reader) (fun _ _ => rfl) calls

/-- The tool calls of the stored message have the ids, names and arguments that were read. -/
theorem stored_toolCalls : (stored stream).toolCalls = calls.mapIdx fun position call =>
    ⟨call.1.id.getD (newToolCallId (reader.newIds position)), call.1.name,
        reader.json.print call.1.args⟩ := by
  have noText : (if stream.text.isEmpty then [] else [.text stream.text]).filterMap
      ContentBlock.asToolUse = [] := by
    split <;> rfl
  rw [Message.toolCalls, stored, List.filterMap_append, noText, List.nil_append, toolUses]
  exact @mapIdx_filterMap _ _ (callBlock reader) ContentBlock.asToolUse _ (fun _ _ => rfl) calls

end Message

section Exact
variable {reader payloads}

/-- If the message is sent as some parts, they are the parts of its content. -/
theorem parts_of_sendsAs {message : Message} {parts : List GeminiPart}
    (assistant : message.role = .assistant)
    (sends : (Gemini.format reader.json).SendsAs message parts) :
    (Gemini.format reader.json).assistantParts message.content = parts := by
  have alone := sends [] []
  simp only [TurnFormat.convertMessages, List.nil_append, List.foldl_cons, List.foldl_nil,
    TurnFormat.convertMessage, assistant] at alone
  by_cases none : parts = []
  · rw [if_pos none] at alone
    split at alone
    · next empty => rw [List.isEmpty_iff.mp empty, none]
    · cases alone
  · rw [if_neg none] at alone
    obtain ⟨turns, alone⟩ := alone
    split at alone
    · cases alone
    · have first := (List.cons.inj alone).1
      exact congrArg Turn.parts first

/-- The results of a round are sent back behind the earlier ones, one for each call. -/
theorem responses_exchange {message : Message} (assistant : message.role = .assistant)
    (earlier : List Message) (output : ToolUseBlock → String × Bool) :
    Gemini.responses (Gemini.convertMessages reader.json (earlier ++ message ::
        message.toolCalls.map fun call =>
          Message.toolResult call.id call.name (output call).1 (output call).2)) =
      Gemini.responses (Gemini.convertMessages reader.json earlier) ++
        message.toolCalls.map fun call =>
        ⟨some call.id, call.name, .object [("result", .string (output call).1)]⟩ := by
  have silent : Gemini.toolResponse message = none := by simp [Gemini.toolResponse, assistant]
  rw [Gemini.responses_convertMessages, Gemini.responses_convertMessages, List.filterMap_append,
    List.filterMap_cons_none silent, List.filterMap_map]
  refine congrArg (_ ++ ·) ?_
  rw [← List.filterMap_eq_map]
  rfl

/-- Arguments that are printed come back as they were exactly when the text parses to them. -/
theorem toolInput_print {args : Json} (object : args.isObject)
    (emptyObject : reader.json.parse (reader.json.print (.object [])) = some (.object [])) :
    toolInput reader.json (reader.json.print args) = args ↔
      reader.json.parse (reader.json.print args) = some args := by
  cases args with
  | object entries =>
      constructor
      · intro same
        unfold toolInput at same
        split at same
        · next found => rw [found, same]
        · rw [← same]
          exact emptyObject
      · intro found
        rw [toolInput, found]
  | _ => cases object

/-- Where every call was read, what has to be sent back are the calls that were read. -/
theorem expectedCalls_eq
    (all : (readCalls reader payloads).map (Prod.map GeminiFunctionCall.asSent id) =
      sentCalls reader payloads) :
    expectedCalls reader payloads = (readCalls reader payloads).mapIdx fun position call =>
      (⟨some (call.1.id.getD (newToolCallId (reader.newIds position))), call.1.name, call.1.args⟩,
          call.2) := by
  rw [expectedCalls, ← all]
  refine List.ext_getElem? fun position => ?_
  rw [List.getElem?_mapIdx, List.getElem?_map, List.getElem?_mapIdx, Option.map_map]
  rfl

/-- The stand-in signature adds no call. -/
theorem withStandIn_length (calls : List (GeminiFunctionCall × Option String)) :
    (Gemini.withStandIn calls).length = calls.length := by
  rw [← List.length_map Prod.fst, Gemini.withStandIn_calls, List.length_map]

/-- Whatever chunks are read are taken whole. -/
theorem readCalls_all (reads : ∀ chunk ∈ payloads.filterMap reader.chunk, ∃ response,
      chunk.deserialize = some response) :
    (readCalls reader payloads).map (Prod.map GeminiFunctionCall.asSent id) =
      sentCalls reader payloads ∧
      (assembled reader payloads).finishReason =
        (sentReason reader payloads).map (Gemini.mapFinishReason reader.lowercase) := by
  obtain ⟨calls, reasons⟩ := read_all (payloads.filterMap reader.chunk) reads
  refine ⟨?_, ?_⟩
  · rw [readCalls, events_eq]
    exact calls
  · rw [assembled, (foldl_take_spec reader _ new).2, events_eq, reasons, sentReason]
    cases (((payloads.filterMap reader.chunk).filterMap GeminiSentChunk.finishReason).getLast?) <;>
      rfl

section Iff
variable (others : ∀ chunk ∈ payloads.filterMap reader.chunk, OthersComplete chunk)
  (objects : ∀ call ∈ sentCalls reader payloads, ∀ args, call.1.args = some args → args.isObject)
  (emptyObject : reader.json.parse (reader.json.print (.object [])) = some (.object []))

include others objects emptyObject

/-- Calls that come back as sent have arguments that parse back from their text. -/
theorem readsBack_of_roundTrips (roundTrips : RoundTrips reader payloads) :
    ∀ call ∈ sentCalls reader payloads,
      ∃ args, call.1.args = some args ∧ reader.json.parse (reader.json.print args) = some args := by
  obtain ⟨choice, reads, _, ⟨parts, sends, same⟩, _⟩ := roundTrips
  rw [parseStream_eq] at reads
  rw [finish_ok reads] at sends
  rw [← parts_of_sendsAs rfl sends] at same
  replace same := (stored_signedCalls reader (read_toolUses reader payloads)).symm.trans same
  have count : (readCalls reader payloads).length = (sentCalls reader payloads).length := by
    have := congrArg List.length same
    simpa [withStandIn_length, expectedCalls] using this
  have whole := (read_count (payloads.filterMap reader.chunk) others).2
    (by rwa [readCalls, events_eq] at count)
  have all := (readCalls_all whole).1
  have calls := congrArg (List.map Prod.fst) same
  rw [Gemini.withStandIn_calls, Gemini.withStandIn_calls, expectedCalls_eq all] at calls
  intro call member
  have object := objects call member
  rw [← all] at member
  obtain ⟨read, among, rfl⟩ := List.mem_map.mp member
  refine ⟨read.1.args, rfl, (toolInput_print (object _ rfl) emptyObject).mp ?_⟩
  obtain ⟨position, found⟩ := List.getElem?_of_mem among
  have here := congrArg (fun calls => calls[position]?) calls
  simp only [List.getElem?_map, List.getElem?_mapIdx, found, Option.map_some, backCall] at here
  exact congrArg GeminiFunctionCall.args (Option.some.inj here)

/-- Calls whose arguments parse back from their text come back as sent. -/
theorem roundTrips_of_readsBack (finished : sentReason reader payloads ≠ none)
    (readsBack : ∀ call ∈ sentCalls reader payloads,
      ∃ args, call.1.args = some args ∧ reader.json.parse (reader.json.print args) = some args) :
    RoundTrips reader payloads := by
  have whole : ∀ chunk ∈ payloads.filterMap reader.chunk, ∃ response,
      chunk.deserialize = some response := by
    intro chunk member
    refine chunk_isSome_of_calls (others chunk member) fun call among => ?_
    obtain ⟨args, found, _⟩ := readsBack call (List.mem_flatMap.mpr ⟨chunk, member, among⟩)
    rw [found]
    nofun
  obtain ⟨all, reason⟩ := readCalls_all whole
  have back : (readCalls reader payloads).mapIdx (backCall reader) =
      expectedCalls reader payloads := by
    rw [expectedCalls_eq all]
    refine List.ext_getElem? fun position => ?_
    rw [List.getElem?_mapIdx, List.getElem?_mapIdx]
    cases found : (readCalls reader payloads)[position]? with
    | none => rfl
    | some call =>
        have member : Prod.map GeminiFunctionCall.asSent id call ∈ sentCalls reader payloads :=
          all ▸ List.mem_map_of_mem (List.mem_of_getElem? found)
        obtain ⟨args, same, readBack⟩ := readsBack _ member
        cases same
        have kept := (toolInput_print (objects _ member _ rfl) emptyObject).mpr readBack
        rw [Option.map_some, Option.map_some, backCall, kept]
  have toolUses := read_toolUses reader payloads
  have calls := stored_toolCalls reader toolUses
  refine ⟨⟨stored (assembled reader payloads), (assembled reader payloads).finishReason,
    (assembled reader payloads).usage⟩, ?_, reason, ⟨_, TurnFormat.sendsAs_assistantParts _ _, ?_⟩,
    fun earlier output => ⟨?_, ?_⟩⟩
  · rw [parseStream_eq, finish, if_neg (by simpa [reason] using finished)]
    rfl
  · exact (stored_signedCalls reader toolUses).trans (congrArg Gemini.withStandIn back)
  · exact responses_exchange rfl earlier output
  · rw [expectedCalls_eq all, calls]
    refine List.ext_getElem? fun position => ?_
    simp only [List.getElem?_map, List.getElem?_mapIdx, Option.map_map]
    rfl

end Iff

/-- The calls of a stream make the round trip exactly if each of them has arguments that the JSON
library reads back. -/
theorem round_trips_iff (others : ∀ chunk ∈ payloads.filterMap reader.chunk, OthersComplete chunk)
    (objects : ∀ call ∈ sentCalls reader payloads, ∀ args, call.1.args = some args → args.isObject)
    (emptyObject : reader.json.parse (reader.json.print (.object [])) = some (.object []))
    (finished : sentReason reader payloads ≠ none) :
    RoundTrips reader payloads ↔ ∀ call ∈ sentCalls reader payloads,
      ∃ args, call.1.args = some args ∧ reader.json.parse (reader.json.print args) = some args :=
  ⟨readsBack_of_roundTrips others objects emptyObject,
    roundTrips_of_readsBack others objects emptyObject finished⟩

/-- Two values of the JSON library. -/
def twoObjects : SerdeJson where
  parse text :=
    if text = "\x7b\x7d" then some (.object [])
    else if text = "\x7b\"q\":\"x\"\x7d" then some (.object [("q", .string "x")])
    else none
  print value := match value with
    | .object [] => "\x7b\x7d"
    | _ => "\x7b\"q\":\"x\"\x7d"

/-- A text, a signed call with an id and one without either, and a call without arguments. -/
def someCalls : GeminiReader where
  chunk data := List.lookup data [
    ("text", ⟨[⟨[{ text := some "hello" }], none⟩], none⟩),
    ("calls",
      ⟨[⟨[⟨none, some ⟨some "one", "search", some (.object [("q", .string "x")])⟩,
            some "signature"⟩,
          ⟨none, some ⟨none, "list", some (.object [])⟩, none⟩], some "STOP"⟩], none⟩),
    ("bare", ⟨[⟨[⟨none, some ⟨none, "list", none⟩, none⟩], some "STOP"⟩], none⟩)]
  json := twoObjects
  lowercase := id
  newIds position := BitVec.ofNat 128 position

/-- A signed call and one without an id come back as they were sent. -/
theorem round_trips_sample : RoundTrips someCalls ["text", "calls"] := by
  have objects : ∀ call ∈ sentCalls someCalls ["text", "calls"], ∀ args, call.1.args = some args →
      args.isObject :=
    List.forall_mem_cons.mpr ⟨fun _ found => (by cases found; rfl),
      List.forall_mem_cons.mpr ⟨fun _ found => (by cases found; rfl), nofun⟩⟩
  refine (@round_trips_iff someCalls ["text", "calls"] ?_ objects rfl nofun).mpr ?_
  · exact List.forall_mem_cons.mpr ⟨nofun, List.forall_mem_cons.mpr ⟨nofun, nofun⟩⟩
  · exact List.forall_mem_cons.mpr ⟨⟨_, rfl, rfl⟩, List.forall_mem_cons.mpr ⟨⟨_, rfl, rfl⟩, nofun⟩⟩

/-- A call without arguments is lost with its chunk. -/
theorem bare_call_lost : ¬RoundTrips someCalls ["text", "bare"] := by
  intro roundTrips
  have others : ∀ chunk ∈ ["text", "bare"].filterMap someCalls.chunk, OthersComplete chunk :=
    List.forall_mem_cons.mpr ⟨nofun, List.forall_mem_cons.mpr ⟨nofun, nofun⟩⟩
  obtain ⟨args, found, _⟩ := readsBack_of_roundTrips others
    (List.forall_mem_cons.mpr ⟨fun _ found => (by cases found), nofun⟩) rfl roundTrips
      (⟨none, "list", none⟩, none)
    List.mem_cons_self
  cases found

end Exact

end GeminiStream

end Openheim.Llm
